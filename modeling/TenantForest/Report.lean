import TenantForest.Service.Request

/-!
# Reports as documents

The values the forest hands out, written as documents: units, nested views, integrity
issues, statistics, pages, settings, replies and faults. Field names are lowercase with
underscores; identifiers are written in their hyphenated form, absent values as `null`,
kinds and states by their lowercase names.
-/

namespace TenantForest

namespace Report

/-- An identifier as a text document. -/
def ident (i : Ident) : Document := .text i.text

/-- An optional identifier, `null` when absent. -/
def optIdent (i : Option Ident) : Document := Document.ofOption ident i

/-- A natural number as an integer document. -/
def nat (n : Nat) : Document := .int n

end Report

/-- A unit with all its fields. -/
def Entity.toDocument (e : Entity) : Document :=
  .record [
    ("id", Report.ident e.id),
    ("tenant_id", Report.ident e.tenant),
    ("name", .text e.name),
    ("type", .text e.kind.name),
    ("parent_id", Report.optIdent e.parent),
    ("path", .text e.path),
    ("level", .int e.level),
    ("metadata", e.metadata),
    ("state", .text e.state.name),
    ("version", .int e.version),
    ("created_by", Report.optIdent e.createdBy),
    ("updated_by", Report.optIdent e.updatedBy)]

mutual

/-- A nested view: the unit's identifier, name, kind, path and level, and its
children. -/
def Outline.toDocument : Outline → Document
  | .node u cs =>
    .record [
      ("id", Report.ident u.id),
      ("name", .text u.name),
      ("type", .text u.kind.name),
      ("path", .text u.path),
      ("level", .int u.level),
      ("children", .list (Outline.listToDocument cs))]

/-- The documents of a list of nested views. -/
def Outline.listToDocument : List Outline → List Document
  | [] => []
  | o :: os => o.toDocument :: Outline.listToDocument os

end

/-- An integrity issue: the unit, its path, the problem's name and its detail. -/
def Issue.toDocument (i : Issue) : Document :=
  let head := [("entity_id", Report.ident i.entity), ("path", .text i.path)]
  .record <| head ++
    match i.problem with
    | .orphanedParent p => [("problem", .text "orphaned_parent"), ("parent_id", Report.ident p)]
    | .pathMismatch expected => [("problem", .text "path_mismatch"), ("expected", .text expected)]
    | .levelMismatch expected => [("problem", .text "level_mismatch"), ("expected", .int expected)]
    | .cycle => [("problem", .text "cycle")]

/-- Statistics: the total, counts and mean levels keyed by kind name, and the deepest
level. -/
def Stats.toDocument (s : Stats) : Document :=
  .record [
    ("total", Report.nat s.total),
    ("count_by_type", .record (s.counts.map fun (k, n) => (k.name, Report.nat n))),
    ("average_level_by_type", .record (s.averages.map fun (k, x) => (k.name, .real x))),
    ("max_level", Document.ofOption Document.int s.maxLevel)]

/-- A page of items with its position among all pages. -/
def Page.toDocument {α : Type} (item : α → Document) (p : Page α) : Document :=
  .record [
    ("items", .list (p.items.map item)),
    ("page", Report.nat p.page),
    ("page_size", Report.nat p.size),
    ("total_items", Report.nat p.totalItems),
    ("total_pages", Report.nat p.totalPages),
    ("has_next", .bool p.hasNext)]

/-- The five settings under their configuration names. -/
def Settings.toDocument (s : Settings) : Document :=
  .record [
    ("path_separator", .text s.separator),
    ("max_depth", .int s.maxDepth),
    ("max_name_length", Report.nat s.maxNameLength),
    ("cascade_batch_size", Report.nat s.cascadeBatch),
    ("name_uniqueness", .text s.policy.name)]

/-- A reply: units as records, lists as lists, and `null` when there is nothing to
report. -/
def Reply.toDocument : Reply → Document
  | .unit e => e.toDocument
  | .units es => .list (es.map Entity.toDocument)
  | .page p => p.toDocument Entity.toDocument
  | .outline trees => .list (Outline.listToDocument trees)
  | .stats s => s.toDocument
  | .issues found => .list (found.map Issue.toDocument)
  | .done => .null

/-- A fault: its category's name, its code and its message. -/
def Fault.toDocument (f : Fault) : Document :=
  .record [
    ("error", .text f.category.name),
    ("code", .text f.category.code),
    ("message", .text f.message)]

end TenantForest
