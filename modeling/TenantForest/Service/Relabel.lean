import TenantForest.Service.Request

/-!
# Relabelling units

`relabel σ` renames the identifiers of units by `σ` throughout a value: in units (their
own identifier and their parent link), outlines, issues, pages, replies and faults, and in
the requests of calls. Tenants, actors, names, paths and metadata stay as they are.

Identifiers are drawn from one counter shared by all tenants, so which identifiers a
tenant's units get depends on what other tenants did in between. That one tenant's
answers do not depend on the others can therefore only hold up to a relabelling.
-/

namespace TenantForest

/-- The unit with its identifier and its parent link renamed. -/
def Entity.relabel (σ : Ident → Ident) (e : Entity) : Entity :=
  { e with id := σ e.id, parent := e.parent.map σ }

mutual

/-- The outline with every unit in it renamed. -/
def Outline.relabel (σ : Ident → Ident) : Outline → Outline
  | .node u cs => .node (u.relabel σ) (Outline.relabelAll σ cs)

/-- Outlines with every unit in them renamed. -/
def Outline.relabelAll (σ : Ident → Ident) : List Outline → List Outline
  | [] => []
  | o :: os => o.relabel σ :: Outline.relabelAll σ os

end

/-- The problem with the parent it names renamed. -/
def Problem.relabel (σ : Ident → Ident) : Problem → Problem
  | .orphanedParent p => .orphanedParent (σ p)
  | p => p

/-- The issue with its unit and its problem renamed. -/
def Issue.relabel (σ : Ident → Ident) (i : Issue) : Issue :=
  { i with entity := σ i.entity, problem := i.problem.relabel σ }

/-- The page with `g` applied to its items. -/
def Page.map {α β : Type} (g : α → β) (p : Page α) : Page β :=
  { items := p.items.map g, page := p.page, size := p.size, totalItems := p.totalItems,
    totalPages := p.totalPages, hasNext := p.hasNext }

/-- The reply with every unit in it renamed. -/
def Reply.relabel (σ : Ident → Ident) : Reply → Reply
  | .unit e => .unit (e.relabel σ)
  | .units es => .units (es.map (Entity.relabel σ))
  | .page p => .page (p.map (Entity.relabel σ))
  | .outline trees => .outline (Outline.relabelAll σ trees)
  | .stats s => .stats s
  | .issues found => .issues (found.map (Issue.relabel σ))
  | .done => .done

/-- The fault with the units it names renamed. -/
def Fault.relabel (σ : Ident → Ident) : Fault → Fault
  | .unitMissing id => .unitMissing (σ id)
  | .parentMissing id => .parentMissing (σ id)
  | .parentElsewhere id => .parentElsewhere (σ id)
  | .staleVersion id => .staleVersion (σ id)
  | .chainCorrupt id => .chainCorrupt (σ id)
  | .ancestorMissing a id => .ancestorMissing (σ a) (σ id)
  | .reachedBeforeParent id => .reachedBeforeParent (σ id)
  | .cannotRetire id state => .cannotRetire (σ id) state
  | e => e

/-- The filter with the parent it asks for renamed. -/
def Filter.relabel (σ : Ident → Ident) (f : Filter) : Filter :=
  { f with parent := f.parent.map σ }

/-- The creation request with its parent renamed. -/
def CreateRequest.relabel (σ : Ident → Ident) (r : CreateRequest) : CreateRequest :=
  { r with parent := r.parent.map σ }

/-- The units a request names: the unit it is about and the parent it asks for. -/
def Request.units : Request → List Ident
  | .create r => r.parent.toList
  | .get id | .children id | .rename id _ | .remove id | .ancestors id | .setDependents id _ =>
    [id]
  | .list filter _ => filter.parent.toList
  | .move id parent => id :: parent.toList
  | .hierarchy _ | .tree _ | .stats | .verify => []

/-- The request with every unit it names renamed. -/
def Request.relabel (σ : Ident → Ident) : Request → Request
  | .create r => .create (r.relabel σ)
  | .get id => .get (σ id)
  | .list filter page => .list (filter.relabel σ) page
  | .children id => .children (σ id)
  | .rename id name => .rename (σ id) name
  | .move id parent => .move (σ id) (parent.map σ)
  | .remove id => .remove (σ id)
  | .hierarchy maxDepth => .hierarchy maxDepth
  | .tree maxDepth => .tree maxDepth
  | .ancestors id => .ancestors (σ id)
  | .stats => .stats
  | .verify => .verify
  | .setDependents id n => .setDependents (σ id) n

/-- The call with every unit its request names renamed; tenant and actor are kept. -/
def Call.relabel (σ : Ident → Ident) (c : Call) : Call :=
  { c with request := c.request.relabel σ }

end TenantForest
