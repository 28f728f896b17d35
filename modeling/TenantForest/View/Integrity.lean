import TenantForest.Forest.Query

/-!
# Integrity report

`Forest.verify` checks every active unit of a tenant, in hierarchy order, and reports
the first problem of each:

1. its parent is set but is not an active unit of the tenant (`orphanedParent`);
2. following parent links from it revisits a unit (`cycle`);
3. when the links reach a unit outside the active units of the tenant, nothing is
   reported for this unit: the orphan is reported on that ancestor;
4. its path differs from its ancestors' names joined root first (`pathMismatch`);
5. its level differs from the number of its ancestors (`levelMismatch`).

Each step of the climb adds a unit not seen before, so the climb takes at most as many
steps as there are units; that count, plus one, is its fuel.
-/

namespace TenantForest

/-- What is wrong with a unit. -/
inductive Problem where
  /-- The parent is missing, retired, or in another tenant. -/
  | orphanedParent (parent : Ident)
  /-- The stored path differs from the derived one. -/
  | pathMismatch (expected : String)
  /-- The stored level differs from the number of ancestors. -/
  | levelMismatch (expected : Int)
  /-- The unit is its own ancestor. -/
  | cycle
  deriving DecidableEq, Repr, Inhabited

/-- A problem found with one unit. -/
structure Issue where
  /-- The unit. -/
  entity : Ident
  /-- Its stored path. -/
  path : String
  /-- What is wrong. -/
  problem : Problem
  deriving DecidableEq, Repr, Inhabited

namespace Integrity

/-- Climbs from `current` putting each ancestor's name in front of those collected, so the
names come root first: `some names` when a root is reached, `none` when a unit outside `units`
is; `cycle` is reported as an error. -/
def names (units : List Entity) :
    Nat → List Ident → List String → Option Ident → Except Problem (Option (List String))
  | _, _, acc, none => .ok (some acc)
  | 0, _, _, some _ => .error .cycle
  | fuel + 1, seen, acc, some id =>
    if seen.contains id then .error .cycle
    else
      match units.find? (fun e => e.id == id) with
      | none => .ok none
      | some a => names units fuel (id :: seen) (a.name :: acc) a.parent

/-- The first problem of unit `n` among `units` (the active units of its tenant). -/
def check (sep : String) (units : List Entity) (n : Entity) : Option Problem :=
  let orphan := match n.parent with
    | some p => if units.any (fun e => e.id == p) then none else some p
    | none => none
  match orphan with
  | some p => some (.orphanedParent p)
  | none =>
    match names units (units.length + 1) [n.id] [n.name] n.parent with
    | .error p => some p
    | .ok none => none
    | .ok (some rootFirst) =>
      let expectedPath := sep.intercalate rootFirst
      let expectedLevel : Int := rootFirst.length - 1
      if n.path != expectedPath then some (.pathMismatch expectedPath)
      else if n.level != expectedLevel then some (.levelMismatch expectedLevel)
      else none

end Integrity

namespace Forest

/-- The problems of the active units of tenant `t`, in hierarchy order. -/
def verify (f : Forest) (t : Ident) : List Issue :=
  let units := f.store.hierarchy f.settings.separator t
  units.filterMap fun n =>
    (Integrity.check f.settings.separator units n).map fun p => ⟨n.id, n.path, p⟩

end Forest

end TenantForest
