import TenantForest.Forest.Basic
import TenantForest.Store.Order
import TenantForest.Walk.Ancestry

/-!
# Reading a forest

The reads of a tenant's forest: one unit, the children of a unit (in insertion order), a
filtered page of units in path order, every unit in hierarchy order (optionally down to
a level), the breadcrumbs of a unit (root first), and per-kind statistics.

The statistics count the active units of each kind present, and report the mean level
of each kind as the double nearest to the quotient of the level sum and the count
(both first read as doubles, as a machine would).
-/

namespace TenantForest

/-- Figures about the active units of a tenant. -/
structure Stats where
  /-- The number of active units. -/
  total : Nat
  /-- Active units per kind, for the kinds present. -/
  counts : List (Kind × Nat)
  /-- Mean level per kind, for the kinds present. -/
  averages : List (Kind × Binary64)
  /-- The deepest level in use, `none` when the tenant has no active unit. -/
  maxLevel : Option Int
  deriving Repr

namespace Forest

/-- The active unit `id` of tenant `t`. -/
def get (f : Forest) (t id : Ident) : Except Fault Entity :=
  f.store.getActive id t

/-- The active children of the active unit `id` of tenant `t`, in insertion order. -/
def children (f : Forest) (t id : Ident) : Except Fault (List Entity) :=
  (f.store.getActive id t).map fun _ => f.store.childrenOf id t

/-- A page of the active units of tenant `t` passing the filter, in path order. A negative
level bound is refused. -/
def list (f : Forest) (t : Ident) (filter : Filter) (r : PageRequest) :
    Except Fault (Page Entity) :=
  match filter.maxLevel with
  | some m => if m < 0 then .error .negativeMaxLevel else .ok (f.store.list f.settings.separator t filter r)
  | none => .ok (f.store.list f.settings.separator t filter r)

/-- The active units of tenant `t` in hierarchy order, down to level `maxDepth` when
given. A negative bound is refused. -/
def hierarchy (f : Forest) (t : Ident) (maxDepth : Option Int) : Except Fault (List Entity) :=
  let all := f.store.hierarchy f.settings.separator t
  match maxDepth with
  | some d => if d < 0 then .error .negativeMaxDepth else .ok (all.filter (fun e => decide (e.level ≤ d)))
  | none => .ok all

/-- The unit `id` and its ancestors, root first. -/
def ancestors (f : Forest) (t id : Ident) : Except Fault (List Entity) :=
  (f.store.ancestry f.settings.maxDepth id t).map List.reverse

/-- The statistics of the units `us`. -/
def statsOf (us : List Entity) : Stats :=
  let present := Kind.all.filter (fun k => us.any (fun e => e.kind == k))
  let ofKind := fun k => us.filter (fun e => e.kind == k)
  { total := us.length
    counts := present.map (fun k => (k, (ofKind k).length))
    averages := present.map (fun k =>
      let sum := (ofKind k).foldr (fun e s => e.level + s) 0
      (k, Binary64.div (Binary64.ofInt sum) (Binary64.ofInt (ofKind k).length)))
    maxLevel := us.foldl (fun m e => some (match m with
      | some l => max l e.level
      | none => e.level)) none }

/-- The statistics of the active units of tenant `t`. -/
def stats (f : Forest) (t : Ident) : Stats :=
  statsOf (f.store.hierarchy f.settings.separator t)

end Forest

end TenantForest
