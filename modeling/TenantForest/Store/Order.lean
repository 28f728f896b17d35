import TenantForest.Store.Basic
import TenantForest.Page
import TenantForest.Text.Lowercase

/-!
# Orders of units

Two orders are used to present units.

* **Path order** compares the segments of the paths (the path cut at every occurrence
  of the separator), segment by segment as texts, a shorter prefix first, and breaks
  ties by identifier. Listings use it.
* **Hierarchy order** is a depth-first walk from the roots of a tenant, siblings ordered
  by (name, identifier). Units that share a path, which the naming policy `none`
  allows, keep their subtrees apart in it. Units no root reaches (their parent chain
  leaves the active units of the tenant, or runs in a circle) follow the walk, in path
  order.

The walk keeps a pool of units not yet reached and a stack of units to visit: visiting
the top takes its children out of the pool and puts them, sorted, on top of the stack.
The pool shrinks or the stack does, so the walk ends, and no unit is visited twice.
-/

namespace TenantForest

namespace Order

/-- Siblings by name (as text), then identifier. -/
def bySibling (a b : Entity) : Ordering :=
  match Text.compareText a.name b.name with
  | .eq => compare a.id.bits b.id.bits
  | o => o

/-- Units by the segments of their paths, then identifier. -/
def byPath (sep : String) (a b : Entity) : Ordering :=
  match Text.compareTexts (Text.segments a.path sep) (Text.segments b.path sep) with
  | .eq => compare a.id.bits b.id.bits
  | o => o

/-- A list sorted by a comparison, stably. -/
def sortWith (cmp : Entity → Entity → Ordering) (xs : List Entity) : List Entity :=
  xs.mergeSort (fun a b => cmp a b != .gt)

/-- The depth-first walk: visits the stack's top, then its children from the pool in
sibling order, then the rest of the stack. Returns the visited units and what is left
of the pool. -/
def descend (pool stack : List Entity) : List Entity × List Entity :=
  match stack with
  | [] => ([], pool)
  | x :: rest =>
    let parts := Store.splitChildren x.id pool
    let (seen, left) := descend parts.2 (sortWith bySibling parts.1 ++ rest)
    (x :: seen, left)
termination_by 2 * pool.length + stack.length
decreasing_by
  have h := Store.splitChildren_length x.id pool
  simp only [sortWith, List.length_append, List.length_mergeSort, List.length_cons]
  omega

/-- Whether the parent of `e`, if any, is among `ids`. -/
def linked (ids : List Ident) (e : Entity) : Bool :=
  match e.parent with
  | some p => ids.contains p
  | none => true

/-- The hierarchy order of a set of units: the walk from the roots, then every unit it
does not reach, in path order. -/
def hierarchy (sep : String) (nodes : List Entity) : List Entity :=
  let ids := nodes.map Entity.id
  let roots := nodes.filter Entity.isRoot
  let pool := nodes.filter (fun e => !e.isRoot && linked ids e)
  let stranded := nodes.filter (fun e => !linked ids e)
  let (reached, left) := descend pool (sortWith bySibling roots)
  reached ++ sortWith (byPath sep) (stranded ++ left)

end Order

/-- What a listing selects. -/
structure Filter where
  /-- Only units of this kind. -/
  kind : Option Kind := none
  /-- Only children of this unit. -/
  parent : Option Ident := none
  /-- Only roots; ignored when `parent` is given. -/
  rootsOnly : Bool := false
  /-- Only units whose lowercase name contains this text in lowercase. -/
  nameContains : Option String := none
  /-- Only units at this level or above. -/
  maxLevel : Option Int := none
  deriving Repr, Inhabited

namespace Filter

/-- Whether a unit passes the filter (tenant and state are the caller's concern). -/
def admits (f : Filter) (e : Entity) : Bool :=
  (match f.kind with
    | some k => e.kind == k
    | none => true) &&
  (match f.parent with
    | some p => e.parent == some p
    | none => !f.rootsOnly || e.isRoot) &&
  (match f.nameContains with
    | some n => Text.contains (Text.lowercase e.name) (Text.lowercase n)
    | none => true) &&
  (match f.maxLevel with
    | some m => decide (e.level ≤ m)
    | none => true)

end Filter

namespace Store

/-- The active units of tenant `t` in hierarchy order. -/
def hierarchy (s : Store) (sep : String) (t : Ident) : List Entity :=
  Order.hierarchy sep (s.activeOf t)

/-- The active units of tenant `t` that pass the filter, in path order. -/
def matching (s : Store) (sep : String) (t : Ident) (f : Filter) : List Entity :=
  Order.sortWith (Order.byPath sep) ((s.activeOf t).filter f.admits)

/-- One page of the units of tenant `t` that pass the filter, in path order. -/
def list (s : Store) (sep : String) (t : Ident) (f : Filter) (r : PageRequest) : Page Entity :=
  let all := s.matching sep t f
  Page.build (r.window all) r all.length

end Store

end TenantForest
