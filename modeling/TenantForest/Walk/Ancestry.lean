import TenantForest.Store.Basic

/-!
# The ancestors of a unit

`Store.ancestry` returns a unit followed by its ancestors, nearest first. It is the
guard against cycles: a move below a unit is refused when the moving unit is among that
unit's ancestors.

The walk follows parent links through the active units of the tenant and stops at a
root. It fails

* with `unitMissing` when the start is not an active unit of the tenant;
* with `ancestorMissing` when a parent link leaves the active units of the tenant;
* with `chainCorrupt` when the chain revisits a unit or would grow beyond the depth
  bound: `maxDepth + 1` units, the bound read as a 64-bit machine word.

Each step adds a unit not seen before, so the walk takes at most as many steps as the
store has units; that count, plus one, is its fuel.
-/

namespace TenantForest

namespace Walk

/-- The largest number of units an ancestor chain may hold: `maxDepth + 1`, with the depth
read as a 64-bit word (so a negative depth reads as a huge one) and the sum wrapping. -/
def chainLimit (maxDepth : Int) : Nat :=
  ((maxDepth % Int.pow 2 64).toNat + 1) % Nat.pow 2 64

/-- Climbs from `current` with the chain so far (nearest first, reversed) and the
identifiers visited. -/
def climb (s : Store) (t start : Ident) (limit : Nat) :
    Nat → List Ident → List Entity → Ident → Except Fault (List Entity)
  | 0, _, _, _ => .error (.chainCorrupt start)
  | fuel + 1, visited, chain, current =>
    if visited.contains current || chain.length ≥ limit then .error (.chainCorrupt start)
    else
      match s.active? current t with
      | none =>
        if chain.isEmpty then .error (.unitMissing current)
        else .error (.ancestorMissing current start)
      | some n =>
        match n.parent with
        | none => .ok (n :: chain).reverse
        | some p => climb s t start limit fuel (current :: visited) (n :: chain) p

end Walk

namespace Store

/-- The unit `id` followed by its ancestors, nearest first. -/
def ancestry (s : Store) (maxDepth : Int) (id t : Ident) : Except Fault (List Entity) :=
  Walk.climb s t id (Walk.chainLimit maxDepth) (s.entities.length + 1) [] [] id

/-- Whether giving `moving` the parent `candidate` would close a cycle: it would when the
two are the same unit or `moving` is an ancestor of `candidate`. -/
def wouldCycle (s : Store) (maxDepth : Int) (moving candidate t : Ident) : Except Fault Bool :=
  if moving == candidate then .ok true
  else
    match s.ancestry maxDepth candidate t with
    | .ok chain => .ok (chain.any (fun e => e.id == moving))
    | .error e => .error e

end Store

end TenantForest
