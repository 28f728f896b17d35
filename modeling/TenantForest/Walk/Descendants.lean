import TenantForest.Store.Basic

/-!
# The descendants of a unit

A rename or a move derives anew the paths of every active descendant of the unit. The
descendants are produced in pre-order: each unit right after its parent, each subtree
together, and the children of a unit in insertion order.

The walk keeps a pool of the active units of the tenant not yet queued, and a stack of
units to yield. Yielding the top moves its children from the pool onto the stack. The
start unit is never in the pool, so a parent link that leads back to it cannot make the
walk return to it, and no unit is queued twice; the pool shrinks or the stack does, so
the walk ends even on corrupt parent links.
-/

namespace TenantForest

namespace Walk

/-- The pre-order walk: yields the stack's top, then its children from the pool in
insertion order, then the rest of the stack. -/
def below (pool stack : List Entity) : List Entity :=
  match stack with
  | [] => []
  | x :: rest =>
    let parts := Store.splitChildren x.id pool
    x :: below parts.2 (parts.1 ++ rest)
termination_by 2 * pool.length + stack.length
decreasing_by
  have h := Store.splitChildren_length x.id pool
  simp only [List.length_append, List.length_cons]
  omega

end Walk

namespace Store

/-- The active descendants of `id` in tenant `t`, in pre-order, without `id` itself. -/
def descendants (s : Store) (id t : Ident) : List Entity :=
  let pool := (s.activeOf t).filter (fun e => e.id != id)
  let parts := splitChildren id pool
  Walk.below parts.2 parts.1

end Store

end TenantForest
