import TenantForest.Forest.Basic

/-!
# Retiring a unit

Units are never deleted: removing a unit retires it (its state becomes inactive), and a
retired unit stays in the store for good. A unit can be retired only when it has no
active children and no active dependents; the children are checked first.

The dependent counts can also be set, per tenant and unit.
-/

namespace TenantForest

namespace Forest

/-- Retires the unit `id` of tenant `t` on behalf of `actor`. -/
def remove (t : Ident) (actor : Option Ident) (id : Ident) : InPlace Forest Entity := do
  let f ← getThe Forest
  let node ← InPlace.check (f.store.getActive id t)
  let children := f.store.countChildren id t
  let dependents := f.dependents.count t id
  if children > 0 then throw (.hasChildren node.path children)
  else if dependents > 0 then throw (.hasDependents node.path dependents)
  else if !node.state.canBecome .inactive then throw (.cannotRetire id node.state.name)
  else onStore (Store.update t id node.version { state := some .inactive, updatedBy := actor })

/-- Sets the number of active dependents of unit `id` in tenant `t`. -/
def setDependents (f : Forest) (t id : Ident) (n : Nat) : Forest :=
  { f with dependents := f.dependents.set t id n }

end Forest

end TenantForest
