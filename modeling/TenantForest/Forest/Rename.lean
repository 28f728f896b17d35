import TenantForest.Forest.Cascade

/-!
# Renaming a unit

A rename validates the new name, finds the unit, and does nothing when the trimmed name
is already the unit's name. Otherwise the name is claimed among the unit's current
siblings (or tenant, or everywhere, as the policy says), the unit's path is derived
again from its parent, and one commit writes the unit and every descendant whose path
changes.

The depth of the unit itself is not checked: a rename keeps every level as it is.
-/

namespace TenantForest

namespace Forest

/-- The current parent of a unit, which must be an active unit of the tenant. -/
def currentParent (f : Forest) (t : Ident) : Option Ident → Except Fault (Option Entity)
  | some p => (f.store.getActive p t).map some
  | none => .ok none

/-- Renames the unit `id` of tenant `t` to `newName` on behalf of `actor`. -/
def rename (t : Ident) (actor : Option Ident) (id : Ident) (newName : String) :
    InPlace Forest Entity := do
  let f ← getThe Forest
  let name ← InPlace.check (f.settings.validateName newName)
  let node ← InPlace.check (f.store.getActive id t)
  if node.name == name then return node
  let claim := f.claimFor name t node.parent (some id)
  InPlace.check (f.ensureAvailable claim)
  let parent ← InPlace.check (f.currentParent t node.parent)
  let (path, level) := f.settings.derive name parent
  let cascade ← InPlace.check (f.planCascade node path level)
  let change : Change :=
    { tenant := t, id := id, expected := node.version,
      edit := { name := some name, path := some path, level := some level, updatedBy := actor },
      cascade := cascade }
  onStore (Store.commit change claim)

end Forest

end TenantForest
