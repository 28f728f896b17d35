import TenantForest.Forest.Cascade
import TenantForest.Walk.Ancestry

/-!
# Moving a unit

A move gives a unit a new parent, or makes it a root. Its checks, in order:

1. the unit is an active unit of the tenant;
2. the new parent is not the unit itself;
3. the new parent is an active unit of the tenant (a unit of another tenant is reported
   as such);
4. the unit is not an ancestor of the new parent; the walk up from the new parent may
   itself fail on corrupt data;
5. a move to the current parent does nothing, not even raise the version;
6. the unit's new level is within the maximum depth;
7. the unit's name is free at the destination under the naming policy;
8. every descendant's new level is within the maximum depth.

Then one commit writes the unit and every descendant whose path or level changes. Each
descendant keeps its depth relative to the unit and its path suffix.
-/

namespace TenantForest

namespace Forest

/-- The new parent of a move, checked: not the unit itself, an active unit of the tenant,
and not one of the unit's descendants. -/
def destination (f : Forest) (t id : Ident) : Option Ident → Except Fault (Option Entity)
  | none => .ok none
  | some p => do
    if p == id then throw .underItself
    let parent ← f.resolveParent p t
    let cycle ← f.store.wouldCycle f.settings.maxDepth id p t
    if cycle then throw .underDescendant
    pure (some parent)

/-- Moves the unit `id` of tenant `t` below `target` (a root when `none`) on behalf of
`actor`. -/
def move (t : Ident) (actor : Option Ident) (id : Ident) (target : Option Ident) :
    InPlace Forest Entity := do
  let f ← getThe Forest
  let node ← InPlace.check (f.store.getActive id t)
  let parent ← InPlace.check (f.destination t id target)
  if node.parent == target then return node
  let (path, level) := f.settings.derive node.name parent
  InPlace.check (f.settings.checkDepth level)
  let claim := f.claimFor node.name t target (some id)
  InPlace.check (f.ensureAvailable claim)
  let cascade ← InPlace.check (f.planCascade node path level)
  let change : Change :=
    { tenant := t, id := id, expected := node.version,
      edit := { parent := some target, path := some path, level := some level,
                updatedBy := actor },
      cascade := cascade }
  onStore (Store.commit change claim)

end Forest

end TenantForest
