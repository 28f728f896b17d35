import TenantForest.Forest.Basic
import TenantForest.Walk.Descendants

/-!
# Planning a cascade

When a unit gets a new path or level, every active descendant's path and level are
derived again, parents first: the head's new values start the derivation, and each
descendant's values come from its parent's derived values and its own name. A
descendant that would sit deeper than the maximum depth stops the plan before anything
is written. Descendants whose derived values equal their stored ones are left out of the
plan, so their versions stay as they are.

The walk yields every descendant after its parent, so the parent's derived values are
always at hand; the `reachedBeforeParent` fault guards that expectation.
-/

namespace TenantForest

namespace Forest

/-- Derives the new placements of the descendants `ds` (in walk order), given the derived
values so far (latest first); collects them in reverse. -/
def planRows (s : Settings) : List Entity → List (Ident × String × Int) → List Placement →
    Except Fault (List Placement)
  | [], _, acc => .ok acc.reverse
  | n :: rest, derived, acc =>
    match n.parent.bind (fun p => derived.lookup p) with
    | none => .error (.reachedBeforeParent n.id)
    | some (parentPath, parentLevel) =>
      let (path, level) := s.childOf parentPath parentLevel n.name
      match s.checkDepth level with
      | .error e => .error e
      | .ok () =>
        let acc' := if path != n.path || level != n.level then
          { id := n.id, expected := n.version, path := path, level := level } :: acc
        else acc
        planRows s rest ((n.id, path, level) :: derived) acc'

/-- The new placements of the active descendants of `head` when it gets `path` and `level`. -/
def planCascade (f : Forest) (head : Entity) (path : String) (level : Int) :
    Except Fault (List Placement) :=
  planRows f.settings (f.store.descendants head.id head.tenant) [(head.id, path, level)] []

end Forest

end TenantForest
