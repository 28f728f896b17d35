import TenantForest.Forest.Basic

/-!
# Creating a unit

A create request is checked in this order, the first failing check deciding the fault:

1. the request itself: a name with at least one character, and metadata that is an
   object;
2. the trimmed name (not blank, not too long, no separator);
3. the parent, when one is given: an active unit of the tenant (a unit of another
   tenant is reported as such);
4. the derived level against the maximum depth;
5. the name claim under the naming policy, at the requested parent.

Only then does the store take the unit, as an active unit at version 1 under the next
serial identifier; a refused request draws no identifier.
-/

namespace TenantForest

/-- What a new unit should be. -/
structure CreateRequest where
  /-- The name as given, before trimming. -/
  name : String
  /-- The kind. -/
  kind : Kind := .generic
  /-- The parent, `none` for a root. -/
  parent : Option Ident := none
  /-- The metadata; it must be an object. -/
  metadata : Document := .record []
  deriving Repr, Inhabited

namespace CreateRequest

/-- The request's own checks: a name with at least one character, then object
metadata. -/
def validate (r : CreateRequest) : Except Fault Unit :=
  if r.name.isEmpty then .error .nameRequired
  else if !r.metadata.isRecord then .error .metadataNotRecord
  else .ok ()

end CreateRequest

namespace Forest

/-- The parent a request names, resolved; `none` for a root. -/
def parentOf (f : Forest) (t : Ident) : Option Ident → Except Fault (Option Entity)
  | some p => (f.resolveParent p t).map some
  | none => .ok none

/-- Creates a unit in tenant `t` on behalf of `actor`. -/
def create (t : Ident) (actor : Option Ident) (r : CreateRequest) : InPlace Forest Entity := do
  let f ← getThe Forest
  InPlace.check r.validate
  let name ← InPlace.check (f.settings.validateName r.name)
  let parent ← InPlace.check (f.parentOf t r.parent)
  let (path, level) := f.settings.derive name parent
  InPlace.check (f.settings.checkDepth level)
  let claim := f.claimFor name t r.parent none
  InPlace.check (f.ensureAvailable claim)
  let draft : Draft :=
    { tenant := t, name := name, kind := r.kind, parent := r.parent, path := path,
      level := level, metadata := r.metadata, createdBy := actor }
  onStore (Store.insert draft claim)

end Forest

end TenantForest
