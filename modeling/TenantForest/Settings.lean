import TenantForest.Fault
import TenantForest.Text.Blank

/-!
# Settings

The shape of a forest is governed by five settings: the separator placed between names
in a path, the deepest level a unit may occupy (roots are level 0), the longest name in
characters, the number of rows a cascade writes per batch, and the policy that decides
where names must be unique.

`Settings.check` refuses settings that would make the forest unusable. The forest
itself runs with whatever settings it is given, checked or not: a blank separator, for
instance, makes every name invalid, because every name contains the empty text.
-/

namespace TenantForest

/-- Where the names of active units must be unique. -/
inductive NamePolicy where
  /-- Across every tenant. -/
  | global
  /-- Within one tenant. -/
  | tenant
  /-- Among the children of one parent, or among the roots, of one tenant. -/
  | siblings
  /-- Nowhere. -/
  | none
  deriving DecidableEq, Repr, Inhabited

namespace NamePolicy

/-- The lowercase name of the policy. -/
def name : NamePolicy → String
  | .global => "global"
  | .tenant => "tenant"
  | .siblings => "siblings"
  | .none => "none"

/-- The policy with the given lowercase name. -/
def ofName? : String → Option NamePolicy
  | "global" => some .global
  | "tenant" => some .tenant
  | "siblings" => some .siblings
  | "none" => some .none
  | _ => Option.none

end NamePolicy

/-- The settings a forest runs under. -/
structure Settings where
  /-- The text between consecutive names of a path. -/
  separator : String := " > "
  /-- The deepest level a unit may occupy. -/
  maxDepth : Int := 32
  /-- The longest name, in characters. -/
  maxNameLength : Nat := 255
  /-- Rows per batch when a cascade is written. -/
  cascadeBatch : Nat := 500
  /-- Where names must be unique. -/
  policy : NamePolicy := .siblings
  deriving DecidableEq, Repr, Inhabited

namespace Settings

/-- The checks, in order: a visible separator, a non-negative depth, a positive name
length and a positive batch size. -/
def check (s : Settings) : Except Fault Unit :=
  if (Text.trim s.separator).isEmpty then .error .separatorBlank
  else if s.maxDepth < 0 then .error .depthNegative
  else if s.maxNameLength = 0 then .error .nameLengthZero
  else if s.cascadeBatch = 0 then .error .batchZero
  else .ok ()

end Settings

end TenantForest
