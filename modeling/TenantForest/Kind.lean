import TenantForest.Fault
import TenantForest.Text.Blank
import TenantForest.Text.Lowercase

/-!
# Kinds and lifecycle states

A unit is a generic unit, a company or a department. Kinds are read from text
case-insensitively and with blanks around them ignored; `entity` is another name of the
generic kind.

A unit is active until it is retired; retiring is the only change of state, and a
retired unit stays retired.
-/

namespace TenantForest

/-- What an organisational unit is. -/
inductive Kind where
  | generic
  | company
  | department
  deriving DecidableEq, Repr, Inhabited

namespace Kind

/-- Every kind, in the order reports list them. -/
def all : List Kind := [.generic, .company, .department]

/-- The lowercase name of the kind. -/
def name : Kind → String
  | .generic => "generic"
  | .company => "company"
  | .department => "department"

/-- The kind a text names, after trimming and lowercasing it; the fault quotes the text
as given. -/
def parse (text : String) : Except Fault Kind :=
  match Text.lowercase (Text.trim text) with
  | "generic" | "entity" => .ok .generic
  | "company" => .ok .company
  | "department" => .ok .department
  | _ => .error (.unknownKind text)

end Kind

/-- Whether a unit takes part in the forest or has been retired. -/
inductive Lifecycle where
  | active
  | inactive
  deriving DecidableEq, Repr, Inhabited

namespace Lifecycle

/-- The lowercase name of the state. -/
def name : Lifecycle → String
  | .active => "active"
  | .inactive => "inactive"

/-- The state with the given lowercase name. -/
def ofName? : String → Option Lifecycle
  | "active" => some .active
  | "inactive" => some .inactive
  | _ => none

/-- Whether the state counts as active. -/
def isActive : Lifecycle → Bool
  | .active => true
  | .inactive => false

/-- The only legal change of state is from active to inactive. -/
def canBecome : Lifecycle → Lifecycle → Bool
  | .active, .inactive => true
  | _, _ => false

end Lifecycle

end TenantForest
