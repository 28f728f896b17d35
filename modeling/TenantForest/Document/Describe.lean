import TenantForest.Document
import TenantForest.Text.Visible

/-!
# Describing a document in a diagnostic

When a document does not have the shape a reader expects, the diagnostic names what it
found: its kind, and for a scalar the value itself, quoted between backticks (a string
between double quotes, escaped as `Text.quoteVisible` does). Integers are written in
decimal and doubles in their shortest form with a signed exponent (`Binary64.quote`);
lists and records are named by kind only, as `sequence` and `map`.
-/

namespace TenantForest

namespace Document

/-- What a diagnostic calls a document it did not expect. -/
def describe : Document → String
  | .null => "null"
  | .bool b => "boolean \x60" ++ (if b then "true" else "false") ++ "\x60"
  | .int i => "integer \x60" ++ toString i ++ "\x60"
  | .real x => "floating point \x60" ++ x.quote ++ "\x60"
  | .text s => "string " ++ Text.quoteVisible s
  | .list _ => "sequence"
  | .record _ => "map"

/-- The diagnostic for a document of the wrong kind. -/
def invalidType (found : Document) (expected : String) : String :=
  "invalid type: " ++ found.describe ++ ", expected " ++ expected

end Document

end TenantForest
