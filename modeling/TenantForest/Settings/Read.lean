import TenantForest.Settings
import TenantForest.Document.Describe

/-!
# Reading settings from a document

Settings are written as a record with the keys `path_separator`, `max_depth`,
`max_name_length`, `cascade_batch_size` and `name_uniqueness`, any of which may be left
out to keep its default; other keys are ignored. They may also be written as a list of
the five values in that order, where a short list keeps the defaults of the values it
leaves out and a long one is refused.

A value that is present must have its type: `null` is not a way of leaving a value
out. The separator is a string, the depth a 32-bit signed integer, the two sizes
unsigned 64-bit integers, and the policy the name of one of its variants, either as a
string or as a record with that single key whose value is `null`.

The diagnostics name what was found (`Document.describe`) and what was expected. A
record's keys are read in sorted order, so of two faulty values the one whose key sorts
first is reported; a list's values are read in order.
-/

namespace TenantForest

namespace Settings

/-- The diagnostic for a value of the right kind out of the expected range. -/
def invalidValue (found : Document) (expected : String) : String :=
  "invalid value: " ++ found.describe ++ ", expected " ++ expected

/-- A string value. -/
def readText (d : Document) : Except String String :=
  match d with
  | .text s => .ok s
  | _ => .error (d.invalidType "a string")

/-- An integer value between `lo` and `hi`, called `expected` in diagnostics. -/
def readBounded (expected : String) (lo hi : Int) (d : Document) : Except String Int :=
  match d with
  | .int i => if lo ≤ i ∧ i ≤ hi then .ok i else .error (invalidValue d expected)
  | _ => .error (d.invalidType expected)

/-- A 32-bit signed integer. -/
def readI32 (d : Document) : Except String Int :=
  readBounded "i32" (-(Int.pow 2 31)) (Int.pow 2 31 - 1) d

/-- An unsigned 64-bit integer. -/
def readSize (d : Document) : Except String Nat :=
  (readBounded "usize" 0 (Int.pow 2 64 - 1) d).map Int.toNat

/-- The diagnostic for a policy name that is not one. -/
def unknownPolicy (s : String) : String :=
  "unknown variant \x60" ++ s ++
    "\x60, expected one of \x60global\x60, \x60tenant\x60, \x60siblings\x60, \x60none\x60"

/-- A policy named by its variant. -/
def policyNamed (s : String) : Except String NamePolicy :=
  match NamePolicy.ofName? s with
  | some p => .ok p
  | none => .error (unknownPolicy s)

/-- A policy: its name as a string, or a record whose single key is its name and whose
value is `null`. -/
def readPolicy (d : Document) : Except String NamePolicy :=
  match d with
  | .text s => policyNamed s
  | .record [(k, v)] => do
    let p ← policyNamed k
    match v with
    | .null => pure p
    | _ => throw (v.invalidType "unit")
  | .record _ => .error (invalidValue d "map with a single key")
  | _ => .error (d.invalidType "string or map")

/-- The value a record holds for a key, if any. -/
def valueAt (fields : List (String × Document)) (k : String) : Option Document :=
  (fields.find? (fun f => f.1 == k)).map Prod.snd

/-- A value read when present, the default otherwise. -/
def readOr {α : Type} (read : Document → Except String α) (default : α) :
    Option Document → Except String α
  | some d => read d
  | none => .ok default

/-- Settings written as a record, its keys read in sorted order. -/
def ofFields (fields : List (String × Document)) : Except String Settings := do
  let d : Settings := {}
  let batch ← readOr readSize d.cascadeBatch (valueAt fields "cascade_batch_size")
  let depth ← readOr readI32 d.maxDepth (valueAt fields "max_depth")
  let length ← readOr readSize d.maxNameLength (valueAt fields "max_name_length")
  let policy ← readOr readPolicy d.policy (valueAt fields "name_uniqueness")
  let separator ← readOr readText d.separator (valueAt fields "path_separator")
  pure { separator, maxDepth := depth, maxNameLength := length, cascadeBatch := batch, policy }

/-- Settings written as a list of at most five values in field order. -/
def ofItems (items : List Document) : Except String Settings := do
  let d : Settings := {}
  let separator ← readOr readText d.separator items[0]?
  let depth ← readOr readI32 d.maxDepth items[1]?
  let length ← readOr readSize d.maxNameLength items[2]?
  let batch ← readOr readSize d.cascadeBatch items[3]?
  let policy ← readOr readPolicy d.policy items[4]?
  if items.length > 5 then
    throw ("invalid length " ++ toString items.length ++ ", expected fewer elements in array")
  pure { separator, maxDepth := depth, maxNameLength := length, cascadeBatch := batch, policy }

/-- Reads settings from a record or a list, or says why they cannot be read. -/
def read (d : Document) : Except String Settings :=
  match d with
  | .record fields => ofFields fields
  | .list items => ofItems items
  | _ => .error (d.invalidType "struct HierarchyConfig")

end Settings

end TenantForest
