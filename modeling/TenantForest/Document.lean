import TenantForest.Ident
import TenantForest.Number.Shortest

/-!
# Documents

A unit carries free-form metadata: a JSON document, which the forest stores and hands
back unchanged. Only one property of it matters to the forest's rules, namely whether
it is an object (`Document.isRecord`); everything else is echoed.

Numbers are 64-bit integers or doubles (`TenantForest.Document.Read` says which literal
becomes which). Written back, a double always shows a fraction or an exponent (`2.0`,
`1.5`, `1e300`), so the two kinds stay apart.

The same type also serves as the value every reply of the forest is written as, so this
module owns the one JSON writer of the project (`Document.render`).
-/

namespace TenantForest

/-- A JSON value whose numbers are 64-bit integers or doubles. -/
inductive Document where
  | null
  | bool (value : Bool)
  | int (value : Int)
  | real (value : Binary64)
  | text (value : String)
  | list (items : List Document)
  | record (fields : List (String × Document))
  deriving Repr, Inhabited

namespace Document

/-- Whether the document is an object. -/
def isRecord : Document → Bool
  | .record _ => true
  | _ => false

/-- The document of an optional value, `null` when absent. -/
def ofOption {α : Type} (f : α → Document) : Option α → Document
  | some a => f a
  | none => .null

/-! ## Writing -/

/-- The JSON escape of one character: quote, backslash and control characters are
escaped, everything else is written as itself. -/
def escapeChar (c : Char) : List Char :=
  if c = '"' then ['\\', '"']
  else if c = '\\' then ['\\', '\\']
  else if c.toNat = 8 then ['\\', 'b']
  else if c.toNat = 9 then ['\\', 't']
  else if c.toNat = 10 then ['\\', 'n']
  else if c.toNat = 12 then ['\\', 'f']
  else if c.toNat = 13 then ['\\', 'r']
  else if c.toNat < 32 then
    ['\\', 'u', '0', '0', Ident.hexChar (c.toNat / 16), Ident.hexChar (c.toNat % 16)]
  else [c]

/-- A text as a JSON string literal. -/
def quote (s : String) : String :=
  String.ofList ('"' :: s.toList.flatMap escapeChar ++ ['"'])

mutual

/-- The JSON text of a document. -/
def render : Document → String
  | .null => "null"
  | .bool b => if b then "true" else "false"
  | .int i => toString i
  | .real x => x.render
  | .text s => quote s
  | .list items => "[" ++ renderItems items ++ "]"
  | .record fields => "\x7b" ++ renderFields fields ++ "\x7d"

/-- The elements of an array, separated by commas. -/
def renderItems : List Document → String
  | [] => ""
  | [d] => render d
  | d :: ds => render d ++ "," ++ renderItems ds

/-- The members of an object, separated by commas. -/
def renderFields : List (String × Document) → String
  | [] => ""
  | [(k, d)] => quote k ++ ":" ++ render d
  | (k, d) :: fs => quote k ++ ":" ++ render d ++ "," ++ renderFields fs

end

end Document

end TenantForest
