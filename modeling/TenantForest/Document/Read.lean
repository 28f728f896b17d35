import TenantForest.Document

/-!
# Reading documents

`Document.read` reads the JSON text of a document: objects, arrays, strings with their
escapes (a character outside the basic plane written as a surrogate pair), numbers,
`true`, `false` and `null`, with blanks (space, tab, line feed, carriage return) between
tokens. Containers may nest 127 deep. In an object a repeated key keeps its last value.

Numbers are read the way the usual machine reader of JSON does it, which is not always
the double nearest to the literal:

* digits are gathered into a 64-bit significand; once one more digit would overflow it,
  further digits are dropped (integer digits raise the decimal exponent instead);
* a literal without fraction and exponent is an integer when its significand fits (for a
  negative literal: when its negation fits a signed 64-bit integer; `-0` is the double
  negative zero);
* any other literal is computed in doubles: the significand rounded to a double, then
  multiplied or divided by the double nearest to `10^k` for `k ≤ 308`, dividing by `1e308`
  first while the exponent is below `-308`. A result that overflows is refused.

Each function takes a fuel that every call spends: the text is read once from left to
right, so fuel proportional to its length always suffices.
-/

namespace TenantForest

namespace Read

/-- A reader: consumes a prefix of the text, returning a value and the rest. -/
abbrev Step (α : Type) := List Char → Except String (α × List Char)

/-- The largest 64-bit unsigned integer. -/
def u64Max : Nat := Nat.pow 2 64 - 1

/-- Whether `sig * 10 + d` would exceed the largest 64-bit unsigned integer. -/
def wouldOverflow (sig d : Nat) : Bool :=
  sig ≥ u64Max / 10 && (sig > u64Max / 10 || d > u64Max % 10)

/-- Whether `x * 10 + d` would exceed the largest 32-bit signed integer. -/
def expWouldOverflow (x d : Nat) : Bool :=
  let top := Nat.pow 2 31 - 1
  x ≥ top / 10 && (x > top / 10 || d > top % 10)

/-- The value of a decimal digit. -/
def digit? (c : Char) : Option Nat :=
  if '0' ≤ c ∧ c ≤ '9' then some (c.toNat - 48) else none

/-- JSON blanks: space, tab, line feed, carriage return. -/
def isSpace (c : Char) : Bool :=
  c = ' ' || c = '\t' || c = '\n' || c = '\r'

/-- The double nearest to `10^k`. -/
def pow10 (k : Nat) : Binary64 := Binary64.ofDecimal false 1 k

/-- The double of `±sig · 10^exp` as computed in doubles: the significand as a double,
scaled by one power of ten from the table, or first brought into the table's range by
dividing by `1e308` (at most a few times, since the value then reaches zero). -/
def scale (positive : Bool) (sig : Nat) (exp : Int) : Except String Binary64 :=
  let rec go : Nat → Binary64 → Int → Except String Binary64
    | 0, f, _ => .ok f
    | fuel + 1, f, e =>
      if e.natAbs ≤ 308 then
        if 0 ≤ e then
          let g := f.mul (pow10 e.toNat)
          if g.overflowed then .error "number out of range" else .ok g
        else .ok (f.div (pow10 e.natAbs))
      else if f.isZero then .ok f
      else if 0 ≤ e then .error "number out of range"
      else go fuel (f.div (pow10 308)) (e + 308)
  (go 8 (Binary64.ofNat sig) exp).map fun f => if positive then f else f.neg

/-- The remaining digits of an exponent, `x` so far. -/
def exponentDigits (positive : Bool) (zeroSig : Bool) (positiveExp : Bool) (sig : Nat)
    (start : Int) : Nat → Step Binary64
  | x, c :: cs =>
    match digit? c with
    | some d =>
      if expWouldOverflow x d then
        -- the exponent no longer fits: zero, or out of range for a positive exponent
        if !zeroSig && positiveExp then .error "number out of range"
        else .ok (if positive then Binary64.zero else Binary64.zero.neg, (c :: cs).dropWhile (fun c => (digit? c).isSome))
      else exponentDigits positive zeroSig positiveExp sig start (x * 10 + d) cs
    | none => (scale positive sig (if positiveExp then start + x else start - x)).map (·, c :: cs)
  | x, [] => (scale positive sig (if positiveExp then start + x else start - x)).map (·, [])

/-- An exponent, after its `e` or `E`. -/
def exponent (positive : Bool) (sig : Nat) (start : Int) : Step Binary64
  | cs =>
    let (positiveExp, rest) := match cs with
      | '+' :: r => (true, r)
      | '-' :: r => (false, r)
      | r => (true, r)
    match rest with
    | c :: cs' =>
      match digit? c with
      | some d => exponentDigits positive (sig == 0) positiveExp sig start d cs'
      | none => .error "invalid number"
    | [] => .error "EOF while parsing a value"

/-- What follows the gathered digits of a number that is already a double: an exponent,
or the end of the number. -/
def finish (positive : Bool) (sig : Nat) (exp : Int) : Step Binary64
  | 'e' :: cs => exponent positive sig exp cs
  | 'E' :: cs => exponent positive sig exp cs
  | cs => (scale positive sig exp).map (·, cs)

/-- Fraction digits after the point; `count` of them gathered so far. -/
def fraction (positive : Bool) (sig : Nat) (exp : Int) (count : Nat) : Step Binary64
  | c :: cs =>
    match digit? c with
    | some d =>
      if wouldOverflow sig d then
        finish positive sig exp ((c :: cs).dropWhile (fun c => (digit? c).isSome))
      else fraction positive (sig * 10 + d) (exp - 1) (count + 1) cs
    | none =>
      if count = 0 then .error "invalid number" else finish positive sig exp (c :: cs)
  | [] => if count = 0 then .error "EOF while parsing a value" else finish positive sig exp []

/-- Integer digits beyond what the significand holds: each raises the exponent. -/
def longInteger (positive : Bool) (sig : Nat) (exp : Int) : Step Binary64
  | c :: cs =>
    match digit? c with
    | some _ => longInteger positive sig (exp + 1) cs
    | none =>
      if c = '.' then fraction positive sig exp 0 cs
      else finish positive sig exp (c :: cs)
  | [] => finish positive sig exp []

/-- The document of an integer literal without fraction or exponent. -/
def integer (positive : Bool) (sig : Nat) : Document :=
  if positive then .int sig
  else if sig = 0 ∨ sig > Nat.pow 2 63 then .real (Binary64.ofNat sig).neg
  else .int (-(sig : Int))

/-- What follows the integer digits `sig`: a fraction, an exponent, or nothing. -/
def afterInteger (positive : Bool) (sig : Nat) : Step Document
  | '.' :: cs => (fraction positive sig 0 0 cs).map fun (x, r) => (.real x, r)
  | 'e' :: cs => (exponent positive sig 0 cs).map fun (x, r) => (.real x, r)
  | 'E' :: cs => (exponent positive sig 0 cs).map fun (x, r) => (.real x, r)
  | cs => .ok (integer positive sig, cs)

/-- Integer digits, `sig` so far. -/
def integerDigits (positive : Bool) (sig : Nat) : Step Document
  | c :: cs =>
    match digit? c with
    | some d =>
      if wouldOverflow sig d then
        (longInteger positive sig 0 (c :: cs)).map fun (x, r) => (.real x, r)
      else integerDigits positive (sig * 10 + d) cs
    | none => afterInteger positive sig (c :: cs)
  | [] => afterInteger positive sig []

/-- A number, after its optional minus sign. -/
def number (positive : Bool) : Step Document
  | '0' :: cs =>
    match cs with
    | c :: _ => if (digit? c).isSome then .error "invalid number" else afterInteger positive 0 cs
    | [] => afterInteger positive 0 []
  | c :: cs =>
    match digit? c with
    | some d => integerDigits positive d cs
    | none => .error "invalid number"
  | [] => .error "EOF while parsing a value"

/-! ## Strings -/

/-- The value of a hexadecimal digit. -/
def hex? (c : Char) : Option Nat := Ident.hexValue c

/-- The value of four hexadecimal digits. -/
def hex4 (a b c d : Char) : Option Nat := do
  pure ((((← hex? a) * 16 + (← hex? b)) * 16 + (← hex? c)) * 16 + (← hex? d))

/-- The characters of a string up to its closing quote, `acc` so far (reversed). -/
def stringBody : List Char → List Char → Except String (String × List Char)
  | [], _ => .error "EOF while parsing a string"
  | '"' :: cs, acc => .ok (String.ofList acc.reverse, cs)
  | '\\' :: '"' :: cs, acc => stringBody cs ('"' :: acc)
  | '\\' :: '\\' :: cs, acc => stringBody cs ('\\' :: acc)
  | '\\' :: '/' :: cs, acc => stringBody cs ('/' :: acc)
  | '\\' :: 'b' :: cs, acc => stringBody cs (Char.ofNat 8 :: acc)
  | '\\' :: 'f' :: cs, acc => stringBody cs (Char.ofNat 12 :: acc)
  | '\\' :: 'n' :: cs, acc => stringBody cs ('\n' :: acc)
  | '\\' :: 'r' :: cs, acc => stringBody cs ('\r' :: acc)
  | '\\' :: 't' :: cs, acc => stringBody cs ('\t' :: acc)
  | '\\' :: 'u' :: a :: b :: c :: d :: cs, acc =>
    match hex4 a b c d with
    | none => .error "invalid escape"
    | some n =>
      if 0xDC00 ≤ n ∧ n ≤ 0xDFFF then .error "lone leading surrogate in hex escape"
      else if 0xD800 ≤ n ∧ n ≤ 0xDBFF then
        match cs with
        | '\\' :: 'u' :: e :: f :: g :: h :: rest =>
          match hex4 e f g h with
          | none => .error "invalid escape"
          | some m =>
            if 0xDC00 ≤ m ∧ m ≤ 0xDFFF then
              stringBody rest (Char.ofNat (0x10000 + (n - 0xD800) * 0x400 + (m - 0xDC00)) :: acc)
            else .error "lone leading surrogate in hex escape"
        | _ => .error "unexpected end of hex escape"
      else stringBody cs (Char.ofNat n :: acc)
  | '\\' :: _, _ => .error "invalid escape"
  | c :: cs, acc =>
    if c.toNat < 0x20 then .error "control character (\\u0000-\\u001F) found while parsing a string"
    else stringBody cs (c :: acc)

/-! ## Values -/

/-- The fields of an object with `(k, v)` set: a repeated key keeps its place and takes
the new value. -/
def setField (fields : List (String × Document)) (k : String) (v : Document) :
    List (String × Document) :=
  if fields.any (fun f => f.1 == k) then fields.map (fun f => if f.1 == k then (k, v) else f)
  else fields ++ [(k, v)]

/-- The text after leading blanks. -/
def skip (cs : List Char) : List Char := cs.dropWhile isSpace

/-- The text after `word`, when it starts with it. -/
def keyword (word : String) (cs : List Char) : Option (List Char) :=
  if word.toList.isPrefixOf cs then some (cs.drop word.length) else none

mutual

/-- A value after blanks; `depth` is how many more containers may open. -/
def value : Nat → Nat → Step Document
  | 0, _, _ => .error "recursion limit exceeded"
  | fuel + 1, depth, cs =>
    match skip cs with
    | '{' :: rest =>
      if depth ≤ 1 then .error "recursion limit exceeded"
      else
        match skip rest with
        | '}' :: r => .ok (.record [], r)
        | r => (fields fuel (depth - 1) [] r).map fun (fs, r') => (.record fs, r')
    | '[' :: rest =>
      if depth ≤ 1 then .error "recursion limit exceeded"
      else
        match skip rest with
        | ']' :: r => .ok (.list [], r)
        | r => (items fuel (depth - 1) [] r).map fun (xs, r') => (.list xs.reverse, r')
    | '"' :: rest => (stringBody rest []).map fun (s, r) => (.text s, r)
    | '-' :: rest => number false rest
    | rest@(c :: _) =>
      if (digit? c).isSome then number true rest
      else match keyword "true" rest with
        | some r => .ok (.bool true, r)
        | none => match keyword "false" rest with
          | some r => .ok (.bool false, r)
          | none => match keyword "null" rest with
            | some r => .ok (.null, r)
            | none => .error "expected value"
    | [] => .error "EOF while parsing a value"

/-- The elements of an array from the first one on, `acc` so far (reversed). -/
def items : Nat → Nat → List Document → Step (List Document)
  | 0, _, _, _ => .error "recursion limit exceeded"
  | fuel + 1, depth, acc, cs =>
    match value fuel depth cs with
    | .error e => .error e
    | .ok (v, r) =>
      match skip r with
      | ',' :: r' => items fuel depth (v :: acc) r'
      | ']' :: r' => .ok (v :: acc, r')
      | [] => .error "EOF while parsing a list"
      | _ => .error "expected a comma or a closing bracket"

/-- The members of an object from the first one on, `acc` so far. -/
def fields : Nat → Nat → List (String × Document) → Step (List (String × Document))
  | 0, _, _, _ => .error "recursion limit exceeded"
  | fuel + 1, depth, acc, cs =>
    match skip cs with
    | '"' :: r =>
      match stringBody r [] with
      | .error e => .error e
      | .ok (k, r1) =>
        match skip r1 with
        | ':' :: r2 =>
          match value fuel depth r2 with
          | .error e => .error e
          | .ok (v, r3) =>
            match skip r3 with
            | ',' :: r4 => fields fuel depth (setField acc k v) r4
            | '}' :: r4 => .ok (setField acc k v, r4)
            | [] => .error "EOF while parsing an object"
            | _ => .error "expected a comma or a closing brace"
        | [] => .error "EOF while parsing an object"
        | _ => .error "expected a colon"
    | [] => .error "EOF while parsing an object"
    | _ => .error "key must be a string"

end

end Read

namespace Document

/-- Reads a whole text as one document; only blanks may follow it. -/
def read (text : String) : Except String Document :=
  let cs := text.toList
  match Read.value (2 * cs.length + 2) 128 cs with
  | .error e => .error e
  | .ok (d, rest) => if (Read.skip rest).isEmpty then .ok d else .error "trailing characters"

end Document

end TenantForest
