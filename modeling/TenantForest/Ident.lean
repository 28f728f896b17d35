/-!
# Identifiers

Units, tenants and actors are all named by 128-bit identifiers, written in the
familiar `8-4-4-4-12` hexadecimal form (`00000000-0000-4000-8000-00000000002a`).

An identifier is kept as the natural number its 32 hex digits spell, so the order of
identifiers is the order of numbers. Because every identifier is written with exactly
32 lowercase digits, this is also the byte order of the written forms, which is the
order ties are broken by when units are sorted.

New units draw their identifiers from a counter (`Ident.serial`): the `n`-th unit ever
stored gets the version-4 shaped identifier whose low 48 bits are `n`. Identifiers
therefore increase in creation order, and two units never share one.
-/

namespace TenantForest

/-- A 128-bit identifier, stored as the number its hexadecimal digits spell. -/
structure Ident where
  /-- The value of the identifier; the constructors below keep it below `2 ^ 128`. -/
  bits : Nat
  deriving DecidableEq, Repr, Hashable, Inhabited

namespace Ident

/-- Identifiers are ordered as the numbers they spell. -/
instance : Ord Ident := ⟨fun a b => compare a.bits b.bits⟩

instance : LT Ident := ⟨fun a b => a.bits < b.bits⟩

instance : LE Ident := ⟨fun a b => a.bits ≤ b.bits⟩

instance (a b : Ident) : Decidable (a < b) := inferInstanceAs (Decidable (a.bits < b.bits))

instance (a b : Ident) : Decidable (a ≤ b) := inferInstanceAs (Decidable (a.bits ≤ b.bits))

/-- The identifier spelled by the low 128 bits of `n`. -/
def ofNat (n : Nat) : Ident := ⟨n % Nat.pow 2 128⟩

/-- The identifier given to the `n`-th stored unit: `00000000-0000-4000-8000-` followed by
`n` in twelve hexadecimal digits. The counter is added, not masked, so distinct counts
give distinct, increasing identifiers; every count a store can reach in practice is
below `2 ^ 48`, where this is exactly the twelve-digit form. -/
def serial (n : Nat) : Ident := ⟨0x4000 * Nat.pow 2 64 + 0x8000 * Nat.pow 2 48 + n⟩

/-! ## Writing -/

/-- The lowercase hexadecimal digit of a value below sixteen. -/
def hexChar (d : Nat) : Char :=
  if d < 10 then Char.ofNat (48 + d) else Char.ofNat (87 + d)

/-- The `width` lowest hexadecimal digits of `n`, most significant first. -/
def hexDigits : Nat → Nat → List Char
  | 0, _ => []
  | width + 1, n => hexDigits width (n / 16) ++ [hexChar (n % 16)]

/-- The 32 digits cut into groups of 8, 4, 4, 4 and 12 joined by hyphens. -/
def groups (ds : List Char) : List Char :=
  ds.take 8 ++ ['-'] ++ (ds.drop 8).take 4 ++ ['-'] ++ (ds.drop 12).take 4 ++ ['-'] ++
    (ds.drop 16).take 4 ++ ['-'] ++ ds.drop 20

/-- The hyphenated lowercase form, `xxxxxxxx-xxxx-xxxx-xxxx-xxxxxxxxxxxx`. -/
def text (i : Ident) : String := String.ofList (groups (hexDigits 32 i.bits))

instance : ToString Ident := ⟨text⟩

/-! ## Reading

The accepted forms are the 32 bare digits, the hyphenated form, the hyphenated form in
braces, and the hyphenated form behind `urn:uuid:`, whose letters may be of either case;
digits may be of either case too. Nothing else is accepted: no blanks, no braces around
the bare digits, no braces behind the prefix. -/

/-- The value of a hexadecimal digit of either case. -/
def hexValue (c : Char) : Option Nat :=
  if '0' ≤ c ∧ c ≤ '9' then some (c.toNat - 48)
  else if 'a' ≤ c ∧ c ≤ 'f' then some (c.toNat - 87)
  else if 'A' ≤ c ∧ c ≤ 'F' then some (c.toNat - 55)
  else none

/-- The number spelled by a list of hexadecimal digits, most significant first. -/
def readHex : List Char → Nat → Option Nat
  | [], acc => some acc
  | c :: cs, acc => (hexValue c).bind fun d => readHex cs (16 * acc + d)

/-- The digits of a hyphenated form, when the hyphens stand where they must. -/
def ungroup (cs : List Char) : Option (List Char) :=
  if cs.length = 36 ∧ cs[8]? = some '-' ∧ cs[13]? = some '-' ∧ cs[18]? = some '-' ∧
      cs[23]? = some '-' then
    some (cs.take 8 ++ (cs.drop 9).take 4 ++ (cs.drop 14).take 4 ++ (cs.drop 19).take 4 ++
      cs.drop 24)
  else none

/-- The `urn:uuid:` prefix, compared with ASCII letters folded to lowercase. -/
def isUrnPrefix (cs : List Char) : Bool :=
  cs.map Char.toLower == "urn:uuid:".toList

/-- The 32 digits of any accepted written form. -/
def digitsOf (cs : List Char) : Option (List Char) :=
  if cs.length = 32 then some cs
  else if cs.length = 36 then ungroup cs
  else if cs.length = 38 ∧ cs.head? = some '{' ∧ cs.getLast? = some '}' then
    ungroup ((cs.drop 1).take 36)
  else if cs.length = 45 ∧ isUrnPrefix (cs.take 9) then ungroup (cs.drop 9)
  else none

/-- Reads an identifier from any accepted written form. -/
def parse (s : String) : Option Ident :=
  (digitsOf s.toList).bind fun ds => (readHex ds 0).map Ident.mk

end Ident

end TenantForest
