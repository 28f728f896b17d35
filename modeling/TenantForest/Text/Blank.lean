/-!
# Blanks, trimming and searching in text

Names are compared after trimming. A blank is any code point with the Unicode
`White_Space` property (25 of them, from the ASCII tab to the ideographic space); the
zero-width joiner and the byte-order mark are not blanks.

Texts are handled as lists of characters, which keeps the definitions structural and the
lemmas about them plain list lemmas.
-/

namespace TenantForest

namespace Text

/-- The Unicode `White_Space` property. -/
def isBlank (c : Char) : Bool :=
  let n := c.toNat
  (9 ≤ n && n ≤ 13) || n == 32 || n == 0x85 || n == 0xA0 || n == 0x1680 ||
    (0x2000 ≤ n && n ≤ 0x200A) || n == 0x2028 || n == 0x2029 || n == 0x202F ||
    n == 0x205F || n == 0x3000

/-- The characters left after dropping blanks from both ends. -/
def trimChars (cs : List Char) : List Char :=
  ((cs.dropWhile isBlank).reverse.dropWhile isBlank).reverse

/-- `s` without leading and trailing blanks. -/
def trim (s : String) : String := String.ofList (trimChars s.toList)

/-- Whether `needle` occurs as a contiguous piece of `hay`. The empty needle occurs in
every text. -/
def occursIn (needle : List Char) : List Char → Bool
  | [] => needle.isEmpty
  | c :: cs => needle.isPrefixOf (c :: cs) || occursIn needle cs

/-- Whether the text `needle` occurs in the text `hay`. -/
def contains (hay needle : String) : Bool := occursIn needle.toList hay.toList

/-- The pieces of `cs` between the occurrences of a non-empty separator `s :: ss`,
scanning from the left and resuming after each occurrence. -/
def splitNonempty (s : Char) (ss : List Char) : List Char → List Char → List (List Char)
  | [], piece => [piece.reverse]
  | c :: cs, piece =>
    if (s :: ss).isPrefixOf (c :: cs) then
      piece.reverse :: splitNonempty s ss (cs.drop ss.length) []
    else splitNonempty s ss cs (c :: piece)
termination_by cs => cs.length
decreasing_by
  all_goals simp only [List.length_cons, List.length_drop]
  all_goals omega

/-- The pieces of `cs` between the occurrences of `sep`. An empty separator occurs
before every character and at the end, so it yields an empty piece, every character
on its own, and another empty piece. -/
def splitOn (sep : List Char) (cs : List Char) : List (List Char) :=
  match sep with
  | [] => [] :: cs.map (fun c => [c]) ++ [[]]
  | s :: ss => splitNonempty s ss cs []

/-- The text `path` cut at every occurrence of `sep`. -/
def segments (path sep : String) : List String :=
  (splitOn sep.toList path.toList).map String.ofList

/-- Character lists compared position by position; a proper prefix comes first. -/
def compareChars : List Char → List Char → Ordering
  | [], [] => .eq
  | [], _ :: _ => .lt
  | _ :: _, [] => .gt
  | a :: as, b :: bs =>
    match compare a.toNat b.toNat with
    | .eq => compareChars as bs
    | o => o

/-- Texts compared character by character, that is by code point, which is also the
order of their UTF-8 bytes. -/
def compareText (a b : String) : Ordering := compareChars a.toList b.toList

/-- Lists of texts compared element by element; a proper prefix comes first. -/
def compareTexts : List String → List String → Ordering
  | [], [] => .eq
  | [], _ :: _ => .lt
  | _ :: _, [] => .gt
  | a :: as, b :: bs =>
    match compareText a b with
    | .eq => compareTexts as bs
    | o => o

/-- The value of decimal digits read left to right after `acc`; `none` at the first
character that is not an ASCII digit. -/
def digitsValue (acc : Nat) : List Char → Option Nat
  | [] => some acc
  | c :: cs => if c.isDigit then digitsValue (10 * acc + (c.toNat - 48)) cs else none

/-- A natural number written as a non-empty run of ASCII digits and nothing else: no
sign, no blank and no digit separator. -/
def natural? (s : String) : Option Nat :=
  match s.toList with
  | [] => none
  | cs => digitsValue 0 cs

end Text

end TenantForest
