import TenantForest.Number.Binary64

/-!
# The shortest decimal of a double

A double is printed as the shortest decimal that reads back to it. Every real number
strictly between the double and its neighbours' midpoints reads back to it (the
midpoints themselves too when the significand is even, since ties go to even), so the
task is to find, in that interval, the decimal `d · 10^k` with the fewest digits, and
among those the one nearest to the double itself (ties to the even `d`).

Work in units of `2^(exponent - 2)`: the double is `V = 4m`, the upper midpoint
`H = 4m + 2`, and the lower midpoint `L = 4m - 2`, or `4m - 1` when `m = 2^52` sits on a
power of two whose lower neighbour is twice as close. For a decimal exponent `k` the
admissible `d` form the integer interval `[dlo, dhi]`; the largest `k` for which it is
non-empty gives the fewest digits. The search starts from an upper bound on the decimal
magnitude and walks down, which takes at most about twenty steps.

`render` writes the result the way JSON writers of doubles commonly do: plain notation
with a `.0` for integral values up to sixteen digits, `0.000ddd` down to `1e-5`, and
`d.ddde±x` outside that range. `quote` is the same layout with the exponent written the
way diagnostics quote a double: its sign always present (`1.8446744073709552e+19`,
`1e-7`).
-/

namespace TenantForest

namespace Binary64

/-- The scaled boundaries of the rounding interval of `m · 2^e` (`m > 0`), in units of
`2^(e - 2)`: lower midpoint, the value, upper midpoint. -/
def interval (m : Nat) (e : Int) : Nat × Nat × Nat :=
  let low := if m = Nat.pow 2 52 ∧ e > minExponent then 4 * m - 1 else 4 * m - 2
  (low, 4 * m, 4 * m + 2)

/-- Ceiling division of naturals. -/
def ceilDiv (a b : Nat) : Nat := (a + b - 1) / b

/-- For the decimal exponent `k`, the multipliers `d` with `d · 10^k` inside the rounding
interval of `m · 2^e`, as a pair `(dlo, dhi)` (empty when `dlo > dhi`), and the `d`
nearest to the value itself. -/
def candidates (m : Nat) (e k : Int) : Nat × Nat × Nat :=
  let (low, value, high) := interval m e
  -- Both sides scaled by `10^max(-k,0) · 2^max(e-2,0)` and `10^max(k,0) · 2^max(2-e,0)`.
  let xScale := Nat.pow 10 (-k).toNat * Nat.pow 2 (e - 2).toNat
  let dScale := Nat.pow 10 k.toNat * Nat.pow 2 (2 - e).toNat
  let inclusive := m % 2 == 0
  let lo := if inclusive then ceilDiv (low * xScale) dScale else low * xScale / dScale + 1
  let hi := if inclusive then high * xScale / dScale else ceilDiv (high * xScale) dScale - 1
  let q := value * xScale / dScale
  let r := value * xScale % dScale
  let near := if 2 * r < dScale then q else if 2 * r > dScale then q + 1
    else if q % 2 == 0 then q else q + 1
  (lo, hi, min hi (max lo near))

/-- Walks `k` down from `k`, at most `fuel` steps, to the first exponent with a
candidate; returns that candidate and exponent. -/
def search (m : Nat) (e : Int) : Nat → Int → Nat × Int
  | 0, k => ((candidates m e k).2.2, k)
  | fuel + 1, k =>
    let (lo, hi, near) := candidates m e k
    if lo ≤ hi then (near, k) else search m e fuel (k - 1)

/-- An exponent `k` with `10^k` above the double's rounding interval: from the bit length
`log2 m + 1 + e`, times a value slightly above `log10 2`, plus two. -/
def startExponent (m : Nat) (e : Int) : Int :=
  ((Nat.log2 m : Int) + 1 + e) * 30103 / 100000 + 2

/-- The shortest decimal `(d, k)` of the positive double `m · 2^e`: `d · 10^k` reads back
to it, and `d` has no trailing zero. -/
def shortest (m : Nat) (e : Int) : Nat × Int :=
  search m e 64 (startExponent m e)

/-! ## Writing -/

/-- The decimal digits of `n`. -/
def digitsOf (n : Nat) : List Char := Nat.toDigits 10 n

/-- `n` zeros. -/
def zeros (n : Nat) : List Char := List.replicate n '0'

/-- The decimal exponent as written after `e`: a minus sign when negative, no plus. -/
def exponentText (x : Int) : List Char :=
  if x < 0 then '-' :: digitsOf x.natAbs else digitsOf x.natAbs

/-- The decimal exponent as diagnostics write it: always signed. -/
def signedExponentText (x : Int) : List Char :=
  (if x < 0 then '-' else '+') :: digitsOf x.natAbs

/-- The text of the positive decimal `d · 10^k`, following the layout described above,
with `exp` writing the exponent of the scientific forms. -/
def layoutWith (exp : Int → List Char) (d : Nat) (k : Int) : List Char :=
  let ds := digitsOf d
  let len : Int := ds.length
  let point := len + k
  if 0 ≤ k ∧ point ≤ 16 then ds ++ zeros k.toNat ++ ['.', '0']
  else if 0 < point ∧ point ≤ 16 then
    ds.take point.toNat ++ '.' :: ds.drop point.toNat
  else if -5 < point ∧ point ≤ 0 then
    ['0', '.'] ++ zeros (-point).toNat ++ ds
  else if ds.length = 1 then ds ++ 'e' :: exp (point - 1)
  else (ds.take 1 ++ '.' :: ds.drop 1) ++ 'e' :: exp (point - 1)

/-- The layout of JSON output. -/
def layout (d : Nat) (k : Int) : List Char := layoutWith exponentText d k

/-- A double written with a given layout: its sign, then the layout of its shortest
decimal; zero is `0.0`. -/
def renderWith (lay : Nat → Int → List Char) (x : Binary64) : String :=
  let sign := if x.negative then ['-'] else []
  if x.significand = 0 then String.ofList (sign ++ ['0', '.', '0'])
  else
    let (d, k) := shortest x.significand x.exponent
    String.ofList (sign ++ lay d k)

/-- The text of a double in JSON output. -/
def render (x : Binary64) : String := renderWith layout x

/-- The text of a double as a diagnostic quotes it. -/
def quote (x : Binary64) : String := renderWith (layoutWith signedExponentText) x

end Binary64

end TenantForest
