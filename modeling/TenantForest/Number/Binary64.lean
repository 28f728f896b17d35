/-!
# Binary64 numbers, rounded exactly

Two places need IEEE 754 double precision: metadata documents keep their fractional
numbers as doubles, and the statistics report the mean level of each kind as the double
nearest to `sum / count`. Both are computed here with exact integer arithmetic, not with
the machine's floating point, so the results are definitions one can reason about.

A finite double is `±significand · 2^exponent` with a 53-bit significand. `round`
takes a positive fraction `num / den` to the nearest such value, ties going to the even
significand. Its steps:

1. guess the exponent from the bit lengths of `num` and `den`, so that the scaled
   quotient falls in `[2^51, 2^53)`; step down once if it fell below `2^52`;
2. never go below the smallest exponent `-1074` (gradual underflow);
3. divide, and round the quotient up when the remainder is more than half the divisor,
   or exactly half and the quotient is odd; a quotient that rounds up to `2^53` is
   renormalised to `2^52` with the next exponent.

Printing a double as the shortest decimal that reads back to it lives in
`TenantForest.Number.Shortest`.
-/

namespace TenantForest

/-- A finite double: `(-1)^negative · significand · 2^exponent`. Values built by `round`
have either `2^52 ≤ significand < 2^53`, or `exponent = -1074` (the subnormals and
zero). -/
structure Binary64 where
  /-- Whether the sign bit is set. -/
  negative : Bool
  /-- The integer significand. -/
  significand : Nat
  /-- The power of two the significand is scaled by. -/
  exponent : Int
  deriving DecidableEq, Repr, Inhabited

namespace Binary64

/-- The exponent of the smallest subnormal, `2^-1074`. -/
def minExponent : Int := -1074

/-- Positive zero. -/
def zero : Binary64 := ⟨false, 0, minExponent⟩

/-- `num · 2^(-e)` divided by `den`, as quotient, remainder and the divisor actually
used: for `e ≥ 0` the divisor is `den · 2^e`, otherwise the dividend is `num · 2^(-e)`. -/
def scaledDiv (num den : Nat) (e : Int) : Nat × Nat × Nat :=
  if 0 ≤ e then
    let d := den * Nat.pow 2 e.toNat
    (num / d, num % d, d)
  else
    let n := num * Nat.pow 2 (-e).toNat
    (n / den, n % den, den)

/-- The exponent at which `num / den` gets a 53-bit significand, but never below
`minExponent`. -/
def exponentFor (num den : Nat) : Int :=
  let guess : Int := (Nat.log2 num : Int) - (Nat.log2 den : Int) - 52
  let e := if (scaledDiv num den guess).1 < Nat.pow 2 52 then guess - 1 else guess
  max e minExponent

/-- The significand and exponent nearest to `num / den`, ties to the even significand;
`num` and `den` are positive. -/
def roundPositive (num den : Nat) : Nat × Int :=
  let e := exponentFor num den
  let (q, r, d) := scaledDiv num den e
  let up := 2 * r > d || (2 * r == d && q % 2 == 1)
  let q' := if up then q + 1 else q
  if q' == Nat.pow 2 53 then (Nat.pow 2 52, e + 1) else (q', e)

/-- The double nearest to `±num / den` (`den > 0`); a zero numerator gives a signed
zero. -/
def round (negative : Bool) (num den : Nat) : Binary64 :=
  if num = 0 ∨ den = 0 then ⟨negative, 0, minExponent⟩
  else
    let (m, e) := roundPositive num den
    ⟨negative, m, e⟩

/-- The double nearest to an integer. -/
def ofInt (i : Int) : Binary64 := round (i < 0) i.natAbs 1

/-- The double nearest to `digits · 10^exp10`, with the given sign. -/
def ofDecimal (negative : Bool) (digits : Nat) (exp10 : Int) : Binary64 :=
  if 0 ≤ exp10 then round negative (digits * Nat.pow 10 exp10.toNat) 1
  else round negative digits (Nat.pow 10 (-exp10).toNat)

/-- The double nearest to the quotient of two doubles. A zero divisor gives zero; the
statistics never divide by zero. -/
def div (a b : Binary64) : Binary64 :=
  let negative := a.negative != b.negative
  if b.significand = 0 then ⟨negative, 0, minExponent⟩
  else
    let shift := a.exponent - b.exponent
    if 0 ≤ shift then round negative (a.significand * Nat.pow 2 shift.toNat) b.significand
    else round negative a.significand (b.significand * Nat.pow 2 (-shift).toNat)

/-- The double nearest to the product of two doubles. -/
def mul (a b : Binary64) : Binary64 :=
  let negative := a.negative != b.negative
  let shift := a.exponent + b.exponent
  let m := a.significand * b.significand
  if 0 ≤ shift then round negative (m * Nat.pow 2 shift.toNat) 1
  else round negative m (Nat.pow 2 (-shift).toNat)

/-- The double nearest to a natural number. -/
def ofNat (n : Nat) : Binary64 := round false n 1

/-- The sign flipped. -/
def neg (x : Binary64) : Binary64 := { x with negative := !x.negative }

/-- Whether the value is zero (of either sign). -/
def isZero (x : Binary64) : Bool := x.significand == 0

/-- Whether rounding went past the largest finite double, `(2^53 - 1) · 2^971`: the
value a machine would hold as an infinity. -/
def overflowed (x : Binary64) : Bool := x.exponent > 971

end Binary64

end TenantForest
