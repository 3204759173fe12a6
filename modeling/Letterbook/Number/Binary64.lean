/-! Binary64 numbers as exact integers times powers of two. Ratios and decimals are rounded to
the nearest number, ties to the even one, in exact arithmetic; comparison is exact too. Nothing
here is computed with the machine's floating-point unit. -/
namespace Letterbook

/-- A finite number is `mant * 2 ^ exp` with the sign apart. Rounding keeps the canonical form:
`exp ≥ -1074`, `mant < 2 ^ 53`, and `mant ≥ 2 ^ 52` unless `exp = -1074`. -/
inductive Binary64
  | finite (neg : Bool) (mant : Nat) (exp : Int)
  | infinite (neg : Bool)
  | nan
  deriving DecidableEq, Repr, Inhabited

namespace Binary64

/-- A power of two. -/
def twoTo (k : Nat) : Nat := Nat.pow 2 k

/-- A power of ten. -/
def tenTo (k : Nat) : Nat := Nat.pow 10 k

/-- The least exponent: every number is a multiple of `2 ^ -1074`. -/
def minExp : Int := -1074

/-- The greatest exponent of a canonical mantissa. -/
def maxExp : Int := 971

def zero (neg : Bool) : Binary64 := .finite neg 0 minExp

/-- The ratio `num / den` counted in units of `2 ^ e`, as a ratio again. -/
def inUnits (num den : Nat) (e : Int) : Nat × Nat :=
  if e < 0 then (num * twoTo (-e).toNat, den) else (num, den * twoTo e.toNat)

/-- The exponent whose units make `num / den` a number of 53 bits, or the least exponent. -/
def exponentOf (num den : Nat) : Int :=
  let guess : Int := (Nat.log2 num : Int) - (Nat.log2 den : Int) - 52
  let scaled := inUnits num den guess
  max minExp (if scaled.1 < scaled.2 * twoTo 52 then guess - 1 else guess)

/-- A quotient rounded to the nearest integer, ties to even. -/
def divideEven (num den : Nat) : Nat :=
  let q := num / den
  let r := num % den
  if 2 * r < den then q else if 2 * r > den then q + 1 else q + q % 2

/-- The number nearest to `num / den`; `den` is positive. -/
def ofRatio (neg : Bool) (num den : Nat) : Binary64 :=
  if num = 0 then zero neg
  else
    let e := exponentOf num den
    let scaled := inUnits num den e
    let mant := divideEven scaled.1 scaled.2
    let (mant, e) := if mant = twoTo 53 then (twoTo 52, e + 1) else (mant, e)
    if e > maxExp then .infinite neg else .finite neg mant e

def ofNat (n : Nat) : Binary64 := ofRatio false n 1

def ofInt (i : Int) : Binary64 := ofRatio (i < 0) i.natAbs 1

/-- The count of decimal digits of `n`, at least one. -/
def decimalLength (n : Nat) : Nat := (Nat.toDigits 10 n).length

/-- The number nearest to `digits * 10 ^ exp10`. Magnitudes beyond `10 ^ 400` and below
`10 ^ -400` are decided without computing the power. -/
def ofDecimal (neg : Bool) (digits : Nat) (exp10 : Int) : Binary64 :=
  let size : Int := decimalLength digits + exp10
  if digits = 0 ∨ size < -400 then zero neg
  else if size > 400 then .infinite neg
  else if exp10 < 0 then ofRatio neg digits (tenTo (-exp10).toNat)
  else ofRatio neg (digits * tenTo exp10.toNat) 1

/-- A finite number in units of `2 ^ e`, exact whenever `e` is at most its exponent. -/
def units (neg : Bool) (mant : Nat) (exp e : Int) : Int :=
  let n : Int := mant * twoTo (exp - e).toNat
  if neg then -n else n

/-- The order of the numbers; nothing compares with `nan`, and both zeros are equal. -/
def compare? : Binary64 → Binary64 → Option Ordering
  | .nan, _ | _, .nan => none
  | .infinite a, .infinite b => some (compare (!a) (!b))
  | .infinite a, .finite .. => some (if a then .lt else .gt)
  | .finite .., .infinite b => some (if b then .gt else .lt)
  | .finite a m e, .finite b n f =>
    some (compare (units a m e (min e f)) (units b n f (min e f)))

/-- A finite magnitude as a ratio. -/
def ratio (mant : Nat) (exp : Int) : Nat × Nat :=
  if exp < 0 then (mant, twoTo (-exp).toNat) else (mant * twoTo exp.toNat, 1)

/-- The product of two magnitudes, rounded. -/
def times : Binary64 → Binary64 → Binary64
  | .finite _ m e, .finite _ n f =>
    let (a, b) := ratio m e
    let (c, d) := ratio n f
    ofRatio false (a * c) (b * d)
  | .nan, _ | _, .nan => .nan
  | _, _ => .infinite false

/-- The quotient of a magnitude by a positive one, rounded. -/
def dividedBy : Binary64 → Binary64 → Binary64
  | .finite _ m e, .finite _ n f =>
    let (a, b) := ratio m e
    let (c, d) := ratio n f
    ofRatio false (a * d) (b * c)
  | .nan, _ | _, .nan => .nan
  | .finite .., .infinite _ => zero false
  | .infinite _, _ => .infinite false

def isZero : Binary64 → Bool
  | .finite _ 0 _ => true
  | _ => false

def isFinite : Binary64 → Bool
  | .finite .. => true
  | _ => false

/-- The same magnitude with this sign. -/
def withSign (neg : Bool) : Binary64 → Binary64
  | .finite _ mant exp => .finite neg mant exp
  | .infinite _ => .infinite neg
  | .nan => .nan

/-- A normal number uses its full precision; zero and the subnormal numbers are not normal. -/
def isNormal : Binary64 → Bool
  | .finite _ mant _ => twoTo 52 ≤ mant
  | _ => false

end Binary64
end Letterbook
