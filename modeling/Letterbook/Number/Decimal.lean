import Letterbook.Number.Binary64
import Letterbook.Text.Case

/-! Decimal text of binary64 numbers: the fewest digits that read back as the same number, set
in plain or exponent notation, and the readers of decimal text. -/
namespace Letterbook

/-- A positive decimal `digits * 10 ^ exp10`. -/
structure Decimal where
  digits : Nat
  exp10 : Int
  deriving DecidableEq, Repr, Inhabited

namespace Decimal
open Binary64

/-- Four hundred places below the point show the first digit of every positive number. -/
def places : Nat := 400

/-- The exponent of the first decimal digit of `mant * 2 ^ exp`, for a positive `mant`. -/
def leadExponent (mant : Nat) (exp : Int) : Int :=
  let scaled := if exp < 0 then mant * tenTo places / twoTo (-exp).toNat
    else mant * twoTo exp.toNat * tenTo places
  (decimalLength scaled : Int) - 1 - places

/-- `mant * 2 ^ exp` in units of `10 ^ exp10`, as a ratio. -/
def inTens (mant : Nat) (exp exp10 : Int) : Nat × Nat :=
  let num := if exp < 0 then mant else mant * twoTo exp.toNat
  let den := if exp < 0 then twoTo (-exp).toNat else 1
  if exp10 < 0 then (num * tenTo (-exp10).toNat, den) else (num, den * tenTo exp10.toNat)

/-- A decimal reads back as the number `mant * 2 ^ exp`. -/
def readsBack (mant : Nat) (exp : Int) (d : Decimal) : Bool :=
  ofDecimal false d.digits d.exp10 == .finite false mant exp

/-- The neighbours of the number among the decimals with this last place that read back, the
nearer one first and the even one in a tie. -/
def onGrid (mant : Nat) (exp exp10 : Int) : Option Decimal :=
  let (num, den) := inTens mant exp exp10
  let low := num / den
  let rem := num % den
  let lowFirst := 2 * rem < den ∨ (2 * rem = den ∧ low % 2 = 0)
  let below : Decimal := ⟨low, exp10⟩
  let above : Decimal := ⟨low + 1, exp10⟩
  (if lowFirst then [below, above] else [above, below]).find? (readsBack mant exp)

/-- Removes the zeros at the end. -/
def strip (fuel : Nat) (d : Decimal) : Decimal :=
  match fuel with
  | 0 => d
  | fuel + 1 => if d.digits ≠ 0 ∧ d.digits % 10 = 0 then strip fuel ⟨d.digits / 10, d.exp10 + 1⟩ else d

/-- The shortest decimal that reads back as a positive number; seventeen digits always do. -/
def shortest (mant : Nat) (exp : Int) : Decimal :=
  let lead := leadExponent mant exp
  match (List.range 17).findSome? fun (n : Nat) => onGrid mant exp (lead - (n : Int)) with
  | some d => strip 20 d
  | none => ⟨mant, exp⟩

/-- The digits with zeros up to the point, and a point inside them where it belongs. With
`pointed`, a whole number ends in `.0`. -/
def plain (pointed : Bool) (d : Decimal) : String :=
  let text := toString d.digits
  if d.exp10 ≥ 0 then
    text ++ "".pushn '0' d.exp10.toNat ++ if pointed then ".0" else ""
  else
    let fraction := (-d.exp10).toNat
    let padded := ("".pushn '0' (fraction + 1 - text.length) ++ text).toList
    String.ofList (padded.take (padded.length - fraction)) ++ "." ++
      String.ofList (padded.drop (padded.length - fraction))

/-- One digit, the others behind a point, and the exponent with its sign. -/
def scientific (d : Decimal) : String :=
  let text := (toString d.digits).toList
  let exp := d.exp10 + (text.length - 1 : Nat)
  let rest := String.ofList (text.drop 1)
  String.ofList (text.take 1) ++ (if rest.isEmpty then "" else "." ++ rest) ++ "e" ++
    (if exp < 0 then "-" else "+") ++ toString exp.natAbs

/-- The exponent of the first digit. -/
def lead (d : Decimal) : Int := d.exp10 + (decimalLength d.digits : Int) - 1

end Decimal

namespace Binary64

/-- The text in JSON and in rendered markup: plain from `1e-5` up to below `1e16`, else with an
exponent. Infinities and `nan` do not occur there and read as null. -/
def jsonText : Binary64 → String
  | .finite neg 0 _ => if neg then "-0.0" else "0.0"
  | .finite neg mant exp =>
    let d := Decimal.shortest mant exp
    (if neg then "-" else "") ++
      if -5 ≤ d.lead ∧ d.lead < 16 then d.plain true else d.scientific
  | .infinite _ | .nan => "null"

/-- The plain text: never an exponent, and no point in a whole number. -/
def plainText : Binary64 → String
  | .finite neg 0 _ => if neg then "-0" else "0"
  | .finite neg mant exp => (if neg then "-" else "") ++ (Decimal.shortest mant exp).plain false
  | .infinite neg => if neg then "-inf" else "inf"
  | .nan => "NaN"

end Binary64

namespace Decimal

/-- The value of a run of decimal digits. -/
def natOfDigits (s : List Char) : Nat :=
  s.foldl (fun n c => n * 10 + (c.toNat - '0'.toNat)) 0

/-- A sign in front, if there is one. -/
def takeSign : List Char → Bool × List Char
  | '-' :: rest => (true, rest)
  | '+' :: rest => (false, rest)
  | s => (false, s)

/-- The digits in front and what follows them. -/
def takeDigits (s : List Char) : List Char × List Char :=
  (s.takeWhile Char.isDigit, s.dropWhile Char.isDigit)

/-- The exponent part: an `e` in either case, a sign if wanted, and at least one digit. Absence
is exponent zero. -/
def readExponent? : List Char → Option Int
  | [] => some 0
  | c :: rest =>
    if c == 'e' || c == 'E' then
      let (neg, rest) := takeSign rest
      if !rest.isEmpty && rest.all Char.isDigit then
        some (if neg then -(natOfDigits rest : Int) else natOfDigits rest)
      else none
    else none

/-- A decimal number: digits with a point anywhere, at least one digit, then an exponent part. -/
def readUnsigned? (neg : Bool) (s : List Char) : Option Binary64 :=
  let (whole, rest) := takeDigits s
  let (fraction, rest) := match rest with
    | '.' :: rest => takeDigits rest
    | rest => ([], rest)
  if whole.isEmpty && fraction.isEmpty then none
  else (readExponent? rest).map fun exp =>
    Binary64.ofDecimal neg (natOfDigits (whole ++ fraction)) (exp - fraction.length)

/-- Decimal text with an optional sign, or a word for an infinity or for `nan` in any case. -/
def read? (s : List Char) : Option Binary64 :=
  let (neg, rest) := takeSign s
  let word := Text.lower rest
  if word == "inf" || word == "infinity" then some (.infinite neg)
  else if word == "nan" then some .nan
  else readUnsigned? neg rest

/-- Integer text: an optional sign and at least one digit. -/
def readInt? (s : List Char) : Option Int :=
  let (neg, rest) := takeSign s
  if !rest.isEmpty && rest.all Char.isDigit then
    some (if neg then -(natOfDigits rest : Int) else natOfDigits rest)
  else none

end Decimal
end Letterbook
