import Letterbook.Number.Decimal
import Letterbook.Number.Word
import Letterbook.Text.Split
import Letterbook.Toml.Value

/-! TOML numbers, dates and times. -/
namespace Letterbook.Toml

/-- A reader takes the beginning of a text, or refuses the text. -/
abbrev Reader (α : Type) := List Char → Option (α × List Char)

/-- Digits with single underscores between them, without the underscores. -/
def digits (p : Char → Bool) : List Char → List Char × List Char
  | [] => ([], [])
  | c :: rest =>
    if p c then
      let (more, rest) := digits p rest
      (c :: more, rest)
    else
      match c, rest with
      | '_', d :: _ =>
        if p d then digits p rest else ([], c :: rest)
      | _, _ => ([], c :: rest)

/-- At least one digit, and no underscore in front. -/
def someDigits (p : Char → Bool) : Reader (List Char)
  | c :: rest => if p c then some (digits p (c :: rest)) else none
  | [] => none

def isHexDigit (c : Char) : Bool :=
  c.isDigit || ('a' ≤ c && c ≤ 'f') || ('A' ≤ c && c ≤ 'F')

def digitValue (c : Char) : Nat :=
  if c.isDigit then c.toNat - '0'.toNat else c.toLower.toNat - 'a'.toNat + 10

def natOfDigits (base : Nat) (s : List Char) : Nat :=
  s.foldl (fun n c => n * base + digitValue c) 0

/-- An integer of 64 bits. -/
def int? (i : Int) : Option Value :=
  if isInt64 i then some (.int i) else none

/-- The digits of an integer in another base, behind its letter. -/
def readBased (base : Nat) (p : Char → Bool) : Reader Value := fun s => do
  let (ds, rest) ← someDigits p s
  let v ← int? (natOfDigits base ds)
  some (v, rest)

/-- The whole part of a decimal number: a zero alone, or digits that start with another. -/
def readWhole : Reader (List Char)
  | '0' :: rest => some (['0'], rest)
  | s => someDigits Char.isDigit s

def readFraction : Reader (Option (List Char))
  | '.' :: rest => (someDigits Char.isDigit rest).map fun (ds, rest) => (some ds, rest)
  | s => some (none, s)

def readExponent : Reader (Option Int)
  | [] => some (none, [])
  | c :: rest =>
    if c == 'e' || c == 'E' then
      let (neg, rest) := Decimal.takeSign rest
      (someDigits Char.isDigit rest).map fun (ds, rest) =>
        let n : Int := Decimal.natOfDigits ds
        (some (if neg then -n else n), rest)
    else some (none, c :: rest)

/-- A decimal number. A float too large for binary64 is refused unless it is negative. -/
def readDecimal (neg : Bool) : Reader Value := fun s => do
  let (whole, s) ← readWhole s
  let (fraction, s) ← readFraction s
  let (exponent, s) ← readExponent s
  match fraction, exponent with
  | none, none =>
    let n : Int := Decimal.natOfDigits whole
    let v ← int? (if neg then -n else n)
    some (v, s)
  | fraction, exponent =>
    let fraction := fraction.getD []
    let x := Binary64.ofDecimal neg (Decimal.natOfDigits (whole ++ fraction))
      (exponent.getD 0 - fraction.length)
    if x = .infinite false then none else some (.float x, s)

/-- A number without its sign. -/
def readUnsigned (neg : Bool) : Reader Value
  | 'i' :: 'n' :: 'f' :: rest => some (.float (.infinite neg), rest)
  | 'n' :: 'a' :: 'n' :: rest => some (.float .nan, rest)
  | s => readDecimal neg s

def readNumber : Reader Value
  | '0' :: 'x' :: rest => readBased 16 isHexDigit rest
  | '0' :: 'o' :: rest => readBased 8 (fun c => '0' ≤ c && c ≤ '7') rest
  | '0' :: 'b' :: rest => readBased 2 (fun c => c == '0' || c == '1') rest
  | s =>
    let (neg, rest) := Decimal.takeSign s
    readUnsigned neg rest

/-- A number of two digits up to a limit, as its digits. -/
def twoDigits (low high : Nat) : Reader (List Char)
  | a :: b :: rest =>
    let n := Decimal.natOfDigits [a, b]
    if a.isDigit && b.isDigit && low ≤ n && n ≤ high then some ([a, b], rest) else none
  | _ => none

def isLeapYear (year : Nat) : Bool := year % 4 == 0 && (year % 100 != 0 || year % 400 == 0)

/-- The number of days in a month. -/
def daysOf (year month : Nat) : Nat :=
  if month == 2 then (if isLeapYear year then 29 else 28)
  else if month == 4 || month == 6 || month == 9 || month == 11 then 30
  else 31

def readDate : Reader (List Char)
  | a :: b :: c :: d :: '-' :: s => do
    let (month, s) ← twoDigits 1 12 s
    let s ← Text.strip? ['-'] s
    let (day, s) ← twoDigits 1 31 s
    if [a, b, c, d].all Char.isDigit &&
        Decimal.natOfDigits day ≤
          daysOf (Decimal.natOfDigits [a, b, c, d]) (Decimal.natOfDigits month) then
      some ([a, b, c, d, '-'] ++ month ++ '-' :: day, s)
    else none
  | _ => none

/-- The fraction of a second to nine places, without zeros at its end. -/
def readSubsecond : Reader (List Char)
  | '.' :: s =>
    match Decimal.takeDigits s with
    | ([], _) => none
    | (ds, s) =>
      match Text.dropEndWhile (· == '0') (ds.take 9) with
      | [] => some ([], s)
      | ds => some ('.' :: ds, s)
  | s => some ([], s)

/-- What counts as a moment: the last hour of a day, the last hour and minute of a distance from
universal time, and whether a date without a time may have such a distance. -/
structure MomentRules where
  lastHour : Nat
  lastOffsetHour : Nat
  lastOffsetMinute : Nat
  dateOffset : Bool

/-- A moment that stands in a document as a value. -/
def MomentRules.value : MomentRules := ⟨23, 23, 59, false⟩

/-- A moment that a text spells. -/
def MomentRules.spelled : MomentRules := ⟨24, 99, 99, true⟩

/-- A time of day; a minute may have a leap second. -/
def readTime (rules : MomentRules) : Reader (List Char) := fun s => do
  let (hour, s) ← twoDigits 0 rules.lastHour s
  let s ← Text.strip? [':'] s
  let (minute, s) ← twoDigits 0 59 s
  let s ← Text.strip? [':'] s
  let (second, s) ← twoDigits 0 60 s
  let (fraction, s) ← readSubsecond s
  some (hour ++ ':' :: minute ++ ':' :: second ++ fraction, s)

/-- A number below a hundred in two digits. -/
def inTwoDigits (n : Nat) : List Char := [Nat.digitChar (n / 10), Nat.digitChar (n % 10)]

/-- The spelling of a distance in minutes; a distance of nothing has a plus sign. -/
def offsetSpelling (neg : Bool) (minutes : Nat) : List Char :=
  (if neg && minutes != 0 then '-' else '+') ::
    inTwoDigits (minutes / 60) ++ ':' :: inTwoDigits (minutes % 60)

/-- The distance from universal time, if one is given: a day at most. -/
def readOffset (rules : MomentRules) : Reader (List Char)
  | [] => some ([], [])
  | c :: s =>
    if c == 'Z' || c == 'z' then some (['Z'], s)
    else if c == '+' || c == '-' then do
      let (hour, s) ← twoDigits 0 rules.lastOffsetHour s
      let s ← Text.strip? [':'] s
      let (minute, s) ← twoDigits 0 rules.lastOffsetMinute s
      let minutes := Decimal.natOfDigits hour * 60 + Decimal.natOfDigits minute
      if minutes ≤ 24 * 60 then some (offsetSpelling (c == '-') minutes, s) else none
    else some ([], c :: s)

/-- Whether a time starts here, as far as two digits and a colon tell. -/
def startsTime : List Char → Bool
  | a :: b :: ':' :: _ => a.isDigit && b.isDigit
  | _ => false

def startsDate : List Char → Bool
  | a :: b :: c :: d :: '-' :: _ => [a, b, c, d].all Char.isDigit
  | _ => false

/-- A date alone, or a date, a time and perhaps an offset. -/
def readDateTime (rules : MomentRules) : Reader (List Char) := fun s => do
  let (date, s) ← readDate s
  let bare := if rules.dateOffset then readOffset rules s else some ([], s)
  match s with
  | c :: after =>
    if c == 'T' || c == 't' || (c == ' ' && startsTime after) then do
      let (time, s) ← readTime rules after
      let (offset, s) ← readOffset rules s
      some (date ++ 'T' :: time ++ offset, s)
    else bare.map fun (offset, s) => (date ++ offset, s)
  | [] => some (date, [])

/-- A date, a time or both. -/
def readMoment (rules : MomentRules) : Reader (List Char) := fun s =>
  if startsDate s then readDateTime rules s else readTime rules s

/-- The normal spelling of a moment that a text spells. -/
def moment? (text : String) : Option String :=
  match readMoment .spelled text.toList with
  | some (spelling, []) => some (String.ofList spelling)
  | _ => none

/-- A number, a date or a time. -/
def readScalar : Reader Value := fun s =>
  if startsDate s || startsTime s then
    (readMoment .value s).map fun (spelling, rest) => (.moment (String.ofList spelling), rest)
  else readNumber s

end Letterbook.Toml
