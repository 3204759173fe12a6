import Letterbook.Json
import Letterbook.Number.Decimal
import Letterbook.Number.Word
import Letterbook.Text.Split

/-! Reading JSON text. A text that breaks off or goes wrong still has a beginning, and a shape
error in that beginning is met first; so reading yields a tree that ends where the text fails,
and whoever walks the tree in its order meets shape errors and the failure in text order. -/
namespace Letterbook.Json

/-- How a text fails to be JSON: a character that cannot stand there, or an early end. An end
inside a numeral is early for whoever reads the numeral, and leaves a wrong numeral to whoever
skips it. An end inside a string is early unless the string holds half of a surrogate pair, which
is wrong for whoever reads the string and nothing to whoever skips it. -/
inductive Flaw
  | malformed
  | truncated
  | clipped
  | unpaired
  deriving DecidableEq, Repr, Inhabited

/-- The flaw as it appears to whoever skips the value. -/
def Flaw.skipped : Flaw → Flaw
  | .clipped => .malformed
  | .unpaired => .truncated
  | flaw => flaw

/-- A JSON text as far as it can be read. A number is absent if it exceeds every binary64 number,
a string or key if it holds half of a surrogate pair. The flaw of a sequence is what stands where its
next separator or end should be. -/
inductive Reading
  | null
  | bool (b : Bool)
  | num (n : Option Number)
  | str (s : Option String)
  | arr (items : List Reading) (tail : Option Flaw)
  | obj (members : List (Option String × Reading)) (tail : Option Flaw)
  | broken (flaw : Flaw)
  deriving Repr, Inhabited

/-- The rest of the text, or the flaw that ended reading. -/
abbrev Rest := Except Flaw (List Char)

/-- The flaw of a text that goes on like this where something else must stand. -/
def flawAt : List Char → Flaw
  | [] => .truncated
  | _ :: _ => .malformed

namespace Numeral

/-- The parts of a numeral: sign, digits of the whole part, of the fraction if there is one, and
the exponent if there is one. -/
structure Parts where
  neg : Bool
  whole : List Char
  fraction : Option (List Char)
  exponent : Option Int

/-- Digits, of which there must be one. -/
def someDigits (s : List Char) : Except Flaw (List Char × List Char) :=
  let (digits, rest) := Decimal.takeDigits s
  if digits.isEmpty then .error (if rest.isEmpty then .clipped else .malformed)
  else .ok (digits, rest)

/-- The whole part: no zero in front of other digits. -/
def readWhole (s : List Char) : Except Flaw (List Char × List Char) := do
  let (digits, rest) ← someDigits s
  if digits.head? == some '0' && digits.length > 1 then .error .malformed
  else .ok (digits, rest)

def readFraction : List Char → Except Flaw (Option (List Char) × List Char)
  | '.' :: rest => (someDigits rest).map fun (digits, rest) => (some digits, rest)
  | rest => .ok (none, rest)

def readExponent : List Char → Except Flaw (Option Int × List Char)
  | [] => .ok (none, [])
  | c :: rest =>
    if c == 'e' || c == 'E' then
      let (neg, rest) := Decimal.takeSign rest
      (someDigits rest).map fun (digits, rest) =>
        let n : Int := Decimal.natOfDigits digits
        (some (if neg then -n else n), rest)
    else .ok (none, c :: rest)

def read (s : List Char) : Except Flaw (Parts × List Char) := do
  let (neg, s) := match s with
    | '-' :: rest => (true, rest)
    | s => (false, s)
  let (whole, s) ← readWhole s
  let (fraction, s) ← readFraction s
  let (exponent, s) ← readExponent s
  .ok (⟨neg, whole, fraction, exponent⟩, s)

/-- A value with digits appended as long as it fits 64 bits, and the number of these digits. -/
def appended (value : Nat) : List Char → Nat × Nat
  | [] => (value, 0)
  | c :: rest =>
    let next := value * 10 + (c.toNat - '0'.toNat)
    if isNat64 next then
      let (value, count) := appended next rest
      (value, count + 1)
    else (value, 0)

/-- A significand scaled by a power of ten in steps of at most `10 ^ 308`, each step rounded;
absent when it overflows. -/
def scale (fuel : Nat) (x : Binary64) (exp10 : Int) : Option Binary64 :=
  match fuel with
  | 0 => some x
  | fuel + 1 =>
    if exp10.natAbs ≤ 308 then
      let power := Binary64.ofDecimal false 1 exp10.natAbs
      if exp10 < 0 then some (x.dividedBy power)
      else
        let y := x.times power
        if y.isFinite then some y else none
    else if x.isZero then some x
    else if exp10 > 0 then none
    else scale fuel (x.dividedBy (Binary64.ofDecimal false 1 308)) (exp10 + 308)

/-- The binary64 value: a significand of 64 bits, scaled. Digits of the whole part that do not fit
the significand are left out as zeros are, and digits of the fraction follow while they fit. -/
def toBinary64? (p : Parts) : Option Binary64 :=
  let (whole, kept) := appended 0 p.whole
  let (value, places) := appended whole (p.fraction.getD [])
  let exp10 := (p.whole.length : Int) - kept - places + p.exponent.getD 0
  if value = 0 then some (Binary64.zero p.neg)
  else (scale 8 (Binary64.ofNat value) exp10).map (Binary64.withSign p.neg)

/-- An integer of 64 bits where the numeral is one; minus zero is not. -/
def toNumber? (p : Parts) : Option Number :=
  let n := Decimal.natOfDigits p.whole
  if p.fraction.isNone && p.exponent.isNone &&
      (if p.neg then 0 < n && isInt64 (-n) else isNat64 n) then
    some (.int (if p.neg then -n else n))
  else (toBinary64? p).map .float

/-- The number that a text spells, if it is one numeral and nothing else. -/
def number? (s : List Char) : Option Number :=
  match read s with
  | .ok (parts, []) => toNumber? parts
  | _ => none

end Numeral

namespace Quoted

/-- The value of a hexadecimal digit. -/
def hexValue? (c : Char) : Option Nat :=
  let n := c.toNat
  if '0'.toNat ≤ n && n ≤ '9'.toNat then some (n - '0'.toNat)
  else if 'a'.toNat ≤ n && n ≤ 'f'.toNat then some (n - 'a'.toNat + 10)
  else if 'A'.toNat ≤ n && n ≤ 'F'.toNat then some (n - 'A'.toNat + 10)
  else none

/-- Four hexadecimal digits. Fewer than four bytes are an early end. -/
def readHex4 (s : List Char) : Except Flaw (Nat × List Char) :=
  match s with
  | a :: b :: c :: d :: rest =>
    match hexValue? a, hexValue? b, hexValue? c, hexValue? d with
    | some a, some b, some c, some d => .ok (((a * 16 + b) * 16 + c) * 16 + d, rest)
    | _, _, _, _ => .error .malformed
  | s => .error (if (String.ofList s).utf8ByteSize < 4 then .truncated else .malformed)

/-- The units of a string body up to the closing quote or a flaw: characters, or the code units of
escapes by number, which may be halves of surrogate pairs. -/
def readUnits (fuel : Nat) (s : List Char) (acc : List Nat) : List Nat × Rest :=
  match fuel with
  | 0 => (acc.reverse, .error .truncated)
  | fuel + 1 =>
    match s with
    | [] => (acc.reverse, .error .truncated)
    | '"' :: rest => (acc.reverse, .ok rest)
    | ['\\'] => (acc.reverse, .error .truncated)
    | '\\' :: c :: rest =>
      match c with
      | '"' | '\\' | '/' => readUnits fuel rest (c.toNat :: acc)
      | 'b' => readUnits fuel rest (8 :: acc)
      | 'f' => readUnits fuel rest (12 :: acc)
      | 'n' => readUnits fuel rest (10 :: acc)
      | 'r' => readUnits fuel rest (13 :: acc)
      | 't' => readUnits fuel rest (9 :: acc)
      | 'u' =>
        match readHex4 rest with
        | .ok (n, rest) => readUnits fuel rest (n :: acc)
        | .error flaw => (acc.reverse, .error flaw)
      | _ => (acc.reverse, .error .malformed)
    | c :: rest =>
      if c.toNat < 0x20 then (acc.reverse, .error .malformed)
      else readUnits fuel rest (c.toNat :: acc)

def isHighHalf (n : Nat) : Bool := 0xd800 ≤ n && n ≤ 0xdbff

def isLowHalf (n : Nat) : Bool := 0xdc00 ≤ n && n ≤ 0xdfff

/-- The characters of the units; each surrogate half must stand in a pair. -/
def charsOfUnits : List Nat → Option (List Char)
  | [] => some []
  | high :: low :: rest =>
    if isHighHalf high then
      if isLowHalf low then
        (charsOfUnits rest).map
          (Char.ofNat (0x10000 + (high - 0xd800) * 0x400 + (low - 0xdc00)) :: ·)
      else none
    else if isLowHalf high then none
    else (charsOfUnits (low :: rest)).map (Char.ofNat high :: ·)
  | [n] => if isHighHalf n || isLowHalf n then none else some [Char.ofNat n]

/-- Half of a surrogate pair without the other half. A leading half at the end may still get its
other half. -/
def hasLoneHalf : List Nat → Bool
  | [] => false
  | [n] => isLowHalf n
  | high :: low :: rest =>
    if isHighHalf high then !isLowHalf low || hasLoneHalf rest
    else isLowHalf high || hasLoneHalf (low :: rest)

/-- The string after its opening quote; absent if it holds half of a surrogate pair. -/
def read (s : List Char) : Except Flaw (Option String × List Char) :=
  match readUnits (s.length + 1) s [] with
  | (units, .ok rest) => .ok ((charsOfUnits units).map String.ofList, rest)
  | (units, .error flaw) =>
    .error (if flaw == .truncated && hasLoneHalf units then .unpaired else flaw)

end Quoted

namespace Reading

/-- A word such as `null`: its first character decided for it. -/
def readWord (word : List Char) (value : Reading) (s : List Char) : Reading × Rest :=
  match Text.strip? word s with
  | some rest => (value, .ok rest)
  | none =>
    let flaw := if s.isPrefixOf word then Flaw.truncated else .malformed
    (.broken flaw, .error flaw)

def brokenAt (s : List Char) : Reading × Rest := (.broken (flawAt s), .error (flawAt s))

mutual

/-- One value. Each value takes a character, so the length of the text bounds the depth. -/
def readValue (fuel : Nat) (s : List Char) : Reading × Rest :=
  match fuel with
  | 0 => brokenAt []
  | fuel + 1 =>
    let s := Text.skipSpace s
    match s with
    | [] => brokenAt []
    | 'n' :: _ => readWord "null".toList .null s
    | 't' :: _ => readWord "true".toList (.bool true) s
    | 'f' :: _ => readWord "false".toList (.bool false) s
    | '"' :: rest =>
      match Quoted.read rest with
      | .ok (text, rest) => (.str text, .ok rest)
      | .error flaw => (.broken flaw, .error flaw)
    | '[' :: rest =>
      match Text.skipSpace rest with
      | ']' :: rest => (.arr [] none, .ok rest)
      | [] => (.arr [] (some .truncated), .error .truncated)
      | rest =>
        let (items, tail, rest) := readItems fuel rest
        (.arr items tail, rest)
    | '\x7b' :: rest =>
      match Text.skipSpace rest with
      | '\x7d' :: rest => (.obj [] none, .ok rest)
      | rest =>
        let (members, tail, rest) := readMembers fuel rest
        (.obj members tail, rest)
    | c :: _ =>
      if c == '-' || c.isDigit then
        match Numeral.read s with
        | .ok (parts, rest) => (.num (Numeral.toNumber? parts), .ok rest)
        | .error flaw => (.broken flaw, .error flaw)
      else brokenAt s

/-- The items of an array from one on, up to the closing bracket. -/
def readItems (fuel : Nat) (s : List Char) : List Reading × Option Flaw × Rest :=
  match fuel with
  | 0 => ([], some .truncated, .error .truncated)
  | fuel + 1 =>
    match readValue fuel s with
    | (item, .error flaw) => ([item], some flaw, .error flaw)
    | (item, .ok rest) =>
      match Text.skipSpace rest with
      | ']' :: rest => ([item], none, .ok rest)
      | ',' :: rest =>
        let (items, tail, rest) := readItems fuel rest
        (item :: items, tail, rest)
      | rest => ([item], some (flawAt rest), .error (flawAt rest))

/-- The members of an object from one on, up to the closing brace. -/
def readMembers (fuel : Nat) (s : List Char) :
    List (Option String × Reading) × Option Flaw × Rest :=
  match fuel with
  | 0 => ([], some .truncated, .error .truncated)
  | fuel + 1 =>
    match Text.skipSpace s with
    | '"' :: rest =>
      match Quoted.read rest with
      | .error flaw => ([], some flaw, .error flaw)
      | .ok (key, rest) =>
        match Text.skipSpace rest with
        | ':' :: rest =>
          match readValue fuel rest with
          | (value, .error flaw) => ([(key, value)], some flaw, .error flaw)
          | (value, .ok rest) =>
            match Text.skipSpace rest with
            | '\x7d' :: rest => ([(key, value)], none, .ok rest)
            | ',' :: rest =>
              let (members, tail, rest) := readMembers fuel rest
              ((key, value) :: members, tail, rest)
            | rest => ([(key, value)], some (flawAt rest), .error (flawAt rest))
        | rest => ([(key, .broken (flawAt rest))], some (flawAt rest), .error (flawAt rest))
    | rest => ([], some (flawAt rest), .error (flawAt rest))

end

/-- The nesting that a value may have: one less than this many levels. -/
def depthLimit : Nat := 128

mutual

/-- The value of a text that was read to its end without a flaw. -/
def toJson? (depth : Nat) : Reading → Except Flaw Json
  | .null => .ok .null
  | .bool b => .ok (.bool b)
  | .num (some n) => .ok (.num n)
  | .num none => .error .malformed
  | .str (some s) => .ok (.str s)
  | .str none => .error .malformed
  | .arr items tail =>
    match depth with
    | 0 | 1 => .error .malformed
    | depth + 1 => (toItems? depth items tail).map .arr
  | .obj members tail =>
    match depth with
    | 0 | 1 => .error .malformed
    | depth + 1 => (toMembers? depth members tail).map Json.object
  | .broken flaw => .error flaw

def toItems? (depth : Nat) (items : List Reading) (tail : Option Flaw) :
    Except Flaw (List Json) :=
  match items with
  | [] => match tail with
    | none => .ok []
    | some flaw => .error flaw
  | item :: rest => do
    let value ← toJson? depth item
    let values ← toItems? depth rest tail
    .ok (value :: values)

def toMembers? (depth : Nat) (members : List (Option String × Reading)) (tail : Option Flaw) :
    Except Flaw (List (String × Json)) :=
  match members with
  | [] => match tail with
    | none => .ok []
    | some flaw => .error flaw
  | (none, _) :: _ => .error .malformed
  | (some key, value) :: rest => do
    let value ← toJson? depth value
    let values ← toMembers? depth rest tail
    .ok ((key, value) :: values)

end

end Reading

/-- A whole text: the reading of its value, and the flaw that follows the value. -/
def readText (s : String) : Reading × Option Flaw :=
  let s := s.toList
  match Reading.readValue (s.length + 1) s with
  | (reading, .error _) => (reading, none)
  | (reading, .ok rest) => (reading, if (Text.skipSpace rest).isEmpty then none else some .malformed)

/-- The value of a JSON text. -/
def parse (s : String) : Except Flaw Json := do
  let (reading, after) := readText s
  let value ← reading.toJson? Reading.depthLimit
  match after with
  | none => .ok value
  | some flaw => .error flaw

mutual

/-- A value as a reading without flaws. -/
def reading : Json → Reading
  | .null => .null
  | .bool b => .bool b
  | .num n => .num (some n)
  | .str s => .str (some s)
  | .arr items => .arr (readingItems items) none
  | .obj members => .obj (readingMembers members) none

def readingItems : List Json → List Reading
  | [] => []
  | item :: rest => reading item :: readingItems rest

def readingMembers : List (String × Json) → List (Option String × Reading)
  | [] => []
  | (key, value) :: rest => (some key, reading value) :: readingMembers rest

end

end Letterbook.Json
