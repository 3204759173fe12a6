import Letterbook.Toml.Scalar

/-! TOML strings: basic strings with escapes in double quotes, literal strings in single quotes,
and both over several lines in three quotes. -/
namespace Letterbook.Toml

/-- What may stand in comments and strings as it is: a tab, and all but control characters. -/
def isPlain (c : Char) : Bool := c == '\t' || (0x20 ≤ c.toNat && c.toNat != 0x7f)

/-- A line break: a line feed, with a carriage return before it or not. -/
def newline? : List Char → Option (List Char)
  | '\n' :: rest => some rest
  | '\r' :: '\n' :: rest => some rest
  | _ => none

/-- Skips one line break, if one is there. -/
def skipNewline (s : List Char) : List Char := (newline? s).getD s

/-- The character of a code in a number of hexadecimal digits. -/
def readCode (count : Nat) : Reader Char := fun s =>
  let ds := s.take count
  let n := natOfDigits 16 ds
  if ds.length = count && ds.all isHexDigit && n.isValidChar then
    some (Char.ofNat n, s.drop count)
  else none

/-- An escape behind its backslash. -/
def readEscape : Reader Char
  | 'b' :: rest => some ('\x08', rest)
  | 't' :: rest => some ('\t', rest)
  | 'n' :: rest => some ('\n', rest)
  | 'f' :: rest => some ('\x0c', rest)
  | 'r' :: rest => some ('\r', rest)
  | '"' :: rest => some ('"', rest)
  | '\\' :: rest => some ('\\', rest)
  | 'u' :: rest => readCode 4 rest
  | 'U' :: rest => readCode 8 rest
  | _ => none

/-- The rest of a basic string. An escape takes at least one character, so the length of the text
bounds the number of steps. -/
def readBasic (fuel : Nat) (s : List Char) (acc : List Char) : Option (List Char × List Char) :=
  match fuel with
  | 0 => none
  | fuel + 1 =>
    match s with
    | [] => none
    | '"' :: rest => some (acc.reverse, rest)
    | '\\' :: rest =>
      match readEscape rest with
      | none => none
      | some (c, rest) => readBasic fuel rest (c :: acc)
    | c :: rest => if isPlain c then readBasic fuel rest (c :: acc) else none

/-- The rest of a literal string. -/
def readLiteral : Reader (List Char)
  | [] => none
  | '\'' :: rest => some ([], rest)
  | c :: rest =>
    if isPlain c then (readLiteral rest).map fun (text, rest) => (c :: text, rest) else none

/-- A line that ends with a backslash goes on at the next character that is not white space. -/
def joinLines? (s : List Char) : Option (List Char) :=
  (newline? (s.dropWhile Text.isBlank)).map fun rest => skipBlankLines rest.length rest
where
  /-- Skips blanks and line breaks; each takes a character. -/
  skipBlankLines (fuel : Nat) (s : List Char) : List Char :=
    match fuel with
    | 0 => s
    | fuel + 1 =>
      match newline? s with
      | some rest => skipBlankLines fuel rest
      | none => match s with
        | c :: rest => if Text.isBlank c then skipBlankLines fuel rest else s
        | [] => []

/-- The end of a string over several lines, after which up to two more of its quotes are part of
the string: the quotes of the string, and the rest. -/
def closing? (quote : Char) (s : List Char) : Option (List Char × List Char) :=
  let quotes := s.takeWhile (· == quote)
  if quotes.length < 3 then none
  else
    let inside := min (quotes.length - 3) 2
    some (List.replicate inside quote, s.drop (inside + 3))

/-- The rest of a basic string over several lines. Its line breaks are line feeds. -/
def readBasicLines (fuel : Nat) (s : List Char) (acc : List Char) :
    Option (List Char × List Char) :=
  match fuel with
  | 0 => none
  | fuel + 1 =>
    match closing? '"' s, newline? s, s with
    | some (quotes, rest), _, _ => some (acc.reverse ++ quotes, rest)
    | none, some rest, _ => readBasicLines fuel rest ('\n' :: acc)
    | none, none, '\\' :: rest =>
      match joinLines? rest, readEscape rest with
      | some rest, _ => readBasicLines fuel rest acc
      | none, some (c, rest) => readBasicLines fuel rest (c :: acc)
      | none, none => none
    | none, none, c :: rest => if isPlain c then readBasicLines fuel rest (c :: acc) else none
    | none, none, [] => none

/-- The rest of a literal string over several lines. -/
def readLiteralLines (fuel : Nat) (s : List Char) (acc : List Char) :
    Option (List Char × List Char) :=
  match fuel with
  | 0 => none
  | fuel + 1 =>
    match closing? '\'' s, newline? s, s with
    | some (quotes, rest), _, _ => some (acc.reverse ++ quotes, rest)
    | none, some rest, _ => readLiteralLines fuel rest ('\n' :: acc)
    | none, none, c :: rest => if isPlain c then readLiteralLines fuel rest (c :: acc) else none
    | none, none, [] => none

/-- A string in quotes on one line. -/
def readLine : Reader String := fun s =>
  let text := match s with
    | '"' :: rest => readBasic (rest.length + 1) rest []
    | '\'' :: rest => readLiteral rest
    | _ => none
  text.map fun (chars, rest) => (String.ofList chars, rest)

/-- A string in any quotes. A line break behind three opening quotes is not part of it. -/
def readString : Reader String := fun s =>
  match s with
  | '"' :: '"' :: '"' :: rest =>
    (readBasicLines (rest.length + 1) (skipNewline rest) []).map
      fun (chars, rest) => (String.ofList chars, rest)
  | '\'' :: '\'' :: '\'' :: rest =>
    (readLiteralLines (rest.length + 1) (skipNewline rest) []).map
      fun (chars, rest) => (String.ofList chars, rest)
  | s => readLine s

end Letterbook.Toml
