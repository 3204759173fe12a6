import Letterbook.Json.Text
import Letterbook.Settings

/-! The text of settings that are saved: a TOML document of three sections. -/
namespace Letterbook.Settings

/-- The longest run of a character. -/
def longestRun (c : Char) : Nat → List Char → Nat
  | run, [] => run
  | run, d :: rest => if d == c then longestRun c (run + 1) rest else max run (longestRun c 0 rest)

/-- Control characters that a string can hold only escaped. -/
def needsCode (c : Char) : Bool :=
  (c.toNat < 0x20 && c != '\t' && c != '\n') || c.toNat == 0x7f

/-- A character of a string in double quotes; on one line, line feeds and quotes are escaped. -/
def escaped (oneLine : Bool) (c : Char) : List Char :=
  match c with
  | '\\' => ['\\', '\\']
  | '\t' => ['\\', 't']
  | '\n' => if oneLine then ['\\', 'n'] else ['\n']
  | '"' => if oneLine then ['\\', '"'] else ['"']
  | '\x08' => ['\\', 'b']
  | '\x0c' => ['\\', 'f']
  | '\r' => ['\\', 'r']
  | c =>
    if needsCode c then
      ['\\', 'u', '0', '0', (hexDigit (c.toNat / 16)).toUpper, (hexDigit (c.toNat % 16)).toUpper]
    else [c]

/-- The characters of a string over several lines: of quotes that follow each other every third is
escaped. -/
def escapedLines (quotes : Nat) : List Char → List Char
  | [] => []
  | '"' :: rest =>
    if quotes = 2 then '\\' :: '"' :: escapedLines 0 rest else '"' :: escapedLines (quotes + 1) rest
  | c :: rest => escaped false c ++ escapedLines 0 rest

/-- The written forms of a string: in double quotes, where some characters are escaped, or as it is
in single quotes, and either between three quotes of its kind. -/
inductive Quoting
  | basic
  | literal
  | longBasic
  | longLiteral
  deriving DecidableEq, Repr

/-- The form of a string: the first of the four that needs no escape, except for tabs, and where
none is, one in double quotes. Line feeds stand in long forms. -/
def quotingOf (s : List Char) : Quoting :=
  let coded := s.any needsCode
  let lines := s.contains '\n'
  let slashed := s.contains '\\'
  let doubles := longestRun '"' 0 s
  let singles := longestRun '\'' 0 s
  if !coded && !lines && !slashed && doubles = 0 then .basic
  else if !coded && !lines && singles = 0 then .literal
  else if !coded && !slashed && doubles ≤ 2 then .longBasic
  else if !coded && singles ≤ 2 then .longLiteral
  else if lines then .longBasic
  else .basic

/-- A string written in its form. A long form of several lines begins on a line of its own. -/
def quoted (s : String) : String :=
  let chars := s.toList
  let start := if chars.contains '\n' then "\n" else ""
  match quotingOf chars with
  | .basic => "\"" ++ String.ofList (chars.flatMap (escaped true)) ++ "\""
  | .literal => "'" ++ s ++ "'"
  | .longBasic => "\"\"\"" ++ start ++ String.ofList (escapedLines 0 chars) ++ "\"\"\""
  | .longLiteral => "'''" ++ start ++ s ++ "'''"

/-- The text of settings. -/
def fileText (s : Settings) : String :=
  "[barbershop]\ndefault_locale = " ++ quoted s.defaultLocale ++
    "\n\n[render]\nescape = \"" ++ escapeWord s.escape ++
    "\"\nstrict = " ++ (if s.strict then "true" else "false") ++
    "\n\n[templates]\ndir = " ++ quoted s.directory ++ "\n"

end Letterbook.Settings
