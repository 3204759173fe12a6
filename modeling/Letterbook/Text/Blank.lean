/-! White space. Three sets occur: the Unicode property, which trims tags and markup text; the
blanks of one line; and the four characters that may stand between the words of a markup tag. -/
namespace Letterbook.Text

/-- The Unicode property White_Space. -/
def isWhite (c : Char) : Bool :=
  let n := c.toNat
  (0x9 ≤ n && n ≤ 0xd) || n == 0x20 || n == 0x85 || n == 0xa0 || n == 0x1680 ||
    (0x2000 ≤ n && n ≤ 0x200a) || n == 0x2028 || n == 0x2029 || n == 0x202f || n == 0x205f ||
    n == 0x3000

/-- A blank leaves the line: a space or a tab. -/
def isBlank (c : Char) : Bool := c == ' ' || c == '\t'

/-- Either half of a line break. -/
def isBreak (c : Char) : Bool := c == '\n' || c == '\r'

/-- Space, tab and the line breaks: what separates words in a tag and tokens in JSON. -/
def isSpace (c : Char) : Bool := isBlank c || isBreak c

/-- Drops the longest end all of whose characters satisfy `p`. -/
def dropEndWhile (p : Char → Bool) (s : List Char) : List Char :=
  (s.reverse.dropWhile p).reverse

/-- The longest end all of whose characters satisfy `p`. -/
def takeEndWhile (p : Char → Bool) (s : List Char) : List Char :=
  (s.reverse.takeWhile p).reverse

/-- Removes white space at both ends. -/
def trim (s : List Char) : List Char := dropEndWhile isWhite (s.dropWhile isWhite)

/-- Skips the spaces in front. -/
def skipSpace (s : List Char) : List Char := s.dropWhile isSpace

theorem dropEndWhile_append_takeEndWhile (p : Char → Bool) (s : List Char) :
    dropEndWhile p s ++ takeEndWhile p s = s := by
  rw [dropEndWhile, takeEndWhile, ← List.reverse_append, List.takeWhile_append_dropWhile,
    List.reverse_reverse]

end Letterbook.Text
