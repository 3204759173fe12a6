import Letterbook.Text.Blank

/-! Cutting text at separators. `split p` keeps empty pieces, so joining the pieces again with
one separator each gives the text back when only that separator occurs. -/
namespace Letterbook.Text

/-- Puts a character in front of the first piece. -/
def consPiece (c : Char) : List (List Char) → List (List Char)
  | [] => [[c]]
  | piece :: rest => (c :: piece) :: rest

/-- The pieces between the characters that satisfy `p`; there is always at least one. -/
def split (p : Char → Bool) : List Char → List (List Char)
  | [] => [[]]
  | c :: rest => if p c then [] :: split p rest else consPiece c (split p rest)

/-- Joins pieces with a separator between neighbours. -/
def join (sep : List Char) : List (List Char) → List Char
  | [] => []
  | [piece] => piece
  | piece :: rest => piece ++ sep ++ join sep rest

/-- The lines of a text, trimmed, without the empty ones, on one line. -/
def oneLine (s : List Char) : List Char :=
  join [' '] (((split (· == '\n') s).map trim).filter (fun line => !line.isEmpty))

/-- The lines of a text. A line ends with a line feed, with a carriage return before it or not;
behind the last one there is no line. -/
def lines (s : List Char) : List (List Char) :=
  let pieces := split (· == '\n') s
  let ended := pieces.dropLast.map fun line =>
    if line.getLast? == some '\r' then line.dropLast else line
  match pieces.getLast? with
  | none | some [] => ended
  | some last => ended ++ [last]

/-- Drops a given beginning. -/
def strip? : List Char → List Char → Option (List Char)
  | [], s => some s
  | _ :: _, [] => none
  | c :: rest, d :: s => if c == d then strip? rest s else none

/-- Drops the first of the given beginnings that fits, if one does. -/
def stripAny (starts : List (List Char)) (s : List Char) : List Char :=
  (starts.findSome? (strip? · s)).getD s

@[simp] theorem split_nil (p : Char → Bool) : split p [] = [[]] := rfl

theorem split_ne_nil (p : Char → Bool) (s : List Char) : split p s ≠ [] := by
  cases s with
  | nil => simp
  | cons c rest =>
    rw [split]
    split
    · simp
    · unfold consPiece; split <;> simp

theorem strip?_eq_some {start s rest : List Char} :
    strip? start s = some rest ↔ s = start ++ rest := by
  induction start generalizing s with
  | nil => simp [strip?]
  | cons c start ih =>
    cases s with
    | nil => simp [strip?]
    | cons d s =>
      by_cases h : c = d
      · simp [strip?, h, ih]
      · simp [strip?, h]
        exact fun e => absurd e.symm h

end Letterbook.Text
