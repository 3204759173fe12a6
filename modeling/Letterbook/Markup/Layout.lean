import Letterbook.Markup.Token

/-! White space around tags. A trimming mark removes all white space on its side. A tag that
prints nothing and stands alone on its line takes the line with it: the blanks before it go, and
the blanks and line break after it. The break is owed until a text pays it. The blanks before a
partial are what its lines are indented by, whether they stay or go. -/
namespace Letterbook.Markup

namespace Mark

/-- Whether a tag alone on its line takes the line with it. -/
def ownsLine : Mark → Bool
  | .output .. => false
  | _ => true

/-- A comment leaves the trimming of what follows as it was. -/
def isComment : Mark → Bool
  | .comment => true
  | _ => false

end Mark

namespace Layout

/-- What a token needs to know of those before it: whether no tag stands before, the text just
before, whether text that follows is trimmed, and whether a line break is owed. -/
structure Margin where
  first : Bool
  before : List Char
  trims : Bool
  owed : Bool

/-- Nothing but blanks stands before on the line. -/
def opensLine (first : Bool) (before : List Char) : Bool :=
  match (Text.dropEndWhile Text.isBlank before).getLast? with
  | none => first
  | some c => Text.isBreak c

/-- Nothing but blanks follows on the line, or nothing at all. -/
def closesLine : List Token → Bool
  | [] => true
  | .text _ s :: _ => (s.dropWhile Text.isBlank).head?.any Text.isBreak
  | .tag _ :: _ => false

/-- A tag between this text and these tokens stands alone on its line. -/
def alone (first : Bool) (before : List Char) (after : List Token) : Bool :=
  opensLine first before && closesLine after

/-- Drops the blanks in front and one line break, if a break is owed. -/
def payBreak (owed : Bool) (s : List Char) : List Char :=
  if owed then
    match s.dropWhile Text.isBlank with
    | '\r' :: '\n' :: rest => rest
    | '\n' :: rest => rest
    | rest => rest
  else s

/-- What a tag leaves of the text before it. -/
def cutBefore (t : Tag) (lone : Bool) (s : List Char) : List Char :=
  let s := if t.trimsBefore then Text.dropEndWhile Text.isWhite s else s
  if lone && t.mark.ownsLine then Text.dropEndWhile Text.isBlank s else s

/-- What the tokens before leave of a text. Spaces alone behind a trimming tag are not text at
all, and pay no break. A raw block always begins without its spaces. -/
def cutAfter (m : Margin) (raw : Bool) (s : List Char) : Option (List Char) :=
  if m.trims then
    if s.all Text.isSpace && !raw then none else some (s.dropWhile Text.isWhite)
  else some (payBreak m.owed (if raw then Text.skipSpace s else s))

/-- The mark of a partial with the blanks before it as its indentation. -/
def withIndent (before : List Char) : Mark → Mark
  | .partialCall phrase _ =>
    .partialCall phrase (String.ofList (Text.takeEndWhile Text.isBlank before))
  | mark => mark

/-- Notes whether a tag begins a line of its own, and what it is indented by. A tag that trims
what is before it does neither. -/
def placed (before : List Char) (lone : Bool) (t : Tag) : Tag :=
  if t.trimsBefore then t else { t with mark := withIndent before t.mark, leads := lone }

/-- The tokens with their final texts. -/
def settle (m : Margin) : List Token → List Token
  | [] => []
  | .text raw s :: rest =>
    let kept := cutAfter m raw s
    let tokens := settle { m with before := s, owed := m.owed && kept.isNone } rest
    match kept, rest with
    | none, _ => tokens
    | some s', .tag t :: after => .text raw (cutBefore t (alone m.first s after) s') :: tokens
    | some s', _ => .text raw s' :: tokens
  | .tag t :: rest =>
    let trims := if t.mark.isComment then m.trims else t.trimsAfter
    let lone := alone m.first m.before rest
    let owed := if t.mark.ownsLine then lone else m.owed
    .tag (placed m.before lone t) :: settle ⟨false, [], trims, owed⟩ rest

end Layout

/-- The tokens of a text with their final texts. -/
def Token.laidOut (tokens : List Token) : List Token :=
  Layout.settle ⟨true, [], false, false⟩ tokens

end Letterbook.Markup
