import Letterbook.Json
import Letterbook.Markup.Path

/-! Parsed markup. Arguments nest through calls in parentheses, elements through the bodies of
blocks. White space control is settled before a tree is built, so trees hold final text. -/
namespace Letterbook.Markup

/-- Line and column of a tag's first brace, counted from one, in characters. -/
structure Position where
  line : Nat
  column : Nat
  deriving DecidableEq, Repr, Inhabited

/-- An argument: a path, a literal, or a call in parentheses. A call without arguments names a
helper by a path. -/
inductive Arg
  | path (p : Path)
  | literal (value : Json)
  | call (name : Path) (args : List Arg) (hash : List (String × Arg))
  deriving Repr

/-- The names that a block gives to its item and to the item's key. -/
inductive BlockNames
  | none
  | value (v : String)
  | valueAndKey (v k : String)
  deriving DecidableEq, Repr, Inhabited

/-- The name of a partial: given, or computed when it is called. -/
inductive PartialName
  | fixed (name : String)
  | computed (call : Arg)
  deriving Repr

/-- A piece of markup. A tag without arguments has its name alone as meaning; the inverse of a
block is what stands behind `else`, where a chained `else` tag is again a block, one without a
position of its own. Blocks and partials that begin a line of their own say so, since what they
print first may then be indented. -/
inductive Element
  | text (s : String)
  | comment
  | output (pos : Position) (name : Arg) (args : List Arg) (hash : List (String × Arg))
      (escaped : Bool)
  | block (pos : Option Position) (name : String) (args : List Arg) (hash : List (String × Arg))
      (names : BlockNames) (body : List Element) (inverse : Option (List Element)) (leads : Bool)
  | decorator (pos : Position) (name : String) (args : List Arg) (hash : List (String × Arg))
      (body : Option (List Element))
  | partialCall (pos : Position) (name : PartialName) (args : List Arg)
      (hash : List (String × Arg)) (body : Option (List Element)) (indent : String)
      (leads : Bool)
  deriving Repr

/-- A parsed text. -/
abbrev Template := List Element

end Letterbook.Markup
