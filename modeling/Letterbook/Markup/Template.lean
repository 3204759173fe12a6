import Letterbook.Markup.Debug
import Letterbook.Markup.Layout

/-! Trees from tokens. Blocks must nest, which is structure and fails the text as a whole; that a
closing tag bears the name of its opening tag, and that literals are JSON, is checked once the
structure stands, and the first fault in the text is reported. -/
namespace Letterbook.Markup

/-- The two families of blocks, as faults call them. -/
inductive BlockKind
  | helper
  | decorator
  deriving DecidableEq, Repr

/-- What is wrong in a text whose tags and nesting are right. -/
inductive Fault
  | literal (text : String)
  | mismatch (kind : BlockKind) (opened closing : String) (pos : Position)
  deriving DecidableEq, Repr

/-- Why a text is no template. -/
inductive Refusal
  | malformed
  | fault (f : Fault)
  deriving DecidableEq, Repr

/-- Tokens still to be used, and the faults met so far, the last one first. -/
structure Stock where
  tokens : List Token
  faults : List Fault

abbrev Assembly := StateT Stock Option

namespace Assembly

/-- Takes a tag that was seen in front, and notes its faults. -/
def take (t : Tag) (rest : List Token) : Assembly Unit :=
  modify fun stock => ⟨rest, (t.faults.map Fault.literal).reverse ++ stock.faults⟩

def note (f : Fault) : Assembly Unit := modify fun stock => { stock with faults := f :: stock.faults }

/-- Every character of a closing name belongs to the names of its kind. -/
def allows (p : Char → Bool) (name : List Char) : Assembly Unit :=
  if name.all p then pure () else failure

/-- The closing tag of a helper block bears the block's name. -/
def closeHelper (opened : String) : Assembly Unit := do
  match (← get).tokens with
  | .tag t :: rest =>
    match t.mark with
    | .closing name | .rawClosing name => do
      allows isNameChar name
      take t rest
      let closing := String.ofList name
      if closing != opened then note (.mismatch .helper opened closing t.pos)
    | _ => failure
  | _ => failure

/-- The closing tag of a decorator or partial block bears the block's name or none. -/
def closeDecorator (isPartial : Bool) (opened : String) : Assembly Unit := do
  match (← get).tokens with
  | .tag t :: rest =>
    match t.mark with
    | .closing name => do
      if isPartial then
        if name.head? != some '\'' then allows Grammar.isPartialChar name
      else allows isNameChar name
      take t rest
      let closing := String.ofList name
      if closing != "" && closing != opened then note (.mismatch .decorator opened closing t.pos)
    | _ => failure
  | _ => failure

mutual

/-- Elements up to a tag that ends or divides a block. Every step takes a token. -/
def elements (fuel : Nat) : Assembly (List Element) :=
  match fuel with
  | 0 => failure
  | fuel + 1 => do
    match (← get).tokens with
    | [] => pure []
    | .text _ s :: rest =>
      modify fun stock => { stock with tokens := rest }
      let more ← elements fuel
      pure (if s.isEmpty then more else .text (String.ofList s) :: more)
    | .tag t :: rest =>
      match t.mark with
      | .chained _ | .otherwise | .closing _ | .rawClosing _ => pure []
      | .comment => take t rest; (.comment :: ·) <$> elements fuel
      | .output p escaped =>
        take t rest
        (.output t.pos p.name p.args p.hash escaped :: ·) <$> elements fuel
      | .opening h | .rawOpening h => do
        take t rest
        let body ← elements fuel
        let inverse ← inverse fuel
        closeHelper h.name
        (.block (some t.pos) h.name h.args h.hash h.names body inverse t.leads :: ·) <$> elements fuel
      | .decorator h =>
        take t rest
        (.decorator t.pos h.name h.args h.hash none :: ·) <$> elements fuel
      | .decoratorOpening h => do
        take t rest
        let body ← elements fuel
        closeDecorator false h.name
        (.decorator t.pos h.name h.args h.hash (some body) :: ·) <$> elements fuel
      | .partialCall p indent =>
        take t rest
        (.partialCall t.pos p.name p.args p.hash none indent t.leads :: ·) <$> elements fuel
      | .partialOpening p => do
        take t rest
        let body ← elements fuel
        closeDecorator true p.name.debug
        (.partialCall t.pos p.name p.args p.hash (some body) "" t.leads :: ·) <$> elements fuel

/-- What stands behind `else`: a chained block, which takes all that follows in, or a body. -/
def inverse (fuel : Nat) : Assembly (Option (List Element)) :=
  match fuel with
  | 0 => failure
  | fuel + 1 => do
    match (← get).tokens with
    | .tag t :: rest =>
      match t.mark with
      | .chained h => do
        take t rest
        let body ← elements fuel
        let inverse ← inverse fuel
        pure (some [.block none h.name h.args h.hash h.names body inverse t.leads])
      | .otherwise => do
        take t rest
        some <$> elements fuel
      | _ => pure none
    | _ => pure none

end

end Assembly

namespace Template

/-- The template of laid out tokens: all of them must be used. -/
def ofTokens (tokens : List Token) : Except Refusal Template :=
  match Assembly.elements (tokens.length + 1) ⟨tokens, []⟩ with
  | some (elements, ⟨[], faults⟩) =>
    match faults.getLast? with
    | none => .ok elements
    | some f => .error (.fault f)
  | _ => .error .malformed

/-- The template of a text. -/
def parse (s : String) : Except Refusal Template :=
  match Token.ofText? s.toList with
  | none => .error .malformed
  | some tokens => ofTokens (Token.laidOut tokens)

end Template

namespace Fault

def BlockKind.word : BlockKind → String
  | .helper => "helper"
  | .decorator => "decorator"

/-- The fault in one line. -/
def reason : Fault → String
  | .literal text => "invalid parameter " ++ Text.debug text
  | .mismatch kind opened closing _ =>
    BlockKind.word kind ++ " " ++ Text.debug opened ++ " was opened, but " ++ Text.debug closing ++
      " is closing"

/-- A number set to the right of four columns. -/
def fourWide (n : Nat) : String :=
  let text := toString n
  "".pushn ' ' (4 - text.length) ++ text

/-- A mark under each byte of a line, raised at one of them. -/
def pointer (line : List Char) (column : Nat) : String :=
  let width := (String.ofList line).utf8ByteSize
  String.ofList ((List.range width).map fun i => if i = column then '^' else '-')

/-- The lines around a position, numbered from zero, with a pointer under the line itself. -/
def excerpt (source : String) (pos : Position) : String :=
  let lines := Text.lines source.toList
  let parts := (lines.zip (List.range lines.length)).map fun (line, n) =>
    if pos.line - 3 ≤ n ∧ n ≤ pos.line + 3 then
      fourWide n ++ " | " ++ String.ofList line ++ "\n" ++
        if n + 1 = pos.line then "     |" ++ pointer line pos.column ++ "\n" else ""
    else ""
  String.join parts

/-- The full text of a fault; one with a position shows the lines around it. -/
def message (source : String) (f : Fault) : String :=
  match f with
  | .literal _ => f.reason
  | .mismatch _ _ _ pos =>
    "Template error: " ++ f.reason ++ "\n    --> Template error in \"Unnamed\":" ++
      toString pos.line ++ ":" ++ toString pos.column ++ "\n     |\n" ++ excerpt source pos ++
      "     |\n     = reason: " ++ f.reason ++ "\n"

end Fault

namespace Refusal

/-- The full text of a refusal. -/
def message (source : String) : Refusal → String
  | .malformed => "Template error: invalid handlebars syntax"
  | .fault f => f.message source

end Refusal
end Letterbook.Markup
