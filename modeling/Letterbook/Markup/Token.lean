import Letterbook.Markup.Grammar

/-! Cutting markup into text and tags. A text runs up to the next two braces that no backslash
keeps from opening a tag; behind the opening tag of a raw block it runs up to four braces. -/
namespace Letterbook.Markup

/-- What a tag does. A raw block has an opening and a closing tag of its own. -/
inductive Mark
  | output (phrase : Grammar.Phrase) (escaped : Bool)
  | opening (head : Grammar.Head)
  | chained (head : Grammar.Head)
  | otherwise
  | closing (name : List Char)
  | rawOpening (head : Grammar.Head)
  | rawClosing (name : List Char)
  | comment
  | decorator (head : Grammar.Head)
  | decoratorOpening (head : Grammar.Head)
  | partialCall (phrase : Grammar.PartialPhrase) (indent : String)
  | partialOpening (phrase : Grammar.PartialPhrase)

/-- A tag: where it starts, the sides on which it trims, its faulty literals in order, and whether
it begins a line of its own. -/
structure Tag where
  mark : Mark
  pos : Position
  trimsBefore : Bool
  trimsAfter : Bool
  faults : List String
  leads : Bool

inductive Token
  | text (raw : Bool) (s : List Char)
  | tag (t : Tag)

/-- The position behind these characters. -/
def Position.after (pos : Position) : List Char → Position
  | [] => pos
  | c :: rest =>
    (if c == '\n' then ⟨pos.line + 1, 1⟩ else ⟨pos.line, pos.column + 1⟩ : Position).after rest

namespace Grammar

/-- A reader between braces, with a trimming mark on either side. -/
def braced (opening closing : List Char) (inner : Grammar α) : Grammar (Bool × α × Bool) := do
  exactly opening
  skip
  let before ← optional (exactly ['~'])
  skip
  let a ← inner
  skip
  let after ← optional (exactly ['~'])
  skip
  exactly closing
  pure (before.isSome, a, after.isSome)

def two : List Char := ['\x7b', '\x7b']
def three : List Char := ['\x7b', '\x7b', '\x7b']
def four : List Char := ['\x7b', '\x7b', '\x7b', '\x7b']
def twoEnd : List Char := ['\x7d', '\x7d']
def threeEnd : List Char := ['\x7d', '\x7d', '\x7d']
def fourEnd : List Char := ['\x7d', '\x7d', '\x7d', '\x7d']

/-- A sign and what follows it. -/
def signed (sign : List Char) (inner : Grammar α) : Grammar α := do
  exactly sign
  skip
  inner

def otherwiseWord : Grammar Unit := exactly ['e', 'l', 's', 'e'] <|> exactly ['^']

/-- An `else` tag, alone or with the head of a chained block. -/
def elseTag : Grammar (Bool × Mark × Bool) :=
  braced two twoEnd (do otherwiseWord; pure .otherwise) <|>
    braced two twoEnd (do otherwiseWord; skip; .chained <$> head)

/-- A tag that prints: plain, in three braces, with inner braces, or behind an ampersand. -/
def outputTag : Grammar (Bool × Mark × Bool) :=
  braced two twoEnd ((Mark.output · true) <$> expression) <|>
    braced three threeEnd ((Mark.output · false) <$> expression) <|>
    braced two twoEnd (do
      let phrase ← signed ['\x7b'] expression
      skip
      exactly ['\x7d']
      pure (.output phrase false)) <|>
    braced two twoEnd (signed ['&'] (do
      let fuel ← bound
      let name ← call fuel <|> (.path <$> path)
      pure (.output ⟨name, [], []⟩ false)))

/-- The name in a closing tag; it may be missing. -/
def closingName : Grammar (List Char) := do
  let name ← optional (some1 (fun c => isNameChar c || isPartialChar c) <|> quotedName)
  pure (name.getD [])

/-- The opening or closing tag of a block of any kind, and the tags of decorators and partials. -/
def blockTag : Grammar (Bool × Mark × Bool) :=
  braced two twoEnd (signed ['#'] (.opening <$> head)) <|>
    braced four fourEnd (.rawOpening <$> head) <|>
    braced two twoEnd (signed ['*'] (.decorator <$> head)) <|>
    braced two twoEnd (signed ['#'] (signed ['*'] (.decoratorOpening <$> head))) <|>
    braced two twoEnd (signed ['>'] ((Mark.partialCall · "") <$> partialPhrase)) <|>
    braced two twoEnd (signed ['#'] (signed ['>'] (.partialOpening <$> partialPhrase))) <|>
    braced two twoEnd (signed ['/'] (.closing <$> closingName))

/-- The rest behind the first occurrence of a word. -/
def behind? (word : List Char) : List Char → Option (List Char)
  | [] => Text.strip? word []
  | c :: rest => Text.strip? word (c :: rest) <|> behind? word rest

/-- The rest behind a comment that starts with `--`, spaces before it aside, and ends likewise. -/
def longComment : Grammar Unit := do
  skip
  exactly ['-', '-']
  ofChars fun s => (behind? (['-', '-'] ++ twoEnd) s).map ((), ·)

/-- A comment: to `--` and two braces if it starts with `--` and they follow, else to two braces. -/
def commentTag : Grammar (Bool × Mark × Bool) := do
  exactly two
  exactly ['!']
  longComment <|> ofChars (fun s => (behind? twoEnd s).map ((), ·))
  pure (false, .comment, false)

def tag : Grammar (Bool × Mark × Bool) := elseTag <|> outputTag <|> blockTag <|> commentTag

def rawClosingTag : Grammar (Bool × Mark × Bool) :=
  braced four fourEnd (signed ['/'] (.rawClosing <$> closingName))

end Grammar

namespace Token

/-- A piece of text: what was taken, what it prints, and the rest. -/
structure Taken where
  source : List Char
  shown : List Char
  rest : List Char

def Taken.cons (source shown : List Char) (t : Taken) : Taken :=
  { t with source := source ++ t.source, shown := shown ++ t.shown }

/-- The text up to the opening braces. One backslash before two braces prints them; of several
the first is dropped and the braces open a tag. Each step takes a character. -/
def takeText (fuel : Nat) (opening : List Char) (s : List Char) : Taken :=
  match fuel with
  | 0 => ⟨[], [], s⟩
  | fuel + 1 =>
    match s with
    | [] => ⟨[], [], []⟩
    | '\\' :: _ =>
      let slashes := s.takeWhile (· == '\\')
      let after := s.dropWhile (· == '\\')
      match Text.strip? Grammar.two after with
      | none => (takeText fuel opening after).cons slashes slashes
      | some inner =>
        if slashes.length = 1 then
          match Text.strip? Grammar.two inner with
          | some inner => (takeText fuel opening inner).cons (slashes ++ Grammar.four) Grammar.four
          | none => (takeText fuel opening inner).cons (slashes ++ Grammar.two) Grammar.two
        else (takeText fuel opening after).cons slashes (slashes.drop 1)
    | c :: rest =>
      if opening.isPrefixOf s then ⟨[], [], s⟩ else (takeText fuel opening rest).cons [c] [c]

/-- The tokens from here on. A tag that does not fit its grammar fails the whole text. -/
def scan (fuel : Nat) (pos : Position) (raw : Bool) (s : List Char) : Option (List Token) :=
  match fuel with
  | 0 => none
  | fuel + 1 =>
    let taken := takeText (s.length + 1) (if raw then Grammar.four else Grammar.two) s
    let text := if raw || !taken.source.isEmpty then [Token.text raw taken.shown] else []
    let pos := pos.after taken.source
    if taken.rest.isEmpty then if raw then none else some text
    else do
      let ((before, mark, after), cursor) ←
        (if raw then Grammar.rawClosingTag else Grammar.tag) ⟨taken.rest, []⟩
      let width := taken.rest.length - cursor.rest.length
      let opensRaw := match mark with
        | .rawOpening _ => true
        | _ => false
      let tokens ← scan fuel (pos.after (taken.rest.take width)) opensRaw cursor.rest
      pure (text ++ .tag ⟨mark, pos, before, after, cursor.faults.reverse, false⟩ :: tokens)

/-- The tokens of a text, if every tag in it fits the grammar of tags. -/
def ofText? (s : List Char) : Option (List Token) := scan (s.length + 1) ⟨1, 1⟩ false s

end Token
end Letterbook.Markup
