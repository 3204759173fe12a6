import Letterbook.Json.Reading
import Letterbook.Markup.Tree

/-! What stands between the braces of a tag. Reading is by ordered choice: the first alternative
that fits is taken and not reconsidered. A literal that fits the grammar of literals but is no
JSON is a fault, noted apart from failure, since a text with a fault elsewhere correct is
reported by its fault. -/
namespace Letterbook.Markup

/-- A point in a text: what is still to be read, and the faulty literals met so far, the last
one first. -/
structure Cursor where
  rest : List Char
  faults : List String

/-- A reader either fails, taking nothing, or moves the cursor. -/
abbrev Grammar := StateT Cursor Option

namespace Grammar

/-- Skips spaces. -/
def skip : Grammar Unit := modify fun c => { c with rest := Text.skipSpace c.rest }

/-- Exactly these characters. -/
def exactly (word : List Char) : Grammar Unit := fun c =>
  (Text.strip? word c.rest).map fun rest => ((), { c with rest })

/-- One or more characters of a class. -/
def some1 (p : Char → Bool) : Grammar (List Char) := fun c =>
  let taken := c.rest.takeWhile p
  if taken.isEmpty then none else some (taken, { c with rest := c.rest.dropWhile p })

/-- Succeeds where the reader fails, and takes nothing. -/
def notNext (g : Grammar α) : Grammar Unit := fun c =>
  match g c with
  | some _ => none
  | none => some ((), c)

/-- The reader, or nothing. -/
def optional (g : Grammar α) : Grammar (Option α) := fun c =>
  match g c with
  | some (a, c) => some (some a, c)
  | none => some (none, c)

/-- The reader as often as it fits and takes something. -/
def many (g : Grammar α) (c : Cursor) : Option (List α × Cursor) :=
  match g c with
  | none => some ([], c)
  | some (a, next) =>
    if next.rest.length < c.rest.length then
      (many g next).map fun (more, last) => (a :: more, last)
    else some ([a], next)
termination_by c.rest.length

/-- A reader that works on plain characters. -/
def ofChars (f : List Char → Option (α × List Char)) : Grammar α := fun c =>
  (f c.rest).map fun (a, rest) => (a, { c with rest })

def identifier : Grammar (List Char) := some1 isNameChar

def path : Grammar Path := ofChars Path.read?

end Grammar

namespace Literal

/-- The rest behind a string body and its closing quote. A backslash must begin an escape, and
only the string's own quote can be escaped. -/
def stringEnd? (quote : Char) : List Char → Option (List Char)
  | [] => none
  | '\\' :: 'u' :: a :: b :: c :: d :: rest =>
    if [a, b, c, d].all (Json.Quoted.hexValue? · |>.isSome) then stringEnd? quote rest else none
  | '\\' :: c :: rest =>
    if c == quote || ['\\', '/', 'b', 'f', 'n', 'r', 't'].contains c then stringEnd? quote rest
    else none
  | c :: rest => if c == quote then some rest else if c == '\\' then none else stringEnd? quote rest

/-- The rest behind a word that no name goes on from. -/
def wordEnd? (word s : List Char) : Option (List Char) :=
  (Text.strip? word s).bind fun rest =>
    if rest.head?.any isNameChar then none else some rest

/-- The rest behind a numeral: digits, a point, digits, and an exponent with a capital `E`. -/
def numberEnd? (s : List Char) : Option (List Char) :=
  let s := (Text.strip? ['-'] s).getD s
  let (whole, s) := Decimal.takeDigits s
  let s := (Text.strip? ['.'] s).getD s
  let (_, s) := Decimal.takeDigits s
  let s := match s with
    | 'E' :: rest =>
      let (digits, after) := Decimal.takeDigits ((Text.strip? ['-'] rest).getD rest)
      if digits.isEmpty then s else after
    | s => s
  if whole.isEmpty || s.head?.any isNameChar then none else some s

mutual

/-- The rest behind a literal. -/
def endOf? (fuel : Nat) (s : List Char) : Option (List Char) :=
  match fuel with
  | 0 => none
  | fuel + 1 =>
    match s with
    | '"' :: rest => stringEnd? '"' rest
    | '\'' :: rest => stringEnd? '\'' rest
    | '[' :: rest =>
      let rest := Text.skipSpace rest
      itemsEnd? fuel ((endOf? fuel rest).getD rest)
    | '\x7b' :: rest =>
      let rest := Text.skipSpace rest
      membersEnd? fuel ((memberEnd? fuel rest).getD rest)
    | s =>
      numberEnd? s <|> wordEnd? "null".toList s <|> wordEnd? "true".toList s <|>
        wordEnd? "false".toList s

/-- The rest behind the further items of an array. -/
def itemsEnd? (fuel : Nat) (s : List Char) : Option (List Char) :=
  match fuel with
  | 0 => none
  | fuel + 1 =>
    match Text.skipSpace s with
    | ']' :: rest => some rest
    | ',' :: rest => (endOf? fuel (Text.skipSpace rest)).bind (itemsEnd? fuel)
    | _ => none

/-- The rest behind one member of an object. -/
def memberEnd? (fuel : Nat) (s : List Char) : Option (List Char) :=
  match fuel with
  | 0 => none
  | fuel + 1 =>
    let key := match s with
      | '"' :: rest => stringEnd? '"' rest
      | '\'' :: rest => stringEnd? '\'' rest
      | _ => none
    key.bind fun rest =>
      match Text.skipSpace rest with
      | ':' :: rest => endOf? fuel (Text.skipSpace rest)
      | _ => none

/-- The rest behind the further members of an object. -/
def membersEnd? (fuel : Nat) (s : List Char) : Option (List Char) :=
  match fuel with
  | 0 => none
  | fuel + 1 =>
    match Text.skipSpace s with
    | '\x7d' :: rest => some rest
    | ',' :: rest => (memberEnd? fuel (Text.skipSpace rest)).bind (membersEnd? fuel)
    | _ => none

end

/-- The body of a string in single quotes as one in double quotes. -/
def requote : List Char → List Char
  | [] => []
  | '\\' :: '\'' :: rest => '\'' :: requote rest
  | '"' :: rest => '\\' :: '"' :: requote rest
  | c :: rest => c :: requote rest

/-- The value of a literal, if it is one. -/
def value? (s : List Char) : Option Json :=
  let text := match s with
    | '\'' :: body => '"' :: requote body.dropLast ++ ['"']
    | s => s
  (Json.parse (String.ofList text)).toOption

end Literal

namespace Grammar

/-- A literal; one without a value is a fault. -/
def literal : Grammar Json := fun c =>
  (Literal.endOf? (c.rest.length + 1) c.rest).map fun rest =>
    let text := c.rest.take (c.rest.length - rest.length)
    match Literal.value? text with
    | some value => (value, { c with rest })
    | none => (.null, ⟨rest, String.ofList text :: c.faults⟩)

/-- An argument as given: with a name in front, or by its place. -/
abbrev Given := Option String × Arg

/-- The arguments given by place. -/
def positional (given : List Given) : List Arg :=
  given.filterMap fun g => if g.1.isNone then some g.2 else none

/-- The arguments given by name, in order of the names; the last of a name counts. -/
def named (given : List Given) : List (String × Arg) :=
  given.foldl (fun done g => match g.1 with
    | some key => Table.put key g.2 done
    | none => done) []

/-- The words that are no arguments where no name goes on from them or comes next. -/
def keyword : Grammar Unit := do
  exactly ['a', 's'] <|> exactly ['e', 'l', 's', 'e']
  skip
  notNext (some1 isNameChar)

mutual

/-- One argument. -/
def arg (fuel : Nat) : Grammar Arg :=
  match fuel with
  | 0 => failure
  | fuel + 1 => do
    notNext keyword
    (.literal <$> literal) <|> (.path <$> path) <|> call fuel

/-- A call in parentheses: a name with arguments, or a path alone. -/
def call (fuel : Nat) : Grammar Arg :=
  match fuel with
  | 0 => failure
  | fuel + 1 => do
    exactly ['(']
    skip
    let inner ← applied fuel <|> ((fun p => Arg.call p [] []) <$> path)
    skip
    exactly [')']
    pure inner

/-- A name and at least one argument. -/
def applied (fuel : Nat) : Grammar Arg :=
  match fuel with
  | 0 => failure
  | fuel + 1 => do
    let name ← identifier
    let given ← many (do skip; given fuel)
    if given.isEmpty then failure
    pure (.call (Path.ofName name) (positional given) (named given))

/-- A named argument or a positional one. -/
def given (fuel : Nat) : Grammar Given :=
  match fuel with
  | 0 => failure
  | fuel + 1 =>
    (do
      let key ← identifier
      skip
      exactly ['=']
      skip
      let value ← arg fuel
      pure (some (String.ofList key), value)) <|>
    ((fun a => (none, a)) <$> arg fuel)

end

/-- A bound on the nesting of what is to be read. -/
def bound : Grammar Nat := fun c => some (c.rest.length + 1, c)

/-- What a tag says: a name, its arguments and its named arguments. -/
structure Phrase where
  name : Arg
  args : List Arg
  hash : List (String × Arg)

/-- A name with arguments, or a path or call alone. -/
def expression : Grammar Phrase := do
  let fuel ← bound
  (do match ← applied fuel with
      | .call name args hash => pure ⟨.path name, args, hash⟩
      | other => pure ⟨other, [], []⟩) <|>
    (do
      let name ← call fuel <|> (.path <$> path)
      pure ⟨name, [], []⟩)

/-- The names between bars behind `as`. -/
def blockNames : Grammar BlockNames := do
  exactly ['a', 's']
  skip
  exactly ['|']
  skip
  let value ← identifier
  skip
  let key ← optional (do let key ← identifier; skip; pure key)
  exactly ['|']
  match key with
  | none => pure (.value (String.ofList value))
  | some key => pure (.valueAndKey (String.ofList value) (String.ofList key))

/-- The head of a block: a name, any arguments, and the names it gives. -/
structure Head where
  name : String
  args : List Arg
  hash : List (String × Arg)
  names : BlockNames

def head : Grammar Head := do
  let fuel ← bound
  let name ← identifier
  let given ← many (do skip; given fuel)
  let names ← optional (do skip; blockNames)
  pure ⟨String.ofList name, positional given, named given, names.getD .none⟩

/-- The characters of a partial's plain name. -/
def isPartialChar (c : Char) : Bool :=
  c.isAlphanum || c == '-' || c == '_' || c == '/' || c == '.' || c == '@' || 0x80 ≤ c.toNat

/-- The characters up to a quote that no backslash precedes, and the rest from there. -/
def spanQuoted : List Char → List Char × List Char
  | [] => ([], [])
  | '\\' :: '\'' :: rest => let (name, rest) := spanQuoted rest; ('\\' :: '\'' :: name, rest)
  | c :: rest =>
    if c == '\'' then ([], c :: rest)
    else let (name, rest) := spanQuoted rest; (c :: name, rest)

/-- A name in single quotes, which stay part of it, as does a backslash before a quote in it. -/
def quotedName : Grammar (List Char) := do
  exactly ['\'']
  let name ← ofChars fun s =>
    let (name, rest) := spanQuoted s
    if name.isEmpty then none else some (name, rest)
  exactly ['\'']
  pure ('\'' :: name ++ ['\''])

/-- The name of a partial: plain or quoted, else computed by a call, else spelled as a path. -/
def partialName : Grammar PartialName := do
  let fuel ← bound
  ((fun s => .fixed (String.ofList s)) <$> (some1 isPartialChar <|> quotedName)) <|>
    (.computed <$> call fuel) <|> ((fun p => .fixed p.spelling) <$> path)

/-- What calls a partial. -/
structure PartialPhrase where
  name : PartialName
  args : List Arg
  hash : List (String × Arg)

def partialPhrase : Grammar PartialPhrase := do
  let fuel ← bound
  let name ← partialName
  let given ← many (do skip; given fuel)
  pure ⟨name, positional given, named given⟩

end Grammar
end Letterbook.Markup
