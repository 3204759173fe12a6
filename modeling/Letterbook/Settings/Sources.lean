import Letterbook.Json.Reading
import Letterbook.Number.Word
import Letterbook.Settings
import Letterbook.Settings.Layer
import Letterbook.Toml.Document

/-! Where layers of settings come from, documents and environment variables, and what settings
the finished tree means. Scalars are converted where their meaning as text or as a truth is plain,
so that a value from the environment, whose kind is guessed, means what it says. -/
namespace Letterbook.Settings

/-- The name under which a table holds a moment, which is what the table then stands for. -/
def momentName : String := "$__toml_private_datetime"

/-- The moment that a table of these members stands for, if its first member says so; that member
has to be the spelling of a moment. -/
def heldMoment? : List (String × Toml.Value) → Option (Option String)
  | (name, v) :: _ =>
    if name == momentName then
      some (match v with
        | .str s => Toml.moment? s
        | _ => none)
    else none
  | [] => none

mutual

/-- A TOML value in a layer. A moment is its spelling. -/
def ofToml? : Toml.Value → Option Json
  | .str s => some (.str s)
  | .int i => some (.num (.int i))
  | .float x => some (.num (.float x))
  | .bool b => some (.bool b)
  | .moment spelling => some (.str spelling)
  | .arr items => (itemsOfToml? items).map .arr
  | .table members =>
    match heldMoment? members with
    | some moment => moment.map .str
    | none => (membersOfToml? members).map .object

def itemsOfToml? : List Toml.Value → Option (List Json)
  | [] => some []
  | v :: rest => do
    let item ← ofToml? v
    let items ← itemsOfToml? rest
    some (item :: items)

def membersOfToml? : List (String × Toml.Value) → Option (List (String × Json))
  | [] => some []
  | (name, v) :: rest => do
    let value ← ofToml? v
    let members ← membersOfToml? rest
    some ((name, value) :: members)

end

/-- The format of a settings file. -/
inductive Format
  | toml
  | json
  deriving DecidableEq, Repr

namespace Format

def ofExtension? : String → Option Format
  | "toml" => some toml
  | "json" => some json
  | _ => none

def extension : Format → String
  | toml => "toml"
  | json => "json"

def all : List Format := [toml, json]

end Format

/-- The value of a settings text. -/
def valueOfText? : Format → String → Option Json
  | .toml, text => (Toml.parse? text).bind fun members => ofToml? (.table members)
  | .json, text => (Json.parse text).toOption

/-- The layer of a settings text, whose value has to be a table. -/
def layerOfText? (format : Format) (text : String) : Option Layer :=
  match valueOfText? format text with
  | some (.obj members) => some members
  | _ => none

/-- How the names of environment variables that are settings start, in any case. -/
def variableStart : List Char := "barber__".toList

/-- The spelled place of a name in lower case: two underscores stand for a dot. -/
def dotted : List Char → List Char
  | '_' :: '_' :: rest => '.' :: dotted rest
  | c :: rest => c :: dotted rest
  | [] => []

/-- The value that an environment variable is taken for: a truth, an integer of 64 bits, a number,
else a text. -/
def guess (text : String) : Json :=
  let word := Text.lower text.toList
  if word == "true" then .bool true
  else if word == "false" then .bool false
  else match (Decimal.readInt? text.toList).filter isInt64 with
    | some i => .num (.int i)
    | none => match Decimal.read? text.toList with
      | some x => .num (.float x)
      | none => .str text

/-- The setting of an environment variable, if its name is one of a setting. -/
def settingOf? (entry : String × String) : Option (String × Json) :=
  (Text.strip? variableStart (Text.lower entry.1.toList).toList).map fun name =>
    (String.ofList (dotted name), guess entry.2)

def layerOfEnvironment (environment : List (String × String)) : Layer :=
  environment.filterMap settingOf?

/-- The number that a JSON integer beyond 64 bits with a sign stands for. -/
def narrow : Number → Number
  | .int i => if isInt64 i then .int i else .float (.ofInt i)
  | .float x => .float x

/-- A value as text. -/
def text? : Json → Option String
  | .str s => some s
  | .bool b => some (if b then "true" else "false")
  | .num n => match narrow n with
    | .int i => some (toString i)
    | .float x => some x.plainText
  | _ => none

/-- A value as a truth: a number other than zero, or one of four words in any case. -/
def truth? : Json → Option Bool
  | .bool b => some b
  | .num (.int i) => some (i != 0)
  | .num (.float x) => some (!x.isZero)
  | .str s =>
    let word := Text.lower s.toList
    if word ∈ ["1", "true", "on", "yes"] then some true
    else if word ∈ ["0", "false", "off", "no"] then some false
    else none
  | _ => none

/-- A value as a way of escaping: its word in any case, or a table with that one member. -/
def escaping? : Json → Option Markup.Escape
  | .str s => escape? (Text.lower s.toList)
  | .obj [(s, _)] => escape? (Text.lower s.toList)
  | _ => none

/-- A member of a section by its name, or in a list by its position. -/
def memberOf (j : Json) (index : Nat) (name : String) : Option Json :=
  match j with
  | .obj members => Table.lookup name members
  | .arr items => items[index]?
  | _ => none

/-- A setting: its standard value where it is absent, and nothing where its value has no meaning. -/
def settingOr (read? : Json → Option α) (standard : α) : Option Json → Option α
  | none => some standard
  | some j => read? j

/-- A section has to be a table or a list, if it is there. -/
def isSection : Option Json → Bool
  | none | some (.obj _) | some (.arr _) => true
  | _ => false

/-- The settings of a finished tree. -/
def ofTree? (root : Json) : Option Settings := do
  let sections := membersOf root
  let shop := Table.lookup "barbershop" sections
  let render := Table.lookup "render" sections
  let templates := Table.lookup "templates" sections
  let member (part : Option Json) (index : Nat) (name : String) : Option Json :=
    part.bind fun j => memberOf j index name
  if isSection shop && isSection render && isSection templates then
    let defaultLocale ← settingOr text? standard.defaultLocale (member shop 0 "default_locale")
    let escape ← settingOr escaping? standard.escape (member render 0 "escape")
    let strict ← settingOr truth? standard.strict (member render 1 "strict")
    let directory ← settingOr text? standard.directory (member templates 0 "dir")
    some ⟨defaultLocale, escape, strict, directory⟩
  else none

/-- The settings of layers, each over those before it. -/
def ofLayers? (layers : List Layer) : Option Settings := ofTree? (layers.foldl overlay (.obj []))

end Letterbook.Settings
