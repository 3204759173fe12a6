import Letterbook.Json.Reading
import Letterbook.Json.Text
import Letterbook.Markup.Scope

/-! Arguments and helpers. A helper that does not print a body gives a value, a truth or nothing;
which of them decides how a tag prints it and what a call in parentheses is worth. -/
namespace Letterbook.Markup

/-- How substituted values are escaped. -/
inductive Escape
  | none
  | html
  deriving DecidableEq, Repr, Inhabited

/-- How an engine fills templates: its escaping, and whether what is missing is an error. -/
structure Options where
  escape : Escape
  strict : Bool
  deriving DecidableEq, Repr, Inhabited

/-- An evaluated argument, with its spelling if it was a path. -/
structure Actual where
  found : Found
  spelling : Option String

namespace Value

/-- Truth: false, null, the empty text and the empty collections are false; so is a number that
is not normal, or with `zeroCounts` no number at all. -/
def truthy (zeroCounts : Bool) : Json → Bool
  | .null => false
  | .bool b => b
  | .num n =>
    if zeroCounts then n.toBinary64 != .nan else n.toBinary64.isNormal
  | .str s => !s.isEmpty
  | .arr items => !items.isEmpty
  | .obj members => !members.isEmpty

mutual

/-- The printed form. -/
def print : Json → String
  | .null => ""
  | .bool b => if b then "true" else "false"
  | .num n => n.text
  | .str s => s
  | .arr items => "[" ++ String.intercalate ", " (printItems items) ++ "]"
  | .obj _ => "[object]"

def printItems : List Json → List String
  | [] => []
  | item :: rest => print item :: printItems rest

end

/-- The order of two values: numbers exactly, texts, truths, and a number beside the text of one. -/
def compare? : Json → Json → Option Ordering
  | .num m, .num n => m.compare? n
  | .str s, .str t => some (compare s t)
  | .bool a, .bool b => some (compare a b)
  | .num n, .str s => (Json.Numeral.number? s.toList).bind n.compare?
  | .str s, .num n => (Json.Numeral.number? s.toList).bind (·.compare? n)
  | _, _ => none

/-- The item at an index or the member at a key. -/
def item? : Json → Json → Option Json
  | .arr items, .num (.int (.ofNat i)) => items[i]?
  | .obj members, .str key => Table.lookup key members
  | _, _ => none

/-- The count of items or members, or of the bytes of a text; else zero. -/
def length : Json → Nat
  | .arr items => items.length
  | .obj members => members.length
  | .str s => s.utf8ByteSize
  | _ => 0

/-- Values under their positions, in ascending order of these as names. -/
def numbered (values : List Json) : List (String × Json) :=
  (values.zip (List.range values.length)).foldl (fun done (v, i) => Table.put (toString i) v done) []

/-- The members of a value: those of an object, or the items of an array or the characters of a text
under their positions. -/
def members : Json → List (String × Json)
  | .obj members => members
  | .arr items => numbered items
  | .str s => numbered (s.toList.map fun c => .str (String.singleton c))
  | _ => []

/-- One character escaped for HTML. -/
def escapeHtml (c : Char) : List Char :=
  match c with
  | '<' => "&lt;".toList
  | '>' => "&gt;".toList
  | '"' => "&quot;".toList
  | '&' => "&amp;".toList
  | '\'' => "&#x27;".toList
  | '\x60' => "&#x60;".toList
  | '=' => "&#x3D;".toList
  | c => [c]

def escaped (escape : Escape) (s : String) : String :=
  match escape with
  | .none => s
  | .html => String.ofList (s.toList.flatMap escapeHtml)

end Value

/-- What a helper without a body comes to. -/
inductive Outcome
  | value (v : Json)
  | truth (b : Bool)
  | nothing

/-- The comparisons between two values. -/
inductive Comparison
  | eq | ne | gt | gte | lt | lte
  deriving DecidableEq, Repr

namespace Comparison

def name : Comparison → String
  | .eq => "eq" | .ne => "ne" | .gt => "gt" | .gte => "gte" | .lt => "lt" | .lte => "lte"

def holds (c : Comparison) (x y : Json) : Bool :=
  match c with
  | .eq => x.same y
  | .ne => !x.same y
  | .gt => Value.compare? x y == some .gt
  | .gte => Value.compare? x y == some .gt || Value.compare? x y == some .eq
  | .lt => Value.compare? x y == some .lt
  | .lte => Value.compare? x y == some .lt || Value.compare? x y == some .eq

end Comparison

/-- The helpers. -/
inductive Helper
  | whenTrue | whenFalse | each | within | raw | lookup | log | len | not | and | or
  | comparison (c : Comparison)
  deriving DecidableEq, Repr

namespace Helper

def ofName? (name : String) : Option Helper :=
  match name with
  | "if" => some .whenTrue
  | "unless" => some .whenFalse
  | "each" => some .each
  | "with" => some .within
  | "raw" => some .raw
  | "lookup" => some .lookup
  | "log" => some .log
  | "len" => some .len
  | "not" => some .not
  | "and" => some .and
  | "or" => some .or
  | name => ([Comparison.eq, .ne, .gt, .gte, .lt, .lte].find? (·.name == name)).map .comparison

/-- The arguments of a call, by place and by name. -/
structure Actuals where
  args : List Actual
  hash : List (String × Actual)

/-- The value of a named argument. -/
def Actuals.named? (a : Actuals) (name : String) : Option Json :=
  (a.hash.lookup name).map (·.found.json)

/-- An argument that must be given. -/
def Actuals.at (a : Actuals) (helper : String) (i : Nat) : Except RenderFault Actual :=
  match a.args[i]? with
  | some arg => .ok arg
  | none => .error (.noArgument helper i)

/-- An argument that must be given and, if the engine is strict, must not be missing. -/
def Actuals.present (o : Options) (a : Actuals) (i : Nat) (fault : RenderFault) :
    Except RenderFault Json :=
  match a.args[i]? with
  | some arg => if o.strict && arg.found.isMissing then .error fault else .ok arg.found.json
  | none => .error fault

/-- The condition of `if`, which `unless` shares together with the name in its fault. -/
def condition (a : Actuals) : Except RenderFault Bool := do
  let arg ← a.at "if" 0
  let zeroCounts := match a.named? "includeZero" with
    | some (.bool b) => b
    | _ => false
  pure (Value.truthy zeroCounts arg.found.json)

/-- Levels are words of five, in any case. -/
def isLogLevel (level : String) : Bool :=
  ["error", "warn", "info", "debug", "trace"].contains (Text.lower level.toList)

/-- A helper without a body. Those that only print a body come to nothing, after the same checks
as with one. -/
def call (o : Options) (h : Helper) (a : Actuals) : Except RenderFault Outcome := do
  match h with
  | .whenTrue | .whenFalse => let _ ← condition a; pure .nothing
  | .each => let _ ← a.at "each" 0; pure .nothing
  | .within =>
    let arg ← a.at "with" 0
    if o.strict && !Value.truthy false arg.found.json then .error (.missing arg.spelling)
    else pure .nothing
  | .raw => pure .nothing
  | .lookup =>
    let collection ← a.at "lookup" 0
    let index ← a.at "lookup" 1
    match Value.item? collection.found.json index.found.json with
    | some v => pure (.value v)
    | none => if o.strict then .error (.missing none) else pure (.value .null)
  | .log =>
    match a.named? "level" with
    | some (.str level) =>
      if isLogLevel level then pure .nothing else .error (.badLogLevel level)
    | _ => pure .nothing
  | .len =>
    let x ← a.present o 0 (.noNamedArgument "len" "x")
    pure (.value (.num (.int (Value.length x))))
  | .not => let x ← a.present o 0 (.noArgument "not" 0); pure (.truth (!Value.truthy false x))
  | .and => pure (.truth (a.args.all fun arg => Value.truthy false arg.found.json))
  | .or => pure (.truth (a.args.any fun arg => Value.truthy false arg.found.json))
  | .comparison c =>
    let x ← a.present o 0 (.noArgument c.name 0)
    let y ← a.present o 1 (.noArgument c.name 1)
    pure (.truth (c.holds x y))

/-- A helper by its name. -/
def callNamed (o : Options) (name : String) (a : Actuals) : Except RenderFault Outcome :=
  match ofName? name with
  | some h => h.call o a
  | none => .error (.noHelper name)

end Helper

/-- What a call in parentheses is worth: a helper that prints nothing is worth an empty text. -/
def Outcome.json : Outcome → Json
  | .value v => v
  | .truth b => .bool b
  | .nothing => .str ""

mutual

/-- The value of an argument. A call takes its arguments before its helper is looked for. -/
def Arg.eval (o : Options) (s : Scope) : Arg → Except RenderFault Actual
  | .path p => do pure ⟨← s.resolve p, some p.spelling⟩
  | .literal v => pure ⟨.value v, none⟩
  | .call name args hash => do
    let args ← Arg.evalList o s args
    let hash ← Arg.evalHash o s hash
    let outcome ← Helper.callNamed o name.spelling ⟨args, hash⟩
    pure ⟨.value outcome.json, none⟩

def Arg.evalList (o : Options) (s : Scope) : List Arg → Except RenderFault (List Actual)
  | [] => pure []
  | arg :: rest => do
    let first ← arg.eval o s
    let others ← Arg.evalList o s rest
    pure (first :: others)

def Arg.evalHash (o : Options) (s : Scope) :
    List (String × Arg) → Except RenderFault (List (String × Actual))
  | [] => pure []
  | (key, arg) :: rest => do
    let first ← arg.eval o s
    let others ← Arg.evalHash o s rest
    pure ((key, first) :: others)

end

/-- The name that an argument is when it stands for one: a path by its spelling. -/
def Arg.asName (o : Options) (s : Scope) : Arg → Except RenderFault String
  | .path p => pure p.spelling
  | .literal v => pure (Value.print v)
  | arg => do pure (Value.print (← arg.eval o s).found.json)

/-- The arguments of a tag. -/
def evalActuals (o : Options) (s : Scope) (args : List Arg) (hash : List (String × Arg)) :
    Except RenderFault Helper.Actuals := do
  let args ← Arg.evalList o s args
  let hash ← Arg.evalHash o s hash
  pure ⟨args, hash⟩

end Letterbook.Markup
