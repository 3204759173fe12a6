import Letterbook.Markup.Helper
import Letterbook.Text.Debug

/-! Filling a template. Rendering follows the tree; only the call of a partial leaves it, so a
bound on nested partial calls makes rendering total. Output grows at its end; inside an indented
partial the lines that its texts begin get the indentation. -/
namespace Letterbook.Markup

/-- A fault with the place of the innermost tag that has one. -/
structure RenderError where
  fault : RenderFault
  pos : Option Position
  deriving DecidableEq, Repr

/-- What has been printed, the partials defined so far, the latest first, and what indentation
depends on: whether the last text ended a line, whether the next one is indented at its front, and
whether the call in progress has printed a text. -/
structure Output where
  text : String
  partials : List (String × Template)
  ended : Bool
  indents : Bool
  wrote : Bool

/-- The output before anything is printed. -/
def Output.blank : Output := ⟨"", [], false, false, false⟩

abbrev Rendering := StateT Output (Except RenderError)

/-- Printing a body in a scope. -/
abbrev Body := Scope → Rendering Unit

namespace Render

/-- A computation that prints nothing. -/
def lift (x : Except RenderFault α) : Rendering α :=
  match x with
  | .ok a => pure a
  | .error fault => throw ⟨fault, none⟩

/-- Gives a fault inside a tag the place of the tag, unless it has a place. -/
def located (pos : Option Position) (r : Rendering α) : Rendering α := fun out =>
  match r out with
  | .ok a => .ok a
  | .error e => .error { e with pos := e.pos.or pos }

/-- The indentation behind every line break that is not the last character. -/
def indentLines (indent : String) : List Char → List Char
  | [] => []
  | ['\n'] => ['\n']
  | '\n' :: rest => '\n' :: indent.toList ++ indentLines indent rest
  | c :: rest => c :: indentLines indent rest

/-- Prints a text, indented as its scope asks. -/
def write (s : Scope) (text : String) : Rendering Unit :=
  if text.isEmpty then pure ()
  else modify fun out =>
    let chars := text.toList
    let lead := if out.indents && !chars.head?.any Text.isBreak then s.indent else ""
    let body := if s.indent.isEmpty then text else String.ofList (indentLines s.indent chars)
    let ended := chars.getLast?.any Text.isBreak
    { out with text := out.text ++ lead ++ body, ended, indents := ended, wrote := true }

/-- Prints characters as they are: they are not indented and do not count as a text. -/
def writePlain (text : String) : Rendering Unit :=
  modify fun out => { out with text := out.text ++ text }

/-- Prints a truth, which is never escaped or indented. -/
def writeTruth (b : Bool) : Rendering Unit := writePlain (if b then "true" else "false")

/-- A call whose first text is indented under a condition. A call that prints no text leaves the
indentation of the next text as it was. -/
def indenting (first : Output → Bool) (call : Rendering Unit) : Rendering Unit := do
  let before ← get
  set { before with indents := first before, wrote := false }
  call
  modify fun out =>
    if out.wrote then { out with indents := out.ended }
    else { out with indents := before.indents, wrote := before.wrote }

/-- What a computation prints, kept back from the output. -/
def captured (r : Rendering Unit) : Rendering String := do
  let before ← get
  set { before with text := "" }
  r
  let after ← get
  set { after with text := before.text }
  pure after.text

/-- Forgets behind a computation the partials that it defines. -/
def forgetting (r : Rendering Unit) : Rendering Unit := do
  let before ← get
  r
  modify fun out => { out with partials := before.partials }

/-- Prints a value; only the tags that ask for it leave it unescaped. -/
def writeValue (o : Options) (s : Scope) (escaped : Bool) (v : Json) : Rendering Unit :=
  let text := Value.print v
  write s (if escaped then Value.escaped o.escape text else text)

def writeOutcome (o : Options) (s : Scope) (escaped : Bool) : Outcome → Rendering Unit
  | .value v => writeValue o s escaped v
  | .truth b => writeTruth b
  | .nothing => pure ()

/-- A tag that prints. A name alone calls the helper of that name, if there is one. -/
def output (o : Options) (s : Scope) (name : Arg) (args : List Arg) (hash : List (String × Arg))
    (escaped : Bool) : Rendering Unit := do
  if args.isEmpty && hash.isEmpty then
    let helper ← lift (name.asName o s)
    match Helper.ofName? helper with
    | some h => writeOutcome o s escaped (← lift (h.call o ⟨[], []⟩))
    | none =>
      let actual ← lift (name.eval o s)
      if actual.found.isMissing then
        if o.strict then lift (.error (.missing actual.spelling)) else pure ()
      else writeValue o s escaped actual.found.json
  else
    let actuals ← lift (evalActuals o s args hash)
    let helper ← lift (name.asName o s)
    writeOutcome o s escaped (← lift (Helper.callNamed o helper actuals))

/-- The inverse of a block whose argument gives nothing to print; without one that is an error
in a strict engine. -/
def otherwise (o : Options) (s : Scope) (arg : Actual) (inverse : Option Body) : Rendering Unit :=
  match inverse with
  | some body => body s
  | none => if o.strict then lift (.error (.missing arg.spelling)) else pure ()

/-- The names of an item's frame. The key's name wins over the same name for the item. -/
def itemNames (names : BlockNames) (found : Found) (key : Option Json) : List (String × Meaning) :=
  let item : Meaning := match found.place? with
    | some _ => .here
    | none => .value found.json
  match names, key with
  | .none, _ => []
  | .value v, _ => [(v, item)]
  | .valueAndKey v k, some key => [(k, .value key), (v, item)]
  | .valueAndKey .., none => []

/-- One item of a collection with its key in the collection's place, and its key as a value. -/
structure Entry where
  key : String
  keyValue : Json
  item : Json

/-- The frame of the item at a position. -/
def itemFrame (collection : Found) (names : BlockNames) (count i : Nat) (keyed : Bool)
    (e : Entry) : Frame :=
  let found : Found := match collection.place? with
    | some place => .at (place ++ [e.key]) e.item
    | none => .value e.item
  let locals : List (String × Json) :=
    [("first", .bool (i == 0)), ("last", .bool (i + 1 == count)), ("index", .num (.int i))] ++
      if keyed then [("key", e.keyValue)] else []
  { Frame.on found with names := itemNames names found (some e.keyValue), locals }

/-- The body for each entry in turn, each in a frame of its own. -/
def eachEntry (s : Scope) (frame : Nat → Entry → Frame) (body : Body) :
    Nat → List Entry → Rendering Unit
  | _, [] => pure ()
  | i, e :: rest => do
    body (s.push (frame i e))
    eachEntry s frame body (i + 1) rest

/-- The entries of a collection and whether its keys are names. -/
def entries? : Json → Option (List Entry × Bool)
  | .arr items =>
    some ((items.zip (List.range items.length)).map fun (item, i) =>
      ⟨toString i, .num (.int i), item⟩, false)
  | .obj members => some (members.map fun (key, item) => ⟨key, .str key, item⟩, true)
  | _ => none

/-- The block over the items of a collection. An empty collection is printed by the inverse. The
items share the partials that they define. -/
def each (o : Options) (s : Scope) (arg : Actual) (names : BlockNames) (body : Body)
    (inverse : Option Body) : Rendering Unit :=
  match entries? arg.found.json with
  | some (entries, keyed) =>
    match entries, inverse with
    | [], some inverse => inverse s
    | entries, _ =>
      forgetting (eachEntry s (fun i e => itemFrame arg.found names entries.length i keyed e) body 0
        entries)
  | none => otherwise o s arg inverse

/-- The block inside a value. It keeps the data of the block around it. -/
def within (o : Options) (s : Scope) (arg : Actual) (names : BlockNames) (body : Body)
    (inverse : Option Body) : Rendering Unit :=
  if Value.truthy false arg.found.json then
    let frame := { Frame.on arg.found with
      names := match names with
        | .value _ => itemNames names arg.found none
        | _ => []
      locals := s.front.locals }
    forgetting (body (s.push frame))
  else otherwise o s arg inverse

/-- A choice between the two bodies of a block. -/
def choose (s : Scope) (holds : Bool) (body : Body) (inverse : Option Body) : Rendering Unit :=
  if holds then body s
  else match inverse with
    | some inverse => inverse s
    | none => pure ()

/-- A block. A helper that gives a truth chooses a body; a helper that gives a value prints it in
place of any body. -/
def block (o : Options) (s : Scope) (name : String) (args : List Arg) (hash : List (String × Arg))
    (names : BlockNames) (body : Body) (inverse : Option Body) : Rendering Unit := do
  let actuals ← lift (evalActuals o s args hash)
  match Helper.ofName? name with
  | none => lift (.error (.noHelper name))
  | some .whenTrue => do
    let holds ← lift (Helper.condition actuals)
    choose s holds body inverse
  | some .whenFalse => do
    let holds ← lift (Helper.condition actuals)
    choose s (!holds) body inverse
  | some .each => do
    let arg ← lift (actuals.at "each" 0)
    each o s arg names body inverse
  | some .within => do
    let arg ← lift (actuals.at "with" 0)
    within o s arg names body inverse
  | some .raw => body s
  | some h =>
    match ← lift (h.call o actuals) with
    | .truth b => choose s b body inverse
    | outcome => writeOutcome o s true outcome

/-- A decorator. The only one, `inline`, defines a partial. -/
def decorator (o : Options) (s : Scope) (name : String) (args : List Arg)
    (hash : List (String × Arg)) (body : Option Template) : Rendering Unit := do
  let actuals ← lift (evalActuals o s args hash)
  if name != "inline" then lift (.error (.noDecorator name))
  else
    let arg ← lift (actuals.at "inline" 0)
    match arg.found.json, body with
    | .str partialName, some body =>
      modify fun out => { out with partials := (partialName, body) :: out.partials }
    | .str _, none => lift (.error .noBody)
    | _, _ => lift (.error .notText)

/-- The name under which a partial prints the body it was called with. -/
def bodyName : String := "@partial-block"

/-- The frame of a partial: on its first argument, or else on what the frame around stands on,
with its named arguments put over that. It keeps the data of the block around it. -/
def partialFrame (s : Scope) (actuals : Helper.Actuals) : Except RenderFault Frame := do
  let base := match actuals.args.head? with
    | some arg => Frame.on arg.found
    | none => { s.front with names := [] }
  let frame ← if actuals.hash.isEmpty then pure base else do
    let found ← s.fromFrame base []
    pure (Frame.merged (Value.members found.json)
      (actuals.hash.map fun (name, a) => (name, a.found.json)))
  pure { frame with locals := s.front.locals }

/-- A partial in its own scope: the template defined under a name, or else the body of the call,
which is then printed as it is and has no body of its own. Before a template its body is printed to
a text, which is what the partial has for a body; the partials that it defines on the way are known
from then on. -/
def namedPartial (call : Scope → Template → Rendering Unit) (s : Scope) (name : String)
    (body : Option Body) : Rendering Unit := do
  match (← get).partials.lookup name, body with
  | some t, body => do
    let text ← body.mapM fun body => captured (body s)
    call { s with body := text } t
  | none, some body => body { s with body := none }
  | none, none => lift (.error (.noPartial name))

/-- The body of the call around, which is a text by now and stays as it is. Where there is none, the
body given here takes its place, in the scope that it stands in. -/
def outerBody (s : Scope) (body : Option Body) : Rendering Unit :=
  match s.body, body with
  | some text, _ => writePlain text
  | none, some body => body s
  | none, none => lift (.error .noPartialBlock)

/-- A partial call. Its arguments are evaluated even where nothing depends on them. -/
def partialCall (o : Options) (call : Scope → Template → Rendering Unit) (s : Scope)
    (name : PartialName) (args : List Arg) (hash : List (String × Arg)) (body : Option Body)
    (indent : String) : Rendering Unit := do
  let name ← match name with
    | .fixed name => pure name
    | .computed arg => lift (arg.asName o s)
  let actuals ← lift (evalActuals o s args hash)
  if name == bodyName then outerBody s body
  else
    let frame ← lift (partialFrame s actuals)
    forgetting (namedPartial call { s.push frame with indent := s.indent ++ indent } name body)

mutual

/-- One element. `call` prints the template of a partial call. -/
def element (o : Options) (call : Scope → Template → Rendering Unit) (s : Scope) :
    Element → Rendering Unit
  | .text t => write s t
  | .comment => pure ()
  | .output pos name args hash escaped => located pos (output o s name args hash escaped)
  | .block pos name args hash names body inverse leads =>
    located pos (indenting (fun out => out.indents || leads && out.ended)
      (block o s name args hash names (fun s => elements o call s body)
        (optionalBody o call inverse)))
  | .decorator pos name args hash body => located pos (decorator o s name args hash body)
  | .partialCall pos name args hash body indent leads =>
    located pos (indenting (fun out => leads && (out.ended || !indent.isEmpty))
      (partialCall o call s name args hash (optionalBody o call body) indent))

def elements (o : Options) (call : Scope → Template → Rendering Unit) (s : Scope) :
    List Element → Rendering Unit
  | [] => pure ()
  | e :: rest => do
    element o call s e
    elements o call s rest

def optionalBody (o : Options) (call : Scope → Template → Rendering Unit) :
    Option (List Element) → Option Body
  | none => none
  | some body => some fun s => elements o call s body

end

/-- A template with at most so many partial calls inside one another. -/
def template (o : Options) : Nat → Scope → Template → Rendering Unit
  | 0, _, _ => lift (.error .tooDeep)
  | depth + 1, s, t => elements o (template o depth) s t

/-- The bound on partial calls inside one another. -/
def maxDepth : Nat := 10000

end Render

/-- The text of a template filled from a value. -/
def Template.render (o : Options) (t : Template) (root : Json) : Except RenderError String :=
  (Render.template o Render.maxDepth (Scope.ofRoot root) t .blank).map fun r => r.2.text

namespace RenderFault

/-- A spelling, or its absence, in a fault. -/
def spelled : Option String → String
  | none => "None"
  | some s => "Some(" ++ Text.debug s ++ ")"

def message : RenderFault → String
  | .missing spelling => "Failed to access variable in strict mode " ++ spelled spelling
  | .badIndex key => "Cannot access array/vector with string index, " ++ key
  | .noHelper name => "Helper not found " ++ name
  | .noPartial name => "Partial not found " ++ name
  | .noPartialBlock => "Partial block cound not be found"
  | .noDecorator name => "Decorator not found " ++ name
  | .noArgument helper i =>
    "Helper/Decorator " ++ helper ++ " param at index " ++ toString i ++ " required but not found"
  | .noNamedArgument helper name =>
    "Helper/Decorator " ++ helper ++ " param with name " ++ name ++ " required but not found"
  | .badLogLevel level => "Invalid logging level: " ++ level
  | .notText => "Invalid param type, String expected"
  | .noBody => "Block content required"
  | .tooDeep => "Partial calls nested too deeply"

end RenderFault

namespace RenderError

def message (e : RenderError) : String :=
  match e.pos with
  | some pos =>
    "Error rendering \"Unnamed template\" line " ++ toString pos.line ++ ", col " ++
      toString pos.column ++ ": " ++ e.fault.message
  | none => "Error rendering \"Unnamed template\": " ++ e.fault.message

end RenderError
end Letterbook.Markup
