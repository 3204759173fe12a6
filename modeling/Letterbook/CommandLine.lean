import Letterbook.CommandLine.Arguments
import Letterbook.Manifest.Files
import Letterbook.Settings.Files

/-! The program: it builds a registry from settings and manifests, and lists it or fills one
document. A failure is told with its causes on one line, and so is a problem in a report. -/
namespace Letterbook.CommandLine

/-- What a run prints and the code it ends with. -/
structure Outcome where
  code : Nat
  out : String
  err : String
  deriving DecidableEq, Repr

/-- A failure as its message and those of its causes. -/
abbrev Causes := List String

/-- The surroundings of a run: the folder of the user's configuration and the environment. -/
structure Surroundings where
  configFolder : Option String
  environment : List (String × String)

/-- The registry of a manifest by these settings. -/
def registryOf (settings : Settings) (manifest : Manifest) : Except Causes Registry := do
  let draft ← settings.draft.mapError fun e => [e.message]
  let draft ← (manifest.install draft).mapError fun u => [u.message]
  draft.build.mapError fun report => [report.text]

/-- Loads the settings and the manifests, and builds the registry. -/
def load [Monad m] (d : Disk m) (around : Surroundings) (i : Invocation) :
    m (Except Causes Registry) := do
  match ← Settings.load d around.configFolder around.environment i.config with
  | .error e => pure (.error [e.message])
  | .ok settings =>
    let folder := i.manifests.getD (settings.manifestFolder d.workingDirectory)
    match ← Manifest.loadFolder d folder with
    | .error e => pure (.error (("loading manifests from " ++ folder) :: e.messages))
    | .ok manifest => pure (registryOf settings manifest)

def lines (ls : List String) : String := String.join (ls.map (· ++ "\n"))

/-- The line of a binding with its locales. -/
def bindingLine (r : Registry) (b : Binding) : String :=
  "  " ++ b.pair.text ++ " [" ++
    String.intercalate ", " ((r.locales b.pair).map Locale.tag) ++ "]"

/-- How much a registry has, and all its bindings. -/
def checkText (r : Registry) : String :=
  lines (("✅ " ++ toString r.documents.size ++ " Document(s), " ++ toString r.bindings.length ++
    " Barber(s)") :: r.bindings.map (bindingLine r))

/-- All bindings, or the documents that can be filled from one record schema. -/
def targetsText (r : Registry) : Option String → String
  | some source => lines (r.targets source)
  | none => lines (r.bindings.map fun b => b.pair.text)

/-- A filled document as laid out JSON, its locale first. -/
def filledText (f : Filled) : String :=
  lines [(Json.obj [("locale", f.locale.toJson), ("fields", textsToJson f.fields)]).pretty]

/-- Fills a document from the data of a JSON text. -/
def fillText (r : Registry) (pair : Pair) (locale : Locale) (data : String) :
    Except Causes String := do
  let data ← (Json.parse data).mapError fun _ => ["the data is not JSON"]
  let binding ← (r.binding pair).mapError fun report => [report.text]
  let filled ← (binding.fill data locale).mapError fun e => [e.message]
  .ok (filledText filled)

/-- What a command prints. -/
def perform [Monad m] (d : Disk m) (r : Registry) : Command → m (Except Causes String)
  | .check => pure (.ok (checkText r))
  | .targets source => pure (.ok (targetsText r source))
  | .render source target tag file =>
    match Locale.parse tag with
    | .error e => pure (.error [e.message])
    | .ok locale => do
      match ← d.read file with
      | .error e => pure (.error ["reading " ++ file, e.message])
      | .ok data => pure (fillText r ⟨source, target⟩ locale data)

def outcomeOf : Except Causes String → Outcome
  | .ok out => ⟨0, out, ""⟩
  | .error causes => ⟨1, "", lines [String.intercalate ": " causes]⟩

/-- Runs the program. -/
def run [Monad m] (d : Disk m) (around : Surroundings) (arguments : List String) : m Outcome := do
  match parse arguments with
  | .error e => pure ⟨2, "", lines [e.message]⟩
  | .ok (.help topic) => pure ⟨0, topic.text, ""⟩
  | .ok (.run i) =>
    match ← load d around i with
    | .error causes => pure (outcomeOf (.error causes))
    | .ok r => do pure (outcomeOf (← perform d r i.command))

end Letterbook.CommandLine
