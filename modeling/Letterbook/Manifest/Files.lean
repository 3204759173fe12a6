import Letterbook.Disk
import Letterbook.Manifest.Toml
import Letterbook.Path

/-! Manifests in files. The extension tells the format; a folder is the merge of all manifests in
it and below, in the order of their paths, name by name. -/
namespace Letterbook.Manifest

/-- What is wrong with a file that can be read: it has neither extension, or its text is not a
manifest in the format of its extension. -/
inductive FileFault
  | format
  | json (misfit : Json.Misfit)
  | toml
  deriving DecidableEq, Repr

inductive LoadError
  | unread (error : ReadError)
  | invalid (path : String) (fault : FileFault)
  deriving DecidableEq, Repr

namespace FileFault

def message : FileFault → String
  | format => "expected a .toml or .json file"
  | json (.text _) => "JSON error: the text is not JSON"
  | json _ => "JSON error: the value has another shape"
  | toml => "TOML error: the text is not a document of this shape"

end FileFault

namespace LoadError

/-- The message with those of its causes. -/
def messages : LoadError → List String
  | unread e => ["IO error: " ++ e.message, e.message]
  | invalid path fault => [invalidMessage path fault.message]

end LoadError

/-- The manifest of a text in the format of an extension. -/
def ofText (extension : Option String) (text : String) : Except FileFault Manifest :=
  match extension with
  | some "toml" => match ofTomlText? text with
    | some m => .ok m
    | none => .error .toml
  | some "json" => (ofJsonText text).mapError .json
  | _ => .error .format

def loadFile [Monad m] (d : Disk m) (path : String) : m (Except LoadError Manifest) := do
  match ← d.read path with
  | .error e => pure (.error (.unread e))
  | .ok text => pure ((ofText (Path.extension? path) text).mapError (.invalid path))

/-- Loads manifests one after the other, up to the first that fails, and merges them. -/
def loadFiles [Monad m] (d : Disk m) : List String → Manifest → m (Except LoadError Manifest)
  | [], done => pure (.ok done)
  | path :: rest, done => do
    match ← loadFile d path with
    | .error e => pure (.error e)
    | .ok next => loadFiles d rest (done.merge next)

/-- Whether the extension of a path is one of a manifest. -/
def isManifestPath (path : String) : Bool :=
  Path.extension? path == some "toml" || Path.extension? path == some "json"

/-- The paths of manifests among others, in ascending order. -/
def manifestPaths (paths : List String) : List String :=
  (paths.filter isManifestPath).mergeSort fun a b =>
    (compare (Path.names a) (Path.names b)).isLE

/-- Loads all manifests at or below a path; there need be none. -/
def loadFolder [Monad m] (d : Disk m) (path : String) : m (Except LoadError Manifest) := do
  let paths ← d.walk path
  let files ← paths.filterM d.isFile
  loadFiles d (manifestPaths files) .empty

end Letterbook.Manifest
