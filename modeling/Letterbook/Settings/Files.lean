import Letterbook.Disk
import Letterbook.Path
import Letterbook.Settings.Sources

/-! Loading settings. Files of fixed names, the file of the user, a file that is asked for and the
environment follow each other, each over those before it. Only the file that is asked for has to be
there and to be text, but whatever text is there has to be a table of settings. -/
namespace Letterbook.Settings

/-- Why there are no settings. -/
inductive LoadError
  | missing (path : String)
  | unread (path : String) (error : ReadError)
  | invalid (path : String)
  | shape
  deriving DecidableEq, Repr

namespace LoadError

def message : LoadError → String
  | missing path => "configuration file \"" ++ path ++ "\" not found"
  | unread path e => "configuration file \"" ++ path ++ "\" cannot be read: " ++ e.message
  | invalid path => "configuration file \"" ++ path ++ "\" is not a table of settings"
  | shape => "a setting has a value that it cannot take"

end LoadError

/-- The files of fixed names, each over those before it. -/
def fixedNames : List String := ["barber.toml", ".barber.toml", "config/barber.toml"]

/-- The file of the user, in the folder of the user's configuration. -/
def userFile (configFolder : String) : String := Path.join configFolder "barber/barber.toml"

/-- A path with an extension added to its last name. -/
def withExtension (path : String) (format : Format) : String :=
  Path.upToName path ++ "." ++ format.extension

/-- The first of some paths that is a file. -/
def firstFile [Monad m] (d : Disk m) : List (String × Format) → m (Option (String × Format))
  | [] => pure none
  | (path, format) :: rest => do
    if ← d.isFile path then pure (some (path, format)) else firstFile d rest

/-- The file of a name: the one of just that name if its extension is known, else one with a known
extension more. -/
def findFile [Monad m] (d : Disk m) (name : String) : m (Option (String × Format)) := do
  let path := Path.join d.workingDirectory name
  if ← d.isFile path then
    pure (((Path.extension? path).bind Format.ofExtension?).map fun format => (path, format))
  else if (Path.fileName? path).isSome then
    firstFile d (Format.all.map fun format => (withExtension path format, format))
  else pure none

/-- A text without the byte order mark in front. -/
def withoutMark (text : String) : String :=
  match text.toList with
  | '\ufeff' :: rest => String.ofList rest
  | _ => text

/-- The layer of a file of this name; without a file that can be read there is none. -/
def fileLayer [Monad m] (d : Disk m) (required : Bool) (name : String) :
    m (Except LoadError Layer) := do
  match ← findFile d name with
  | none => pure (if required then .error (.missing name) else .ok [])
  | some (path, format) =>
    match ← d.read path with
    | .error e => pure (if required then .error (.unread name e) else .ok [])
    | .ok text =>
      match layerOfText? format (withoutMark text) with
      | some layer => pure (.ok layer)
      | none => pure (.error (.invalid name))

/-- The layers of several files. -/
def fileLayers [Monad m] (d : Disk m) :
    List (Bool × String) → m (Except LoadError (List Layer))
  | [] => pure (.ok [])
  | (required, name) :: rest => do
    match ← fileLayer d required name with
    | .error e => pure (.error e)
    | .ok layer =>
      match ← fileLayers d rest with
      | .error e => pure (.error e)
      | .ok layers => pure (.ok (layer :: layers))

/-- The names of the files that are looked for, with whether they have to be there. -/
def fileNames (user : Option String) (path : Option String) : List (Bool × String) :=
  fixedNames.map (false, ·) ++ user.toList.map (false, ·) ++ path.toList.map (true, ·)

/-- Loads settings: from files, the last of which is the one asked for, and the environment. -/
def load [Monad m] (d : Disk m) (configFolder : Option String)
    (environment : List (String × String)) (path : Option String) :
    m (Except LoadError Settings) := do
  let user ← match configFolder.map userFile with
    | none => pure none
    | some file => do pure (if ← d.present file then some file else none)
  match ← fileLayers d (fileNames user path) with
  | .error e => pure (.error e)
  | .ok layers =>
    match ofLayers? (layers ++ [layerOfEnvironment environment]) with
    | some settings => pure (.ok settings)
    | none => pure (.error .shape)

/-- The folder of manifests, as an absolute path. -/
def manifestFolder (s : Settings) (workingDirectory : String) : String :=
  Path.join workingDirectory s.directory

end Letterbook.Settings
