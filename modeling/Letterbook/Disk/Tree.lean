import Letterbook.Disk
import Letterbook.Path
import Letterbook.Table

/-! Trees of files, as disks on which nothing ever changes while a program runs. -/
namespace Letterbook

/-- The content of a file: a text, or bytes that are none. -/
inductive Content
  | text (s : String)
  | binary
  deriving DecidableEq, Repr, Inhabited

/-- The content in these bytes, which are a text if they are valid UTF-8. -/
def Content.ofBytes (bytes : ByteArray) : Content :=
  match String.fromUTF8? bytes with
  | some s => .text s
  | none => .binary

/-- Files by their names from the root on, folders that may be empty, and the working directory,
which is a folder as well. -/
structure FileTree where
  files : Table (List String) Content
  folders : List (List String)
  workingDirectory : String

namespace FileTree

/-- Folders are those that are declared and all that lead to a file or a folder. -/
def isFolder (t : FileTree) (place : List String) : Bool :=
  place.isEmpty || (t.files.keys.any fun file => place.isPrefixOf file && place != file) ||
    ((Path.names t.workingDirectory :: t.folders).any place.isPrefixOf)

/-- One step on the way to a place. Only from a folder one can go on. -/
def enter (t : FileTree) (place : List String) (name : String) :
    Except ReadError (List String) :=
  if t.isFolder place then
    if name == "" || name == "." then .ok place
    else if name == ".." then .ok place.dropLast
    else if name.utf8ByteSize ≤ Path.maxNameSize then .ok (place ++ [name])
    else .error .longPath
  else if t.files.contains place then .error .underFile
  else .error .missing

/-- The place at the end of the names of a path. -/
def follow (t : FileTree) (path : String) : Except ReadError (List String) :=
  (Path.pieces (Path.join t.workingDirectory path)).foldlM t.enter []

/-- What is wrong with a path whatever files there are. -/
def checkPath (path : String) : Except ReadError Unit :=
  if path.isEmpty then .error .missing
  else if Path.hasZero path then .error .zeroInPath
  else if path.utf8ByteSize ≤ Path.maxSize then .ok ()
  else .error .longPath

/-- The place that a path leads to; nothing need be there. -/
def locate (t : FileTree) (path : String) : Except ReadError (List String) := do
  checkPath path
  t.follow path

def read (t : FileTree) (path : String) : Except ReadError String := do
  let place ← t.locate path
  match t.files.find? place with
  | some (.text s) => .ok s
  | some .binary => .error .notText
  | none => .error (if t.isFolder place then .isFolder else .missing)

def isFile (t : FileTree) (path : String) : Bool :=
  match t.locate path with
  | .ok place => t.files.contains place
  | .error _ => false

def present (t : FileTree) (path : String) : Bool :=
  match t.locate path with
  | .ok place => t.files.contains place || t.isFolder place
  | .error _ => false

/-- The ways that lead to a place: its first names, from none of them to all. -/
def ways : List String → List (List String)
  | [] => [[]]
  | name :: rest => [] :: (ways rest).map (name :: ·)

/-- All places at which there is something: the files, the folders, and what leads to them. -/
def places (t : FileTree) : List (List String) :=
  (Table.ofList (((t.files.keys ++ Path.names t.workingDirectory :: t.folders).flatMap ways).map
    fun place => (place, ()))).keys

/-- What is at or below a path, as paths that start with it. -/
def walk (t : FileTree) (path : String) : List String :=
  match t.locate path with
  | .error _ => []
  | .ok place =>
    (t.places.filter place.isPrefixOf).map fun below =>
      Path.below path (below.drop place.length)

/-- The place of a file that a text can be written to. A slash at the end asks for a folder, as soon
as the way to the last name is there. -/
def locateNew (t : FileTree) (path : String) : Except ReadError (List String) := do
  checkPath path
  if Path.endsInSlash path then
    let folder ← t.follow (Path.beforeName path)
    let _ ← t.enter folder "."
    .error .isFolder
  else t.follow path

/-- The tree with a text written to a file, as far as its folder is there and it is no folder
itself. -/
def write (t : FileTree) (path text : String) : Except ReadError FileTree := do
  let place ← t.locateNew path
  if t.isFolder place then .error .isFolder
  else .ok { t with files := t.files.insert place (.text text) }

def disk (t : FileTree) : Disk Id where
  workingDirectory := t.workingDirectory
  read := t.read
  isFile := t.isFile
  present := t.present
  walk := t.walk

end FileTree
end Letterbook
