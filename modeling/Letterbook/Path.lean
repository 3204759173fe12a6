import Letterbook.Text.Split

/-! File paths: names between slashes. A path that starts with a slash is absolute, any other is
meant from a folder. -/
namespace Letterbook.Path

def isAbsolute (path : String) : Bool := path.toList.head? == some '/'

/-- The path from a folder on; an absolute path stays as it is. -/
def join (folder path : String) : String :=
  if isAbsolute path then path
  else if folder.isEmpty || folder.toList.getLast? == some '/' then folder ++ path
  else folder ++ "/" ++ path

/-- The path on which these names follow. -/
def below (path : String) (names : List String) : String := names.foldl join path

/-- The pieces between the slashes, empty ones included. -/
def pieces (path : String) : List String :=
  (Text.split (· == '/') path.toList).map String.ofList

/-- The names on the way; an empty piece or a single dot is none. -/
def names (path : String) : List String := (pieces path).filter fun name => name != "" && name != "."

/-- A zero character, which no path may hold. -/
def hasZero (path : String) : Bool := path.toList.contains '\x00'

/-- The bound on the bytes of a name. -/
def maxNameSize : Nat := 255

/-- The bound on the bytes of a path. -/
def maxSize : Nat := 4095

def endsInSlash (path : String) : Bool := path.toList.getLast? == some '/'

/-- What stands in front of the last name. -/
def beforeName (path : String) : String :=
  String.ofList ((path.toList.reverse.dropWhile (· == '/')).dropWhile (· != '/')).reverse

/-- The last name, unless it leads up again. -/
def fileName? (path : String) : Option String := (names path).getLast?.filter (· != "..")

/-- The path without what stands behind its last name. -/
def upToName (path : String) : String :=
  String.intercalate "/" ((pieces path).reverse.dropWhile fun name =>
    name == "" || name == ".").reverse

/-- What follows the last dot of the last name, if something stands in front of that dot. -/
def extension? (path : String) : Option String := do
  let name ← fileName? path
  let back := name.toList.reverse
  let extension := (back.takeWhile (· != '.')).reverse
  match back.dropWhile (· != '.') with
  | '.' :: _ :: _ => some (String.ofList extension)
  | _ => none

end Letterbook.Path
