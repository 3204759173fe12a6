import Letterbook.CommandLine

/-! The program as a process: its files, its environment and its streams. -/
namespace Letterbook

/-- The number of a system error, which may come negated. -/
def errorNumber (code : UInt32) : UInt32 := min code (0 - code)

/-- What a failed system call means for reading. -/
def readErrorOf : IO.Error → ReadError
  | .noFileOrDirectory .. => .missing
  | .inappropriateType _ code _ => if errorNumber code == 20 then .underFile else .isFolder
  | .invalidArgument _ code details =>
    if errorNumber code == 36 then .longPath else .other details
  | e => .other e.toString

def readFile (path : String) : IO (Except ReadError String) := do
  if Path.hasZero path then return .error .zeroInPath
  match ← (IO.FS.readBinFile path).toBaseIO with
  | .ok bytes => return match String.fromUTF8? bytes with
    | some text => .ok text
    | none => .error .notText
  | .error e => return .error (readErrorOf e)

/-- Something is at the end of a path. One that leads nowhere cannot be resolved. -/
def isPresent (path : String) : IO Bool := do
  try (← IO.FS.realPath path).pathExists catch _ => pure false

def isFolder (path : String) : IO Bool := do
  try (← IO.FS.realPath path).isDir catch _ => pure false

def isFileThere (path : String) : IO Bool := return (← isPresent path) && !(← isFolder path)

/-- What is at or below a path. Links to folders are not followed, and folders that cannot be
listed have nothing in them. -/
partial def walkFrom (path : String) : IO (List String) := do
  if ← isFolder path then
    let entries ← try (← IO.FS.realPath path).readDir catch _ => pure #[]
    let found ← entries.toList.mapM fun entry => do
      let below := Path.join path entry.fileName
      let linked ← try
        pure ((← entry.path.symlinkMetadata).type matches .symlink) catch _ => pure false
      if linked && (← isFolder below) then pure [below] else walkFrom below
    return path :: found.flatten
  else return if ← isPresent path then [path] else []

/-- The files of the process. -/
def processDisk : IO (Disk IO) := do
  let folder ← IO.currentDir
  return ⟨folder.toString, readFile, isFileThere, isPresent, walkFrom⟩

/-- An entry of the environment: a name, an equals sign and a value. -/
def environmentEntry (entry : List Char) : Option (String × String) :=
  match entry.dropWhile (· != '=') with
  | _ :: value => some (String.ofList (entry.takeWhile (· != '=')), String.ofList value)
  | [] => none

/-- The environment as the system shows it: entries that each end in a zero. One that is not all
text counts as empty. -/
def environment : IO (List (String × String)) := do
  match ← readFile "/proc/self/environ" with
  | .error _ => return []
  | .ok text => return (Text.split (· == '\x00') text.toList).filterMap environmentEntry

/-- The folder of the user's configuration. -/
def configFolder : IO (Option String) := do
  match ← IO.getEnv "XDG_CONFIG_HOME" with
  | some folder => if Path.isAbsolute folder then return some folder else homeConfig
  | none => homeConfig
where
  /-- The usual place for it. -/
  homeConfig : IO (Option String) :=
    return (← IO.getEnv "HOME").map fun home => Path.join home ".config"

end Letterbook

/-- Runs the program and ends with its code. -/
def main (arguments : List String) : IO UInt32 := do
  let around := ⟨← Letterbook.configFolder, ← Letterbook.environment⟩
  let outcome ← Letterbook.CommandLine.run (← Letterbook.processDisk) around arguments
  (← IO.getStdout).putStr outcome.out
  (← IO.getStderr).putStr outcome.err
  return UInt32.ofNat outcome.code
