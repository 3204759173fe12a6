/-! Access to files, in whatever monad it takes place. All files that are read are texts. -/
namespace Letterbook

/-- Why the text of a file is not to be had. -/
inductive ReadError
  | missing
  | isFolder
  | underFile
  | notText
  | zeroInPath
  | longPath
  | other (reason : String)
  deriving DecidableEq, Repr, Inhabited

namespace ReadError

def message : ReadError → String
  | missing => "No such file or directory (os error 2)"
  | isFolder => "Is a directory (os error 21)"
  | underFile => "Not a directory (os error 20)"
  | notText => "stream did not contain valid UTF-8"
  | zeroInPath => "file name contained an unexpected NUL byte"
  | longPath => "File name too long (os error 36)"
  | other reason => reason

end ReadError

/-- The files that a program can see. Paths that are not absolute are meant from the working
directory; a walk gives all files and folders at or below a path, each once and in no particular
order. -/
structure Disk (m : Type → Type) where
  workingDirectory : String
  read : String → m (Except ReadError String)
  isFile : String → m Bool
  present : String → m Bool
  walk : String → m (List String)

end Letterbook
