/-!
# Why a file operation failed
-/

namespace Spacecraft

/-- The reason a file operation gives for failing. -/
inductive FileError where
  /-- No file of that name exists. -/
  | missing (path : String)
  /-- The file refuses to be written. -/
  | refused (path : String)
  /-- The file is shorter than the part asked for. -/
  | truncated (path : String) (expected found : Nat)
  /-- A name on the way is a file, not a directory. -/
  | notADirectory (path : String)
  /-- The name is a directory, not a file. -/
  | isADirectory (path : String)
  /-- A file stands where a directory is needed. -/
  | alreadyExists (path : String)
  /-- A directory that still holds files cannot be replaced. -/
  | directoryNotEmpty (path : String)
  /-- A directory cannot be moved into itself. -/
  | insideItself (path : String)
  /-- The path does not end with the name of what is to be moved. -/
  | busy (path : String)
  /-- The path or one of its names is too long. -/
  | nameTooLong (path : String)
  /-- The text is no path. -/
  | unusable (path : String)
deriving DecidableEq, Repr

/-- The short name of an error. -/
def FileError.kind : FileError → String
  | .missing _ => "NotFound"
  | .refused _ => "Other"
  | .truncated _ _ _ => "UnexpectedEof"
  | .notADirectory _ => "NotADirectory"
  | .isADirectory _ => "IsADirectory"
  | .alreadyExists _ => "AlreadyExists"
  | .directoryNotEmpty _ => "DirectoryNotEmpty"
  | .insideItself _ => "InvalidInput"
  | .busy _ => "ResourceBusy"
  | .nameTooLong _ => "InvalidFilename"
  | .unusable _ => "InvalidInput"

/-- The words in which an error is reported. -/
def FileError.message : FileError → String
  | .missing path => s!"no such file: {path}"
  | .refused path => s!"injected write failure: {path}"
  | .truncated path expected found => s!"{path}: expected {expected} bytes, found {found}"
  | .notADirectory path => s!"not a directory: {path}"
  | .isADirectory path => s!"is a directory: {path}"
  | .alreadyExists path => s!"already exists: {path}"
  | .directoryNotEmpty path => s!"directory not empty: {path}"
  | .insideItself path => s!"cannot be moved into itself: {path}"
  | .busy path => s!"cannot be moved: {path}"
  | .nameTooLong path => s!"name too long: {path}"
  | .unusable path => s!"no path: {path}"

end Spacecraft
