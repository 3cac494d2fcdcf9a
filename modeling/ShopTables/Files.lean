/-!
# Files as they are found

What opening and reading a path gives: nothing, with the reason; a directory, which can be opened
but not read; or bytes.
-/

namespace ShopTables

/-- Why a path cannot be opened. -/
inductive FileFault where
  | notFound
  /-- A part of the path before the last is no directory. -/
  | notDirectory
  /-- A part of the path, or the whole of it, is longer than names may be. -/
  | nameTooLong
  /-- The path contains a null character. -/
  | nullInName
  | denied
  | other (reason : String)
  deriving DecidableEq

def FileFault.message : FileFault → String
  | .notFound => "No such file or directory (os error 2)"
  | .notDirectory => "Not a directory (os error 20)"
  | .nameTooLong => "File name too long (os error 36)"
  | .nullInName => "file name contained an unexpected NUL byte"
  | .denied => "Permission denied (os error 13)"
  | .other reason => reason

/-- What is found at a path. -/
inductive FileContent where
  | absent (fault : FileFault)
  | directory
  | bytes (content : List UInt8)
  deriving DecidableEq

abbrev Files := String → FileContent

end ShopTables
