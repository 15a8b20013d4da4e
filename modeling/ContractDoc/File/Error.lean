import ContractDoc.Text.Quoted

/-!
# File errors

Why a file cannot be read or written.  An error names the path as it was given,
unless the path cannot be one at all.
-/

namespace ContractDoc

open Text

/-- Why a file cannot be read or written. -/
inductive FileError where
  /-- There is no such file, or no directory to put it in. -/
  | missing (path : String)
  /-- The path leads through something that is not a directory. -/
  | notDirectory (path : String)
  | isDirectory (path : String)
  /-- The path, or a name on it, is longer than the system allows. -/
  | nameTooLong (path : String)
  /-- There is no access to what the path leads to or through. -/
  | forbidden (path : String)
  /-- The contents are not a text. -/
  | undecodable (path : String)
  /-- A source file that was asked for does not exist. -/
  | noSource (path : String)
  /-- The path holds a null byte, which no file name can have. -/
  | nullByte
  deriving DecidableEq, Repr

/-- The wording of a file error. -/
def FileError.message : FileError → String
  | missing path => "[Errno 2] No such file or directory: " ++ quotedString path
  | notDirectory path => "[Errno 20] Not a directory: " ++ quotedString path
  | isDirectory path => "[Errno 21] Is a directory: " ++ quotedString path
  | nameTooLong path => "[Errno 36] File name too long: " ++ quotedString path
  | forbidden path => "[Errno 13] Permission denied: " ++ quotedString path
  | undecodable path => "Not a valid text: " ++ quotedString path
  | noSource path => "Solidity file not found: " ++ path
  | nullByte => "embedded null byte"

end ContractDoc
