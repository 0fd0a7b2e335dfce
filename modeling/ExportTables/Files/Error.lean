/-!
# Why a file operation fails
-/

namespace ExportTables

/-- The reason why a file could not be read, written or replaced. -/
inductive FileError where
  | notFound
  | permissionDenied
  | alreadyExists
  | notADirectory
  | isADirectory
  | nameTooLong
  | tooManyLinks
  | invalidArgument
  /-- The path holds a character that no path can hold. -/
  | invalidPath
  /-- The bytes of the file are no text. -/
  | invalidText
  /-- Any other reason, in the words of the system. -/
  | other (message : String)
  deriving DecidableEq, Repr

/-- The reason in words. -/
def FileError.message : FileError → String
  | .notFound => "No such file or directory (os error 2)"
  | .permissionDenied => "Permission denied (os error 13)"
  | .alreadyExists => "File exists (os error 17)"
  | .notADirectory => "Not a directory (os error 20)"
  | .isADirectory => "Is a directory (os error 21)"
  | .invalidArgument => "Invalid argument (os error 22)"
  | .nameTooLong => "File name too long (os error 36)"
  | .tooManyLinks => "Too many levels of symbolic links (os error 40)"
  | .invalidPath => "file name contained an unexpected NUL byte"
  | .invalidText => "stream did not contain valid UTF-8"
  | .other message => message

/-- Why there is no temporary file. -/
inductive TemporaryError where
  /-- It could not be created, by this path if it came to one. -/
  | notCreated (path : Option String) (cause : FileError)
  /-- Its contents could not be written, and it has been removed again. -/
  | notWritten (cause : FileError)
  deriving DecidableEq, Repr

end ExportTables
