/-
Why something cannot be done with a file or a directory, in the words of the operating system.
-/
namespace RhythmChart.Storage

/-- why an operation failed -/
inductive Fault where
  | missing
  | denied
  | alreadyThere
  | notADirectory
  | isADirectory
  | nameTooLong
  /-- a text was to be read, but the bytes are no UTF-8 -/
  | notText
  /-- a path holds the character zero -/
  | zeroInPath
  /-- only files can be copied -/
  | notAFile
  /-- anything else that an operating system reports -/
  | other (text : String)
  deriving DecidableEq, Repr

def Fault.message : Fault → String
  | missing => "No such file or directory (os error 2)"
  | denied => "Permission denied (os error 13)"
  | alreadyThere => "File exists (os error 17)"
  | notADirectory => "Not a directory (os error 20)"
  | isADirectory => "Is a directory (os error 21)"
  | nameTooLong => "File name too long (os error 36)"
  | notText => "stream did not contain valid UTF-8"
  | zeroInPath => "file name contained an unexpected NUL byte"
  | notAFile => "the source path is neither a regular file nor a symlink to a regular file"
  | other text => text

end RhythmChart.Storage
