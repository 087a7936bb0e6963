import ImageLinker.Text.Quoted

/-! Why an operation on files fails. -/
namespace ImageLinker.Files

inductive Fault where
  | notFound
  | permissionDenied
  | alreadyExists
  | notADirectory
  | isADirectory
  | badProgram
  | invalidArgument
  | nameTooLong
  | argumentsTooLong
  /-- Interpreters of scripts stand behind one another without end. -/
  | tooManyLinks
  | badDescriptor
  | brokenPipe
  | directoryNotEmpty
  | noSpace
  | noSuchProcess
  | interrupted
  /-- An argument of a program holds the mark that ends texts. -/
  | nulByte
  | nulInName
  | notText
  | directoryInTheWay
  | tooManyTemporaries
  | located (fault : Fault) (path : String)
  deriving DecidableEq, Repr, Inhabited

namespace Fault

/-- The number that the system has for a fault, and its words; none for a fault that is found
before the system is asked. -/
def system? : Fault → Option (Nat × String)
  | .notFound => some (2, "No such file or directory")
  | .noSuchProcess => some (3, "No such process")
  | .interrupted => some (4, "Interrupted system call")
  | .argumentsTooLong => some (7, "Argument list too long")
  | .badProgram => some (8, "Exec format error")
  | .badDescriptor => some (9, "Bad file descriptor")
  | .permissionDenied => some (13, "Permission denied")
  | .alreadyExists => some (17, "File exists")
  | .notADirectory => some (20, "Not a directory")
  | .isADirectory => some (21, "Is a directory")
  | .invalidArgument => some (22, "Invalid argument")
  | .noSpace => some (28, "No space left on device")
  | .brokenPipe => some (32, "Broken pipe")
  | .nameTooLong => some (36, "File name too long")
  | .directoryNotEmpty => some (39, "Directory not empty")
  | .tooManyLinks => some (40, "Too many levels of symbolic links")
  | .nulByte | .nulInName | .notText | .directoryInTheWay | .tooManyTemporaries
  | .located .. => none

def message : Fault → String
  | .nulByte => "nul byte found in provided data"
  | .nulInName => "file name contained an unexpected NUL byte"
  | .notText => "stream did not contain valid UTF-8"
  | .directoryInTheWay => "a directory is in the way"
  | .tooManyTemporaries => "too many temporary files exist"
  | .located fault path => fault.message ++ " at path " ++ Text.quote path
  | fault =>
    match fault.system? with
    | some (number, words) => words ++ s!" (os error {number})"
    | none => ""

def reason (fault : Fault) : String :=
  match fault.system? with
  | some (_, words) => words
  | none => fault.message

end Fault

end ImageLinker.Files
