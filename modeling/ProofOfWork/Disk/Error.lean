/-! Why a call to the file system fails. -/

namespace ProofOfWork

/-- The broad class of a failure. -/
inductive ErrorKind
  | notFound
  | permissionDenied
  | alreadyExists
  | notADirectory
  | isADirectory
  | invalidInput
  | invalidFilename
  | fileTooLarge
  | storageFull
  | unexpectedEof
  | other
  | uncategorized
deriving DecidableEq

/-- The failures that the operating system reports by number. -/
inductive OsError
  | noEntry
  | badDescriptor
  | accessDenied
  | alreadyExists
  | noDevice
  | notDirectory
  | isDirectory
  | invalidArgument
  | fileTooLarge
  | noSpace
  | nameTooLong
deriving DecidableEq

namespace OsError

def number : OsError → Nat
  | noEntry => 2
  | badDescriptor => 9
  | accessDenied => 13
  | alreadyExists => 17
  | noDevice => 19
  | notDirectory => 20
  | isDirectory => 21
  | invalidArgument => 22
  | fileTooLarge => 27
  | noSpace => 28
  | nameTooLong => 36

def text : OsError → String
  | noEntry => "No such file or directory"
  | badDescriptor => "Bad file descriptor"
  | accessDenied => "Permission denied"
  | alreadyExists => "File exists"
  | noDevice => "No such device"
  | notDirectory => "Not a directory"
  | isDirectory => "Is a directory"
  | invalidArgument => "Invalid argument"
  | fileTooLarge => "File too large"
  | noSpace => "No space left on device"
  | nameTooLong => "File name too long"

def kind : OsError → ErrorKind
  | noEntry => .notFound
  | badDescriptor => .uncategorized
  | accessDenied => .permissionDenied
  | alreadyExists => .alreadyExists
  | noDevice => .uncategorized
  | notDirectory => .notADirectory
  | isDirectory => .isADirectory
  | invalidArgument => .invalidInput
  | fileTooLarge => .fileTooLarge
  | noSpace => .storageFull
  | nameTooLong => .invalidFilename

end OsError

/-- A failure of a call: reported by the operating system, or found before it was asked. -/
inductive IoError
  | os (error : OsError)
  | other (kind : ErrorKind) (text : String)
deriving DecidableEq

namespace IoError

def kind : IoError → ErrorKind
  | os e => e.kind
  | other k _ => k

def message : IoError → String
  | os e => e.text ++ " (os error " ++ toString e.number ++ ")"
  | other _ text => text

end IoError

end ProofOfWork
