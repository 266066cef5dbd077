import ProofOfWork.Disk.Error
import ProofOfWork.Disk.Path
import ProofOfWork.Invalid

/-! Failures of the library. -/

namespace ProofOfWork

/-- What was being done to a DAG file when it failed. -/
inductive Activity
  | makingDirectory
  | creating
  | seekingEnd
  | writingEnd
  | flushingEnd
  | queryingSize
  | recreating
  | resizing
  | mapping
  | flushingContents
  | writingMagic
deriving DecidableEq

/-- The text for an activity that failed. -/
def Activity.text : Activity → String
  | makingDirectory => "Could not create the DAG directory"
  | creating => "Could not create DAG file"
  | seekingEnd => "Could not seek to the end of DAG file. Insufficient space?"
  | writingEnd => "Could not write in the end of DAG file. Insufficient space?"
  | flushingEnd => "Could not flush at end of DAG file. Insufficient space?"
  | queryingSize => "Could not query size of DAG file"
  | recreating => "Could not recreate DAG file after finding existing DAG with unexpected size"
  | resizing => "Could not resize DAG file"
  | mapping => "Could not memory map DAG file"
  | flushingContents => "Could not flush DAG contents"
  | writingMagic => "Could not write the DAG magic number"

/-- A failure. -/
inductive Error
  | invalid (cause : Invalid)
  | io (activity : Activity) (path : Path) (cause : IoError)
  | noDefaultDirectory
  /-- The caller stopped the generation of a dataset. -/
  | cancelled
deriving DecidableEq

namespace Error

def message : Error → String
  | invalid cause => "Invalid parameters: " ++ cause.message
  | io activity path cause => activity.text ++ ": \"" ++ path.text ++ "\": " ++ cause.message
  | noDefaultDirectory => "Could not determine the default DAG directory"
  | cancelled => "DAG generation cancelled by progress callback"

end Error

/-- What an unaccepted parameter means for a whole operation. -/
def orInvalid {α : Type} : Except Invalid α → Except Error α := Except.mapError Error.invalid

end ProofOfWork
