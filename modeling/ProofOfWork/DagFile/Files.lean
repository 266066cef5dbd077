import ProofOfWork.Caller
import ProofOfWork.Disk.Calls

/-! What the code for DAG files asks of the system it runs on. Every call may fail. -/

namespace ProofOfWork

namespace Files

/-- A request to the caller or to the file system. -/
inductive Request
  | caller (r : Caller.Request)
  /-- Makes a directory. One that exists is no failure. -/
  | makeDirectory (dir : Path)
  /-- Opens an existing file to read and write it. -/
  | openExisting (path : Path)
  /-- Creates a file to read and write it, or empties one that exists. -/
  | create (path : Path)
  | size (file : Handle)
  /-- Reads the first eight bytes of a file. -/
  | readMagic (file : Handle)
  | seek (file : Handle) (position : UInt64)
  | write (file : Handle) (position : UInt64) (data : ByteArray)
  | flush (file : Handle)
  | setLength (file : Handle) (length : UInt64)
  /-- Maps a file into memory, and answers how many bytes there are. -/
  | map (file : Handle)
  /-- Writes into the memory of a mapped file. -/
  | store (file : Handle) (offset : Nat) (data : ByteArray)
  /-- Waits until what was written to the memory of a mapped file is in the file. -/
  | sync (file : Handle)

/-- The type of the answer to a request. -/
abbrev Answer : Request → Type
  | .caller r => Caller.Answer r
  | .makeDirectory _ => Except IoError Unit
  | .openExisting _ => Except IoError Handle
  | .create _ => Except IoError Handle
  | .size _ => Except IoError UInt64
  | .readMagic _ => Except IoError (ByteVector 8)
  | .seek .. => Except IoError Unit
  | .write .. => Except IoError Unit
  | .flush _ => Except IoError Unit
  | .setLength .. => Except IoError Unit
  | .map _ => Except IoError Nat
  | .store .. => Unit
  | .sync _ => Except IoError Unit

end Files

/-- The requests of the code for DAG files and their answers. -/
abbrev Files : Interface := ⟨Files.Request, Files.Answer⟩

instance : HasCaller Files := ⟨fun r => .perform (I := Files) (.caller r)⟩

namespace Files

/-- Makes one request. -/
def perform (r : Request) : Program Files (Answer r) := .perform (I := Files) r

/-- A computation over files that may fail. -/
abbrev Action (α : Type) := ExceptT Error (Program Files) α

/-- Ends with a failure, which is noted in the log where it arises. -/
def fail {α : Type} (activity : Activity) (path : Path) (cause : IoError) : Action α := do
  Caller.log (I := Files) (.failed activity path cause)
  throw (.io activity path cause)

/-- The answer to a call, or the failure of what was being done. -/
def orFail {α : Type} (activity : Activity) (path : Path) : Except IoError α → Action α
  | .ok a => return a
  | .error cause => fail activity path cause

end Files

end ProofOfWork
