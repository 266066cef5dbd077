import ProofOfWork.Bytes.Vector
import ProofOfWork.Disk.Basic

/-! The calls that a process makes to a file system. A call that changes the file system returns the
new state beside its answer, also when it fails: directories made on the way to one that cannot be
made stay. -/

namespace ProofOfWork

/-- What an open file refers to. -/
inductive Referent
  | file (id : Nat)
  | directory
  /-- A device that has no space for what is written to it. -/
  | fullDevice
  /-- A device that forgets what is written to it. -/
  | nullDevice
deriving DecidableEq

/-- An open file. -/
structure Handle where
  referent : Referent
  canRead : Bool
  canWrite : Bool
deriving DecidableEq

namespace Disk

/-- A name with a zero byte is no name. -/
def badName : IoError := .other .invalidInput "file name contained an unexpected NUL byte"

/-- The greatest number of bytes in a path. -/
def maxPathSize : Nat := 4095

/-- What is wrong with a path whatever is on the disk. -/
def refusal (p : Path) : Option IoError :=
  if p.text.toList.contains '\x00' then some badName
  else if p.text = "" then some (.os .noEntry)
  else if maxPathSize < p.text.utf8ByteSize then some (.os .nameTooLong)
  else none

/-- Where the names of a path lead, once the path itself is accepted. -/
def follow (d : Disk) (p : Path) (names : List String) : Except IoError Location :=
  match refusal p with
  | some e => .error e
  | none => (d.walk [] names).mapError .os

/-- Where a path leads. A path that ends with a slash leads to a directory. -/
def resolve (d : Disk) (p : Path) : Except IoError Location :=
  d.follow p (if p.endsWithSlash then p.names ++ ["."] else p.names)

/-- The number of the file that a path leads to. -/
def fileAt (d : Disk) (p : Path) : Except IoError Nat := do
  match d.lookup (← d.resolve p) with
  | none => throw (.os .noEntry)
  | some .directory => throw (.os .isDirectory)
  | some (.file id) => return id

/-- Whether names lead to a directory. -/
def isDirectory (d : Disk) (names : List String) : Bool :=
  match d.walk [] names with
  | .ok place => d.lookup place = some .directory
  | .error _ => false

/-- The names of the directory around the one that `names` leads to. -/
def parentNames (names : List String) : List String :=
  let strip (l : List String) := (l.reverse.dropWhile (· = ".")).reverse
  strip (strip names).dropLast

/-- Makes one directory, in a directory that exists. -/
def makeDirectory (d : Disk) (names : List String) : Except OsError Unit × Disk :=
  match d.walk [] names with
  | .error e => (.error e, d)
  | .ok place =>
    let last := names.getLast?
    if last = some "." ∨ last = some ".." ∨ (d.lookup place).isSome then (.error .alreadyExists, d)
    else (.ok (), d.insert place .directory)

/-- What a failure to make a directory comes to: none, if the directory is there. -/
def forgive (d : Disk) (names : List String) (e : OsError) : Except OsError Unit :=
  if d.isDirectory names then .ok () else .error e

/-- Makes a directory and those around it that are missing, at most `depth` of them. -/
def makeDirectoriesUpTo : (depth : Nat) → Disk → List String → Except OsError Unit × Disk
  | 0, d, names => (d.forgive names .noEntry, d)
  | depth + 1, d, names =>
    match d.makeDirectory names with
    | (.ok (), d) => (.ok (), d)
    | (.error .noEntry, d) =>
      match makeDirectoriesUpTo depth d (parentNames names) with
      | (.error e, d) => (.error e, d)
      | (.ok (), d) =>
        match d.makeDirectory names with
        | (.ok (), d) => (.ok (), d)
        | (.error e, d) => (d.forgive names e, d)
    | (.error e, d) => (d.forgive names e, d)

/-- Makes a directory and those around it that are missing. One that exists is no failure, and the
empty path asks for none. -/
def makeDirectories (d : Disk) (p : Path) : Except IoError Unit × Disk :=
  if p.text = "" then (.ok (), d)
  else
    match refusal p with
    | some e => (.error e, d)
    | none =>
      let (answer, d) := makeDirectoriesUpTo (p.names.length + 1) d p.names
      (answer.mapError .os, d)

/-- Opens what exists. A directory can be opened if it is not to be written. -/
def openExisting (d : Disk) (p : Path) (canRead canWrite : Bool) : Except IoError Handle := do
  match d.lookup (← d.resolve p) with
  | none => throw (.os .noEntry)
  | some .directory =>
    if canWrite then throw (.os .isDirectory)
    return ⟨.directory, canRead, false⟩
  | some (.file id) => return ⟨.file id, canRead, canWrite⟩

/-- The failure to create a file whose path ends with a slash. The name before the slash is not
looked up, but the directory around it is. -/
def slashError (d : Disk) (p : Path) : IoError :=
  match d.follow p (p.names.dropLast ++ ["."]) with
  | .error e => e
  | .ok _ => .os .isDirectory

/-- Creates a file, or empties one that exists. -/
def create (d : Disk) (p : Path) (canRead canWrite : Bool) : Except IoError Handle × Disk :=
  if p.endsWithSlash then (.error (d.slashError p), d)
  else
    match d.resolve p with
    | .error e => (.error e, d)
    | .ok place =>
      match d.lookup place with
      | some .directory => (.error (.os .isDirectory), d)
      | some (.file id) => (.ok ⟨.file id, canRead, canWrite⟩, d.modify id fun _ => .empty)
      | none =>
        let id := d.contents.size
        (.ok ⟨.file id, canRead, canWrite⟩,
          { d.insert place (.file id) with contents := d.contents.push .empty })

/-- The bytes that a directory takes up: one block. -/
def directorySize : Nat := 4096

/-- The size of an open file in bytes. A device has none. -/
def size (d : Disk) (h : Handle) : Nat :=
  match h.referent with
  | .file id => (d.file id).size
  | .directory => directorySize
  | .fullDevice | .nullDevice => 0

/-- The failure to read as much as was asked for. -/
def tooShort : IoError := .other .unexpectedEof "failed to fill whole buffer"

/-- The first `n` bytes of an open file, which must have that many. A directory is not read as a file
is. -/
def readStart (d : Disk) (h : Handle) (n : Nat) : Except IoError (ByteVector n) :=
  if h.canRead then
    match h.referent with
    | .file id =>
      match ByteVector.ofByteArray? ((d.file id).read 0 (min n (d.file id).size)) with
      | some b => .ok b
      | none => .error tooShort
    | .directory => .error (.os .isDirectory)
    | .fullDevice => .ok .zero
    | .nullDevice => .error tooShort
  else .error (.os .badDescriptor)

/-- A position in a file is a number of 63 bits. -/
def positionLimit : Nat := UInt64.size / 2

/-- Moves to a position in an open file, which may lie past its end. A device has no positions. -/
def seek (d : Disk) (h : Handle) (position : UInt64) : Except IoError Unit :=
  match h.referent with
  | .file _ =>
    if positionLimit ≤ position.toNat ∨ d.maxFileSize < position.toNat then
      .error (.os .invalidArgument)
    else .ok ()
  | _ => .ok ()

/-- Writes at a position of an open file. -/
def write (d : Disk) (h : Handle) (position : UInt64) (data : ByteArray) :
    Except IoError Unit × Disk :=
  if h.canWrite then
    match h.referent with
    | .file id =>
      if d.maxFileSize < position.toNat + data.size then (.error (.os .fileTooLarge), d)
      else (.ok (), d.modify id (·.write position.toNat data))
    | .directory => (.error (.os .badDescriptor), d)
    | .fullDevice => (.error (.os .noSpace), d)
    | .nullDevice => (.ok (), d)
  else (.error (.os .badDescriptor), d)

/-- Sets the size of an open file. -/
def setLength (d : Disk) (h : Handle) (length : UInt64) : Except IoError Unit × Disk :=
  if positionLimit ≤ length.toNat then
    (.error (.other .invalidInput "number too large to fit in target type"), d)
  else
    match h.referent with
    | .file id =>
      if !h.canWrite then (.error (.os .invalidArgument), d)
      else if d.maxFileSize < length.toNat then (.error (.os .fileTooLarge), d)
      else (.ok (), d.modify id (·.resize length.toNat))
    | _ => (.error (.os .invalidArgument), d)

/-- Maps all of an open file into memory, to be read and written. The answer is how many bytes. -/
def map (d : Disk) (h : Handle) : Except IoError Nat :=
  if h.canRead ∧ h.canWrite then
    match h.referent with
    | .file id => .ok (d.file id).size
    | _ => .error (.os .noDevice)
  else .error (.os .accessDenied)

/-- The bytes from `start` to `stop` in the memory of a mapped file as the file is now. Past its end
there are zeros. -/
def mapped (d : Disk) (h : Handle) (start stop : Nat) : ByteArray :=
  match h.referent with
  | .file id => (d.file id).read start (stop - start)
  | _ => .empty

/-- Writes into the memory of a mapped file, which does not grow by it. -/
def store (d : Disk) (h : Handle) (offset : Nat) (data : ByteArray) : Disk :=
  match h.referent with
  | .file id =>
    d.modify id fun c => if offset + data.size ≤ c.size then c.write offset data else c
  | _ => d

/-- Removes a file. -/
def remove (d : Disk) (p : Path) : Except IoError Unit × Disk :=
  match d.fileAt p, d.resolve p with
  | .ok _, .ok place => (.ok (), d.erase place)
  | .error e, _ => (.error e, d)
  | _, .error e => (.error e, d)

/-- The names in a directory. -/
def list (d : Disk) (p : Path) : Except IoError (List String) := do
  let place ← d.resolve p
  match d.lookup place with
  | none => throw (.os .noEntry)
  | some (.file _) => throw (.os .notDirectory)
  | some .directory => return d.namesIn place

end Disk

end ProofOfWork
