import ProofOfWork.DagFile.Files

/-! Surroundings in which the library's programs run without a system: a file system that is a value,
a caller that answers reports, and a log that is kept. Faults can be put between a program and its
file system. -/

namespace ProofOfWork

/-- What a program has around it, and what it has told its caller so far. -/
structure Surroundings where
  disk : Disk
  reports : Array UInt32
  log : Array Event

namespace Surroundings

/-- A state computation in given surroundings. -/
abbrev Within (α : Type) := StateM Surroundings α

/-- Serves a request to the caller. `callback` answers a report, given all reports so far, the new
one last. Of several workers the first takes the next step. -/
def serveCaller (callback : Array UInt32 → Verdict) :
    (r : Caller.Request) → Within (Caller.Answer r)
  | .report percent => do
    modify fun s => { s with reports := s.reports.push percent }
    return callback (← get).reports
  | .log event => modify fun s => { s with log := s.log.push event }
  | .pick _ => return 0

/-- A call that changes the disk. -/
def change {α : Type} (call : Disk → α × Disk) : Within α :=
  fun ⟨disk, reports, log⟩ =>
    let (answer, disk) := call disk
    (answer, ⟨disk, reports, log⟩)

/-- A call that only looks at the disk. -/
def look {α : Type} (call : Disk → α) : Within α := fun s => (call s.disk, s)

/-- Serves a request to the file system. -/
def serveFiles (callback : Array UInt32 → Verdict) : (r : Files.Request) → Within (Files.Answer r)
  | .caller r => serveCaller callback r
  | .makeDirectory dir => change fun d => d.makeDirectories dir
  | .openExisting path => look fun d => d.openExisting path true true
  | .create path => change fun d => d.create path true true
  | .size file => look fun d => .ok (d.size file).toUInt64
  | .readMagic file => look fun d => d.readStart file 8
  | .seek file position => look fun d => d.seek file position
  | .write file position data => change fun d => d.write file position data
  | .flush _ => return .ok ()
  | .setLength file length => change fun d => d.setLength file length
  | .map file => look fun d => d.map file
  | .store file offset data => change fun d => ((), d.store file offset data)
  | .sync _ => return .ok ()

end Surroundings

/-- What a file is opened for. -/
inductive Access
  | readOnly
  | writeOnly
  | readWrite
deriving DecidableEq

namespace Access

def canRead (a : Access) : Bool := a ≠ writeOnly

def canWrite (a : Access) : Bool := a ≠ readOnly

end Access

/-- Faults between a program and its file system. -/
structure Faults where
  failMakeDirectory : Option String
  failOpen : Option String
  failCreate : Option String
  failSize : Option String
  /-- The size that is answered for every file. -/
  sizeIs : Option UInt64
  /-- The text that is put before a name in a directory. -/
  before : String
  /-- What an existing file is opened for. -/
  openAccess : Access
  /-- What a new file is opened for. -/
  createAccess : Access
  /-- What is opened in place of every new file. -/
  createInstead : Option Referent

namespace Faults

open Surroundings

def none : Faults :=
  ⟨.none, .none, .none, .none, .none, "", .readWrite, .readWrite, .none⟩

/-- The path of a name in a directory. -/
def join (f : Faults) (dir : Path) (name : String) : Path := dir.join (f.before ++ name)

/-- A failure with a given text, or else another call. -/
def failOr {α : Type} (text : Option String) (call : Within (Except IoError α)) :
    Within (Except IoError α) :=
  match text with
  | some text => return .error (.other .permissionDenied text)
  | .none => call

/-- Serves a request to the file system, with faults. -/
def serveFiles (f : Faults) (callback : Array UInt32 → Verdict) (r : Files.Request) :
    Within (Files.Answer r) :=
  let serve := Surroundings.serveFiles callback
  match r with
  | .makeDirectory dir => failOr f.failMakeDirectory (serve (.makeDirectory dir))
  | .openExisting path =>
    let access := f.openAccess
    failOr f.failOpen (look fun d => d.openExisting path access.canRead access.canWrite)
  | .create path =>
    failOr f.failCreate <|
      match f.createInstead with
      | some referent => return .ok ⟨referent, true, true⟩
      | .none =>
        let access := f.createAccess
        change fun d => d.create path access.canRead access.canWrite
  | .size file =>
    failOr f.failSize <|
      match f.sizeIs with
      | some size => return .ok size
      | .none => serve (.size file)
  | r => serve r

end Faults

end ProofOfWork
