import ProofOfWork.DagFile.Files
import ProofOfWork.DagFile.Name

/-! Opening DAG files. A DAG file holds a magic number of eight bytes and then the dataset. The number
is only written when the dataset is complete, so a file of the right size that starts with it is used
as it is, and its contents are not checked. Any other file is made anew. -/

namespace ProofOfWork.DagFile

open Files

/-- Where a DAG file is kept. -/
structure Place where
  /-- The path of a name in a directory. -/
  join : Path → String → Path
  dir : Path
  revision : UInt32
  seed : Hash256

/-- The path of the DAG file. -/
def Place.path (p : Place) : Path := DagFile.path p.join p.dir p.revision p.seed

/-- What came of opening a DAG file. -/
inductive Memo
  /-- An existing file of the right size that starts with the magic number. -/
  | found (file : Handle)
  /-- A new file of the right size, whose dataset is yet to be generated. -/
  | created (file : Handle)
  /-- An existing file that must be made again. It is closed. -/
  | stale (reason : Stale)
deriving DecidableEq

/-- The text that shows a memo to a developer. -/
def Memo.debug : Memo → String
  | found _ => "Match(File)"
  | created _ => "Mismatch(File)"
  | stale reason => "Stale(" ++ reason.debug ++ ")"

/-- The number that eight bytes hold. -/
def magicOf (b : ByteVector 8) : UInt64 :=
  LittleEndian.word64 b[0] b[1] b[2] b[3] b[4] b[5] b[6] b[7]

/-- The eight bytes of the magic number. -/
def magicBytes : ByteVector 8 := .ofFn fun i => LittleEndian.byte64 Params.magic i

/-- The dataset bytes of a file of `found` bytes, if it has room for the magic number. -/
def storedSize (found : UInt64) : Option UInt64 :=
  if found < Params.magicBytes.toUInt64 then none else some (found - Params.magicBytes.toUInt64)

/-- Checks the size and the first bytes of an existing file. -/
def probe (file : Handle) (path : Path) (size : UInt64) : Action Memo := do
  let found ← orFail .queryingSize path (← perform (.size file))
  let stored := storedSize found
  if stored ≠ some size then return .stale (.size size (stored.getD 0))
  match ← perform (.readMagic file) with
  | .error cause =>
    Caller.log (I := Files) (.unreadable path cause)
    return .stale (.magic none)
  | .ok bytes =>
    if magicOf bytes ≠ Params.magic then return .stale (.magic (some (magicOf bytes)))
    return .found file

/-- Creates a file with room for the magic number and `size` bytes, by writing its last byte. -/
def createSized (path : Path) (size : UInt64) : Action Memo := do
  let file ← orFail .creating path (← perform (.create path))
  let last := size + Params.magicBytes.toUInt64 - 1
  orFail .seekingEnd path (← perform (.seek file last))
  orFail .writingEnd path (← perform (.write file last ⟨#[0x0a]⟩))
  orFail .flushingEnd path (← perform (.flush file))
  return .created file

/-- Opens the DAG file for a dataset of `size` bytes if there is one of use, and creates it
otherwise, or in any case if `force` holds. -/
def prepare (place : Place) (size : UInt64) (force : Bool) : Action Memo := do
  orFail .makingDirectory place.dir (← perform (.makeDirectory place.dir))
  let path := place.path
  Caller.log (I := Files) (.preparing path force)
  if force then createSized path size
  else
    match ← perform (.openExisting path) with
    | .ok file => probe file path size
    | .error cause =>
      Caller.log (I := Files) (.noExisting path cause)
      createSized path size

end ProofOfWork.DagFile
