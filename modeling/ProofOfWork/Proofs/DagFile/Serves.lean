import ProofOfWork.Cache
import ProofOfWork.DagFile.Files
import ProofOfWork.Proofs.Disk.Files
import ProofOfWork.Proofs.Serving
import ProofOfWork.Surroundings

/-! File systems that may fail at any call, and what is left when a call is cut off. -/

namespace ProofOfWork

namespace Disk

/-- Calls that are carried out. A file may be opened or created for reading or for writing only,
directories may be made or not, and the caller may answer anything. -/
def Does : Serving Files Disk
  | .caller _, d, _, d' => d' = d
  | .makeDirectory _, d, _, d' => SameFiles d d'
  | .openExisting path, d, a, d' =>
    d' = d ∧ ∃ canRead canWrite, a = d.openExisting path canRead canWrite
  | .create path, d, a, d' => ∃ canRead canWrite, (a, d') = d.create path canRead canWrite
  | .size file, d, a, d' => d' = d ∧ a = .ok (d.size file).toUInt64
  | .readMagic file, d, a, d' => d' = d ∧ a = d.readStart file 8
  | .seek file position, d, a, d' => d' = d ∧ a = d.seek file position
  | .write file position data, d, a, d' => (a, d') = d.write file position data
  | .flush _, d, _, d' => d' = d
  | .setLength file length, d, a, d' => (a, d') = d.setLength file length
  | .map file, d, a, d' => d' = d ∧ a = d.map file
  | .store file offset data, d, _, d' => d' = d.store file offset data
  | .sync _, d, _, d' => d' = d

/-- What a call that is cut off may leave: nothing done, all of it, or, where bytes are written, any
first part of them, and where directories are made, any of these. -/
def Cut : Files.Request → Disk → Disk → Prop
  | .makeDirectory _, d, d' => SameFiles d d'
  | .create path, d, d' => d' = d ∨ d' = (d.create path true true).2
  | .write file position data, d, d' => ∃ n, d' = (d.write file position (data.extract 0 n)).2
  | .setLength file length, d, d' => d' = d ∨ d' = (d.setLength file length).2
  | .store file offset data, d, d' => ∃ n, d' = d.store file offset (data.extract 0 n)
  | _, d, d' => d' = d

/-- The answer is a failure. -/
def Refuses : (r : Files.Request) → Files.Answer r → Prop
  | .caller _, _ => False
  | .makeDirectory _, a => ∃ e, a = .error e
  | .openExisting _, a => ∃ e, a = .error e
  | .create _, a => ∃ e, a = .error e
  | .size _, a => ∃ e, a = .error e
  | .readMagic _, a => ∃ e, a = .error e
  | .seek _ _, a => ∃ e, a = .error e
  | .write _ _ _, a => ∃ e, a = .error e
  | .flush _, a => ∃ e, a = .error e
  | .setLength _ _, a => ∃ e, a = .error e
  | .map _, a => ∃ e, a = .error e
  | .store _ _ _, _ => False
  | .sync _, a => ∃ e, a = .error e

/-- A file system that carries each call out, or fails and leaves what a call may leave that is cut
off. -/
def Serves : Serving Files Disk :=
  fun r d a d' => Does r d a d' ∨ Refuses r a ∧ Cut r d d'

theorem does_serveFiles (callback : Array UInt32 → Verdict) (r : Files.Request) (s : Surroundings) :
    Does r s.disk (Surroundings.serveFiles callback r s).1
      (Surroundings.serveFiles callback r s).2.disk := by
  cases r with
  | caller r => cases r <;> rfl
  | makeDirectory dir => exact sameFiles_makeDirectories s.disk dir
  | openExisting path => exact ⟨rfl, true, true, rfl⟩
  | create path => exact ⟨true, true, rfl⟩
  | size file => exact ⟨rfl, rfl⟩
  | readMagic file => exact ⟨rfl, rfl⟩
  | seek file position => exact ⟨rfl, rfl⟩
  | write file position data => rfl
  | flush file => rfl
  | setLength file length => rfl
  | map file => exact ⟨rfl, rfl⟩
  | store file offset data => rfl
  | sync file => rfl

/-- Faults that leave sizes and files as they are only make calls fail. -/
theorem serves_faults {f : Faults} (hsize : f.sizeIs = none) (hcreate : f.createInstead = none)
    (callback : Array UInt32 → Verdict) (r : Files.Request) (s : Surroundings) :
    Serves r s.disk (f.serveFiles callback r s).1 (f.serveFiles callback r s).2.disk := by
  cases r with
  | makeDirectory dir =>
    rw [Faults.serveFiles]
    cases f.failMakeDirectory with
    | none => exact .inl (does_serveFiles callback (.makeDirectory dir) s)
    | some text => exact .inr ⟨⟨_, rfl⟩, .refl _⟩
  | openExisting path =>
    rw [Faults.serveFiles]
    cases f.failOpen with
    | none => exact .inl ⟨rfl, _, _, rfl⟩
    | some text => exact .inr ⟨⟨_, rfl⟩, rfl⟩
  | create path =>
    rw [Faults.serveFiles, hcreate]
    cases f.failCreate with
    | none => exact .inl ⟨_, _, rfl⟩
    | some text => exact .inr ⟨⟨_, rfl⟩, .inl rfl⟩
  | size file =>
    rw [Faults.serveFiles, hsize]
    cases f.failSize with
    | none => exact .inl (does_serveFiles callback (.size file) s)
    | some text => exact .inr ⟨⟨_, rfl⟩, rfl⟩
  | _ => exact .inl (does_serveFiles callback _ s)

end Disk

/-! ### Who had a file made -/

/-- For each file the cache that was handed to the call that last created it. -/
abbrev Ledger := Nat → Option Cache

/-- The ledger after a request of a call that was handed a cache, or none. -/
def Ledger.after (handed : Option Cache) (l : Ledger) :
    (r : Files.Request) → Files.Answer r → Ledger
  | .create _, .ok ⟨.file id, _, _⟩ => fun i => if i = id then handed else l i
  | _, _ => l

/-- A file system with the ledger beside it. -/
def Disk.Notes (handed : Option Cache) : Serving Files (Disk × Ledger) :=
  fun r s a s' => Serves r s.1 a s'.1 ∧ s'.2 = s.2.after handed r a

/-- The ledger plays no part in what a call leaves that is cut off. -/
def Disk.CutBeside (r : Files.Request) (s s' : Disk × Ledger) : Prop :=
  Cut r s.1 s'.1 ∧ s'.2 = s.2

end ProofOfWork
