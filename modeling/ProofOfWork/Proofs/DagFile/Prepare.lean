import ProofOfWork.Proofs.DagFile.Attempts
import ProofOfWork.Proofs.DagFile.Outline

/-! Opening DAG files. A file that is found is marked and has the right size; a file that is created is
not marked. -/

namespace ProofOfWork

open Files DagFile

theorem Disk.readStart_eq_ok {d : Disk} {file : Handle} {id n : Nat} {b : ByteVector n}
    (h : file.referent = .file id) (hread : d.readStart file n = .ok b) :
    n ≤ (d.file id).size ∧ (d.file id).read 0 n = b.bytes := by
  unfold readStart at hread
  rw [h] at hread
  split at hread
  · dsimp only at hread
    split at hread
    case h_1 found hfound =>
      obtain rfl := Except.ok.inj hread
      unfold ByteVector.ofByteArray? at hfound
      split at hfound
      case isTrue hsize =>
        rw [Contents.size_read] at hsize
        obtain rfl := Option.some.inj hfound
        have hmin : min n (d.file id).size = n := hsize
        refine ⟨by omega, ?_⟩
        show (d.file id).read 0 n = (d.file id).read 0 (min n (d.file id).size)
        rw [hmin]
      case isFalse => contradiction
    case h_2 => contradiction
  · contradiction

theorem Disk.readStart_directory {d : Disk} {file : Handle} {n : Nat} {b : ByteVector n}
    (h : file.referent = .directory) : d.readStart file n ≠ .ok b := by
  unfold readStart
  rw [h]
  intro hread
  split at hread <;> contradiction

namespace DagFile

theorem magicOf_magicBytes : magicOf magicBytes = Params.magic := by decide

theorem eq_of_magicOf_eq {a b : ByteVector 8} (h : magicOf a = magicOf b) : a = b := by
  have hnat := congrArg UInt64.toNat h
  rw [magicOf, magicOf, Bytes.toNat_word64, Bytes.toNat_word64] at hnat
  obtain ⟨h0, hnat⟩ := Bytes.low_byte_eq hnat
  obtain ⟨h1, hnat⟩ := Bytes.low_byte_eq hnat
  obtain ⟨h2, hnat⟩ := Bytes.low_byte_eq hnat
  obtain ⟨h3, hnat⟩ := Bytes.low_byte_eq hnat
  obtain ⟨h4, hnat⟩ := Bytes.low_byte_eq hnat
  obtain ⟨h5, hnat⟩ := Bytes.low_byte_eq hnat
  obtain ⟨h6, hnat⟩ := Bytes.low_byte_eq hnat
  have h7 := UInt8.toNat_inj.mp hnat
  apply ByteVector.ext
  intro i hi
  match i, hi with
  | 0, _ | 1, _ | 2, _ | 3, _ | 4, _ | 5, _ | 6, _ | 7, _ => assumption

theorem eq_magicBytes {b : ByteVector 8} (h : magicOf b = Params.magic) : b = magicBytes :=
  eq_of_magicOf_eq (h.trans magicOf_magicBytes.symm)

theorem toNat_add_magicBytes {size : UInt64} (h : size.toNat + 8 < 2 ^ 64) :
    (size + Params.magicBytes.toUInt64).toNat = size.toNat + 8 := by
  rw [UInt64.toNat_add, show Params.magicBytes.toUInt64.toNat = 8 from rfl, Nat.mod_eq_of_lt h]

theorem storedSize_eq {found size : UInt64} (h : storedSize found = some size) :
    found.toNat = size.toNat + 8 := by
  unfold storedSize at h
  have height : Params.magicBytes.toUInt64.toNat = 8 := rfl
  split at h
  · contradiction
  · rename_i hle
    obtain rfl := Option.some.inj h
    rw [UInt64.lt_iff_toNat_lt, height] at hle
    rw [UInt64.toNat_sub_of_le _ _ (UInt64.le_iff_toNat_le.mpr (by omega)), height]
    omega

theorem storedSize_of_toNat_eq {found size : UInt64} (h : found.toNat = size.toNat + 8) :
    storedSize found = some size := by
  have height : Params.magicBytes.toUInt64.toNat = 8 := rfl
  have hle : Params.magicBytes.toUInt64 ≤ found := by
    rw [UInt64.le_iff_toNat_le]
    omega
  rw [storedSize, if_neg (UInt64.not_lt.mpr hle), Option.some.injEq, ← UInt64.toNat_inj,
    UInt64.toNat_sub_of_le _ _ hle]
  omega

theorem storedSize_getD (found : UInt64) :
    (storedSize found).getD 0 = (found.toNat - 8).toUInt64 := by
  have height : Params.magicBytes.toUInt64.toNat = 8 := rfl
  rw [storedSize]
  split
  · rename_i hlt
    rw [UInt64.lt_iff_toNat_lt, height] at hlt
    rw [show found.toNat - 8 = 0 by omega]
    rfl
  · rename_i hge
    rw [UInt64.lt_iff_toNat_lt, height, Nat.not_lt] at hge
    have hsub := UInt64.ofNat_sub hge
    rw [UInt64.ofNat_toNat] at hsub
    exact hsub.symm

/-- The number that the first eight bytes of a file hold, the low byte first. -/
def startNumber (b : ByteArray) : Nat :=
  (List.range 8).foldr (fun i n => b[i]!.toNat + 256 * n) 0

theorem toNat_magicOf {v : ByteVector 8} {b : ByteArray} (h : ∀ i < 8, v.bytes[i]! = b[i]!) :
    (magicOf v).toNat = startNumber b := by
  have hget (i : Nat) (hi : i < 8) : v[i] = b[i]! := (Bytes.getElem_eq v i hi).trans (h i hi)
  rw [magicOf, Bytes.toNat_word64]
  simp only [hget]
  rfl

theorem toNat_magicOf_read {c : Contents} (h : 8 ≤ c.size) :
    (magicOf ⟨c.read 0 8, c.size_read 0 8⟩).toNat = startNumber c.bytes := by
  refine toNat_magicOf fun i hi => ?_
  rw [Contents.getElem!_read, if_pos hi, Nat.zero_add, c.getElem!_bytes (by omega)]

theorem startNumber_eq_magic_iff {c : Contents} (h : 8 ≤ c.size) :
    startNumber c.bytes = Params.magic.toNat ↔ c.read 0 8 = magicBytes.bytes := by
  rw [← toNat_magicOf_read h, UInt64.toNat_inj]
  constructor
  · exact fun hmagic => congrArg ByteVector.bytes (eq_magicBytes hmagic)
  · intro hread
    rw [← magicOf_magicBytes]
    exact congrArg magicOf (Bytes.eq_of_bytes_eq hread)

/-- What an existing file with the bytes `b` is found to be. -/
def judged (size : UInt64) (file : Handle) (b : ByteArray) : Memo :=
  if b.size ≠ size.toNat + 8 then .stale (.size size (b.size - 8).toUInt64)
  else if startNumber b ≠ Params.magic.toNat then .stale (.magic (some (startNumber b).toUInt64))
  else .found file

/-- The byte with which a new file is enlarged is no part of the magic number. -/
theorem unmarked_write_last (position n : Nat) :
    Unmarked (Contents.empty.write position ((ByteArray.mk #[0x0a]).extract 0 n)) := by
  unfold Unmarked
  rw [Contents.byte_write, Contents.byte_empty]
  split
  · rename_i hzero
    rw [Bytes.getElem!_extract, show 0 + (0 - position) = 0 by omega]
    split <;> decide
  · decide

namespace Work

variable {w : Work} {s : Disk × Ledger} {path : Path} {size : UInt64}

/-- The file is marked and has the right size. -/
def Ready (w : Work) (file : Handle) (size : UInt64) (s : Disk × Ledger) : Prop :=
  ∃ id c cache, w.Has file id c cache s ∧ Marked c ∧ c.size = size.toNat + 8

/-- The file was made by this call, and is not marked. -/
def Fresh (w : Work) (file : Handle) (s : Disk × Ledger) : Prop :=
  ∃ id c, w.Has file id c w.handed s ∧ Unmarked c

theorem Ready.waits {file : Handle} {s' : Disk × Ledger} (h : w.Ready file size s)
    (hwaits : w.Waits s s') : w.Ready file size s' := by
  obtain ⟨id, c, cache, hhas, hmarked, hsize⟩ := h
  exact ⟨id, c, cache, hhas.waits hwaits, hmarked, hsize⟩

/-- What is known of the file of a memo. -/
def Means (w : Work) (size : UInt64) : Memo → Disk × Ledger → Prop
  | .found file, s => w.Ready file size s
  | .created file, s => w.Fresh file s
  | .stale _, s => w.Trusted s

theorem Ready.trusted {file : Handle} (h : w.Ready file size s) : w.Trusted s := by
  obtain ⟨id, c, cache, hhas, -⟩ := h
  exact hhas.trusted

theorem Fresh.trusted {file : Handle} (h : w.Fresh file s) : w.Trusted s := by
  obtain ⟨id, c, hhas, -⟩ := h
  exact hhas.trusted

theorem Means.trusted {memo : Memo} (h : w.Means size memo s) : w.Trusted s := by
  cases memo with
  | found file => exact Ready.trusted h
  | created file => exact Fresh.trusted h
  | stale reason => exact h

theorem attempts_createSized (hpath : path.location = w.place) (h : w.Trusted s) :
    Yields w.terms (w.Means size) (createSized path size) s := by
  refine Yields.createSized (fun file s => ∃ id, w.Has file id .empty w.handed s)
    (fun file s => ∃ id, w.Has file id .empty w.handed s ∧
      (size + Params.magicBytes.toUInt64 - 1).toNat < 2 ^ 63) w.Fresh ?_ ?_ ?_ ?_
  · exact asks_create hpath h
  · rintro file s ⟨id, h⟩
    refine comes_look trivial (fun _ h => h) h.trusted fun a _ s' hdoes ha hwaits => ?_
    obtain rfl : a = .ok () := ha
    exact ⟨id, h.waits hwaits, Disk.seek_eq_ok h.referent hdoes.2.symm⟩
  · rintro file s ⟨id, h, hposition⟩
    have hdata (n : Nat) : ((ByteArray.mk #[0x0a]).extract 0 n).size ≤ 1 := by
      rw [ByteArray.size_extract]
      exact Nat.le_trans (Nat.sub_le _ _) (Nat.min_le_right _ _)
    refine Asks.comes (h.asks_write fun n => (unmarked_write_last _ n).sound ?_) fun _ s h =>
      ⟨id, _, h, unmarked_write_last _ 1⟩
    have := hdata n
    rw [Contents.size_write]
    split
    · decide
    · rw [Contents.size_empty]
      omega
  · rintro file s ⟨id, c, h, hunmarked⟩
    refine comes_look trivial (fun _ h => h) h.trusted fun _ _ s' _ _ hwaits => ?_
    exact ⟨id, c, h.waits hwaits, hunmarked⟩

theorem attempts_probe {file : Handle} (h : w.Trusted s)
    (hfile : file.referent = .directory ∨ ∃ id c cache, w.Has file id c cache s) :
    Yields w.terms (w.Means size) (probe file path size) s := by
  refine Yields.probe
    (fun found s => w.Trusted s ∧ (file.referent = .directory ∨
      ∃ id c cache, w.Has file id c cache s ∧ found.toNat = c.size))
    (fun bytes s => w.Trusted s ∧ ∃ id c cache, w.Has file id c cache s ∧
      c.size = size.toNat + 8 ∧ c.read 0 8 = bytes.bytes) ?_ ?_ ?_ ?_ ?_
  · refine comes_look trivial (fun _ h => h) h fun a found s' hdoes ha hwaits => ?_
    obtain rfl : a = .ok found := ha
    obtain rfl : found = (s.1.size file).toUInt64 := Except.ok.inj hdoes.2
    refine ⟨hwaits.trusted, hfile.imp_right ?_⟩
    rintro ⟨id, c, cache, h⟩
    refine ⟨id, c, cache, h.waits hwaits, ?_⟩
    have hle := h.sound.size_le
    rw [Disk.size_eq h.referent, h.contents, Nat.toUInt64_eq, UInt64.toNat_ofNat',
      Nat.mod_eq_of_lt (by omega)]
  · exact fun _ _ h _ => h.1
  · rintro found s ⟨h, hfile⟩ hstored
    refine (asks_look (r := .readMagic file) trivial h).mono fun answer s' ⟨hread, hwaits⟩ => ?_
    cases answer with
    | error cause => exact (notes_waits hwaits.trusted _).mono fun _ _ hwaits => hwaits.trusted
    | ok bytes =>
      obtain ⟨-, hread⟩ := hread.resolve_right nofun
      rcases hfile with hdirectory | ⟨id, c, cache, h, hfound⟩
      · exact absurd hread.symm (Disk.readStart_directory hdirectory)
      have hstart := (Disk.readStart_eq_ok h.referent hread.symm).2
      rw [h.contents] at hstart
      refine ⟨hwaits.trusted, id, c, cache, h.waits hwaits, ?_, hstart⟩
      rw [← hfound, storedSize_eq hstored]
  · exact fun _ _ h _ => h.1
  · rintro bytes s ⟨-, id, c, cache, h, hsize, hstart⟩ hmagic
    obtain rfl := eq_magicBytes hmagic
    exact ⟨id, c, cache, h, ⟨by omega, hstart⟩, hsize⟩

/-- Whatever stands at the path of a DAG file, the file that is opened or created is its file. -/
theorem attempts_prepare {place : Place} (hplace : place.path.location = w.place) (h : w.Trusted s)
    (force : Bool) : Yields w.terms (w.Means size) (prepare place size force) s := by
  refine Yields.prepare w.Trusted ?_ (fun s h _ => attempts_createSized hplace h) fun s h _ => ?_
  · exact Asks.comes (asks_makeDirectory h) fun _ _ h =>
      (notes_waits h _).mono fun _ _ hwaits => hwaits.trusted
  refine (asks_look (r := .openExisting _) trivial h).mono fun answer s' ⟨hopen, hwaits⟩ => ?_
  cases answer with
  | error cause =>
    exact (notes_waits hwaits.trusted _).mono fun _ _ hwaits =>
      attempts_createSized hplace hwaits.trusted
  | ok file =>
    obtain ⟨-, canRead, canWrite, hopen⟩ := hopen.resolve_right nofun
    refine attempts_probe hwaits.trusted ?_
    rcases Disk.openExisting_eq_ok hopen.symm with ⟨hdirectory, -⟩ | ⟨id, hid, hlookup⟩
    · exact .inl hdirectory
    · rw [hplace] at hlookup
      exact .inr ⟨id, _, _, Has.waits ⟨h, hid, hlookup, rfl, rfl⟩ hwaits⟩

end Work

end DagFile

end ProofOfWork
