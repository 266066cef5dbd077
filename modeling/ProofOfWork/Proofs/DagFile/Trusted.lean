import Mathlib.Data.Set.Defs
import ProofOfWork.DagFile.Prepare
import ProofOfWork.Proofs.DagFile.Serves
import ProofOfWork.Proofs.Dataset.Bytes

/-! What may be trusted of a DAG file: when it starts with the magic number, its dataset is complete.
`Trusted` is this for all DAG files at once, and a call that is at work on one of them `Moves` from one
such state to another. -/

namespace ProofOfWork.DagFile

open Disk (Created SameFiles)

/-- The first bytes of a file are the magic number. -/
def Marked (c : Contents) : Prop := 8 ≤ c.size ∧ c.read 0 8 = magicBytes.bytes

/-- The bytes of a file after the first eight are the dataset for a cache. -/
def Complete (H : Hasher) (cache : Option Cache) (c : Contents) : Prop :=
  ∃ k count, cache = some k ∧ Dataset.nodeCount (c.size - 8) = .ok count ∧
    c.read 8 (c.size - 8) = Dataset.bytes H k count.toNat

/-- A file that is marked is complete. No file is so long that its size is not a number of 64 bits. -/
structure Sound (H : Hasher) (cache : Option Cache) (c : Contents) : Prop where
  size_le : c.size ≤ 2 ^ 63
  complete : Marked c → Complete H cache c

/-- A file whose first byte is not that of the magic number. -/
def Unmarked (c : Contents) : Prop := c.byte 0 ≠ 0xFE

theorem Unmarked.not_marked {c : Contents} (h : Unmarked c) : ¬Marked c := by
  rintro ⟨-, hread⟩
  have hbyte : (c.read 0 8)[0]! = c.byte 0 := by rw [Contents.getElem!_read, if_pos (by decide)]
  rw [hread] at hbyte
  exact h hbyte.symm

theorem Unmarked.sound {H : Hasher} {cache : Option Cache} {c : Contents} (h : Unmarked c)
    (hsize : c.size ≤ 2 ^ 63) : Sound H cache c :=
  ⟨hsize, fun hmarked => absurd hmarked h.not_marked⟩

theorem unmarked_empty : Unmarked .empty := by
  show (0 : UInt8) ≠ 0xFE
  decide

theorem sound_empty (H : Hasher) (cache : Option Cache) : Sound H cache .empty :=
  unmarked_empty.sound (by decide)

variable (H : Hasher) (places : Set Location) (own : Location → Cache → Prop)

/-- The files at `places` are sound, and made for caches that belong there. No two of the places share
a file, and nothing is in the ledger for files that are yet to be made. -/
structure Trusted (s : Disk × Ledger) : Prop where
  inRange : ∀ place ∈ places, ∀ id, s.1.lookup place = some (.file id) → id < s.1.contents.size
  apart : ∀ place ∈ places, ∀ other ∈ places, ∀ id, s.1.lookup place = some (.file id) →
    s.1.lookup other = some (.file id) → place = other
  sound : ∀ place ∈ places, ∀ id, s.1.lookup place = some (.file id) →
    Sound H (s.2 id) (s.1.file id)
  owned : ∀ place ∈ places, ∀ id, s.1.lookup place = some (.file id) →
    ∀ c, s.2 id = some c → own place c
  unused : ∀ id, s.1.contents.size ≤ id → s.2 id = none

/-- The same file stands at a place, with the same contents and the same entry in the ledger. -/
structure SameAt (place : Location) (s s' : Disk × Ledger) : Prop where
  lookup_iff : ∀ id, s'.1.lookup place = some (.file id) ↔ s.1.lookup place = some (.file id)
  file_eq : ∀ id, s.1.lookup place = some (.file id) → s'.1.file id = s.1.file id
  ledger_eq : ∀ id, s.1.lookup place = some (.file id) → s'.2 id = s.2 id

/-- What a call that is at work on the file at `place` does in one step: all files can be trusted after
it, and those at other places are as they were. -/
structure Moves (place : Location) (s s' : Disk × Ledger) : Prop where
  trusted : Trusted H places own s'
  elsewhere : ∀ other ∈ places, other ≠ place → SameAt other s s'

variable {H places own} {d' : Disk} {place : Location} {s s' s'' : Disk × Ledger}

theorem SameAt.refl (place : Location) (s : Disk × Ledger) : SameAt place s s :=
  ⟨fun _ => Iff.rfl, fun _ _ => rfl, fun _ _ => rfl⟩

theorem SameAt.trans (h : SameAt place s s') (h' : SameAt place s' s'') : SameAt place s s'' where
  lookup_iff id := (h'.lookup_iff id).trans (h.lookup_iff id)
  file_eq id hid := (h'.file_eq id ((h.lookup_iff id).mpr hid)).trans (h.file_eq id hid)
  ledger_eq id hid := (h'.ledger_eq id ((h.lookup_iff id).mpr hid)).trans (h.ledger_eq id hid)

theorem Trusted.moves_refl (h : Trusted H places own s) : Moves H places own place s s :=
  ⟨h, fun other _ _ => .refl other s⟩

theorem trusted_of_no_file {d : Disk}
    (h : ∀ place ∈ places, ∀ id, d.lookup place ≠ some (.file id)) :
    Trusted H places own (d, fun _ => none) where
  inRange place hplace id hid := absurd hid (h place hplace id)
  apart place hplace _ _ id hid := absurd hid (h place hplace id)
  sound place hplace id hid := absurd hid (h place hplace id)
  owned place hplace id hid := absurd hid (h place hplace id)
  unused _ _ := rfl

/-- Directories play no part. -/
theorem Trusted.sameFiles (h : Trusted H places own s) (hsame : SameFiles s.1 d') :
    Moves H places own place s (d', s.2) := by
  have hfile := hsame.file_eq
  have hsize : d'.contents.size = s.1.contents.size := congrArg _ hsame.contents
  refine ⟨?_, fun other _ _ => ⟨hsame.file_iff other, fun id _ => hfile id, fun _ _ => rfl⟩⟩
  obtain ⟨hrange, hapart, hsound, howned, hunused⟩ := h
  constructor
  all_goals simp only [hsame.file_iff, hfile, hsize]
  · exact hrange
  · exact hapart
  · exact hsound
  · exact howned
  · exact hunused

/-- The contents of the file change, but it stays sound. -/
theorem Trusted.modify (h : Trusted H places own s) (hplace : place ∈ places) {id : Nat}
    (hid : s.1.lookup place = some (.file id)) {f : Contents → Contents}
    (hsound : Sound H (s.2 id) (f (s.1.file id))) :
    Moves H places own place s (s.1.modify id f, s.2) := by
  obtain ⟨hrange, hapart, hall, howned, hunused⟩ := h
  have hlt := hrange place hplace id hid
  constructor
  · constructor
    all_goals simp only [Disk.lookup_modify, Disk.size_contents_modify]
    · exact hrange
    · exact hapart
    · intro other hother i hi
      rw [Disk.file_modify hlt]
      split
      · rename_i heq
        rw [heq]
        exact hsound
      · exact hall other hother i hi
    · exact howned
    · exact hunused
  · intro other hother hne
    refine ⟨fun _ => Iff.rfl, fun i hi => ?_, fun _ _ => rfl⟩
    -- the file at another place is another file
    have hidne : i ≠ id := by
      rintro rfl
      exact hne (hapart other hother place hplace i hi hid)
    rw [Disk.file_modify hlt, if_neg hidne]

section

variable {id i : Nat} {other : Location} (h : Trusted H places own s) (hplace : place ∈ places)
  (hcreated : Created s.1 place id d')

include h hplace hcreated

/-- A file at another place is another file than the one that is made. -/
theorem Trusted.ne_created (hother : other ∈ places) (hne : other ≠ place)
    (hi : s.1.lookup other = some (.file i)) : i ≠ id := by
  rintro rfl
  rcases hcreated.before with hbefore | hbefore
  · exact hne (h.apart other hother place hplace i hi hbefore)
  · exact Nat.ne_of_lt (h.inRange other hother i hi) hbefore

theorem Trusted.lookup_created (hother : other ∈ places) (hi : d'.lookup other = some (.file i)) :
    other = place ∧ i = id ∨ i ≠ id ∧ s.1.lookup other = some (.file i) := by
  by_cases hne : other = place
  · rw [hne, hcreated.lookup_eq] at hi
    cases hi
    exact .inl ⟨hne, rfl⟩
  · rw [hcreated.lookup_ne other hne] at hi
    exact .inr ⟨h.ne_created hplace hcreated hother hne hi, hi⟩

/-- The file is made anew, for a cache that belongs there if one was handed to the call. -/
theorem Trusted.created {l : Ledger} (hl : ∀ i, i ≠ id → l i = s.2 i)
    (hown : ∀ c, l id = some c → own place c) : Moves H places own place s (d', l) := by
  have hlookup {other : Location} {i : Nat} (hother : other ∈ places)
      (hi : d'.lookup other = some (.file i)) := h.lookup_created hplace hcreated hother hi
  constructor
  · constructor
    · intro other hother i hi
      rcases hlookup hother hi with ⟨-, rfl⟩ | ⟨-, hi⟩
      · exact hcreated.lt_size
      · exact Nat.lt_of_lt_of_le (h.inRange other hother i hi) hcreated.size_le
    · intro first hfirst second hsecond i hi hi'
      rcases hlookup hfirst hi with ⟨rfl, rfl⟩ | ⟨hid, hi⟩
      · rcases hlookup hsecond hi' with ⟨rfl, -⟩ | ⟨hid, -⟩
        · rfl
        · exact absurd rfl hid
      · rcases hlookup hsecond hi' with ⟨-, rfl⟩ | ⟨-, hi'⟩
        · exact absurd rfl hid
        · exact h.apart first hfirst second hsecond i hi hi'
    · intro other hother i hi
      show Sound H (l i) (d'.file i)
      rcases hlookup hother hi with ⟨-, rfl⟩ | ⟨hid, hi⟩
      · rw [hcreated.empty]
        exact sound_empty H _
      · rw [hl i hid, hcreated.file_ne i hid]
        exact h.sound other hother i hi
    · intro other hother i hi c hc
      rcases hlookup hother hi with ⟨rfl, rfl⟩ | ⟨hid, hi⟩
      · exact hown c hc
      · exact h.owned other hother i hi c ((hl i hid).symm.trans hc)
    · intro i hi
      have hid : i ≠ id := by
        rintro rfl
        exact absurd hcreated.lt_size (Nat.not_lt.mpr hi)
      exact (hl i hid).trans (h.unused i (Nat.le_trans hcreated.size_le hi))
  · intro other hother hne
    have hid {i : Nat} (hi : s.1.lookup other = some (.file i)) : i ≠ id :=
      h.ne_created hplace hcreated hother hne hi
    refine ⟨fun i => ?_, fun i hi => hcreated.file_ne i (hid hi), fun i hi => hl i (hid hi)⟩
    show d'.lookup other = _ ↔ _
    rw [hcreated.lookup_ne other hne]

end

end ProofOfWork.DagFile
