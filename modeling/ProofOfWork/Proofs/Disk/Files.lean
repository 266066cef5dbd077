import ProofOfWork.Proofs.Disk.Contents
import ProofOfWork.Proofs.Disk.Location

/-! What the calls to a file system do to the files on it: which files stand where, and what is in
them. -/

namespace ProofOfWork.Disk

variable {d d' : Disk} {p : Path} {place other : Location}

theorem lookup_insert (hplace : place ≠ []) (entry : Entry) :
    (d.insert place entry).lookup other = if other = place then some entry else d.lookup other := by
  unfold lookup insert
  by_cases hother : other = place
  · subst hother
    rw [if_neg hplace, if_pos rfl, List.find?_cons_of_pos (by simp)]
    rfl
  · rw [if_neg hother, List.find?_cons_of_neg (by simp [Ne.symm hother])]

/-- The root is always there. -/
theorem ne_root_of_free (h : d.lookup place = none) : place ≠ [] := by
  rintro rfl
  rw [lookup, if_pos rfl] at h
  contradiction

theorem lookup_scratch (name : String) (place : Location) (id : Nat) :
    (scratch name).lookup place ≠ some (.file id) := by
  unfold lookup scratch
  rw [List.find?_cons, List.find?_nil]
  intro h
  split at h
  · cases h
  · split at h <;> cases h

theorem file_modify {id i : Nat} (h : id < d.contents.size) (f : Contents → Contents) :
    (d.modify id f).file i = if i = id then f (d.file id) else d.file i := by
  unfold file modify
  rw [Array.getElem?_modify]
  by_cases hi : i = id
  · subst hi
    rw [if_pos rfl, if_pos rfl, Array.getElem?_eq_getElem h]
    rfl
  · rw [if_neg (Ne.symm hi), if_neg hi]

@[simp] theorem lookup_modify (id : Nat) (f : Contents → Contents) :
    (d.modify id f).lookup place = d.lookup place := rfl

@[simp] theorem size_contents_modify (id : Nat) (f : Contents → Contents) :
    (d.modify id f).contents.size = d.contents.size := Array.size_modify ..

/-- The bytes of the file at a place, if there is a file. -/
def bytesAt (d : Disk) (place : Location) : Option ByteArray :=
  match d.lookup place with
  | some (.file id) => some (d.file id).bytes
  | _ => none

theorem bytesAt_of_file {id : Nat} (h : d.lookup place = some (.file id)) :
    d.bytesAt place = some (d.file id).bytes := by
  rw [bytesAt, h]

theorem bytesAt_eq_some {b : ByteArray} (h : d.bytesAt place = some b) :
    ∃ id, d.lookup place = some (.file id) ∧ (d.file id).bytes = b := by
  unfold bytesAt at h
  split at h
  · exact ⟨_, ‹_›, Option.some.inj h⟩
  · contradiction

/-- A file that is not empty is on the disk. -/
theorem lt_size_of_file {id : Nat} (h : 0 < (d.file id).size) : id < d.contents.size := by
  refine Nat.lt_of_not_le fun hle => ?_
  rw [file, Array.getElem?_eq_none hle] at h
  exact Nat.lt_irrefl 0 h

/-! ### Directories -/

/-- Two disks have the same files, with the same contents, at the same places. -/
structure SameFiles (d d' : Disk) : Prop where
  contents : d'.contents = d.contents
  file_iff : ∀ place id, d'.lookup place = some (.file id) ↔ d.lookup place = some (.file id)

theorem SameFiles.file_eq (h : SameFiles d d') (id : Nat) : d'.file id = d.file id := by
  rw [file, file, h.contents]

theorem SameFiles.bytesAt_eq (h : SameFiles d d') (place : Location) :
    d'.bytesAt place = d.bytesAt place := by
  refine Option.ext fun b => ⟨fun hb => ?_, fun hb => ?_⟩
  · obtain ⟨id, hid, rfl⟩ := bytesAt_eq_some hb
    rw [bytesAt_of_file ((h.file_iff place id).mp hid), h.file_eq]
  · obtain ⟨id, hid, rfl⟩ := bytesAt_eq_some hb
    rw [bytesAt_of_file ((h.file_iff place id).mpr hid), h.file_eq]

theorem SameFiles.refl (d : Disk) : SameFiles d d := ⟨rfl, fun _ _ => Iff.rfl⟩

theorem SameFiles.trans {d'' : Disk} (h : SameFiles d d') (h' : SameFiles d' d'') :
    SameFiles d d'' :=
  ⟨h'.contents.trans h.contents, fun place id => (h'.file_iff place id).trans (h.file_iff place id)⟩

/-- One directory is made where nothing was, or nothing is done. -/
theorem makeDirectory_cases (d : Disk) (names : List String) :
    (∃ e, d.makeDirectory names = (.error e, d)) ∨
      ∃ place, d.walk [] names = .ok place ∧ d.lookup place = none ∧
        d.makeDirectory names = (.ok (), d.insert place .directory) := by
  unfold makeDirectory
  split
  · exact .inl ⟨_, rfl⟩
  · rename_i place hwalk
    dsimp only
    split
    · exact .inl ⟨_, rfl⟩
    · rename_i hfree
      simp only [not_or, Bool.not_eq_true, Option.isSome_eq_false_iff, Option.isNone_iff_eq_none]
        at hfree
      exact .inr ⟨place, hwalk, hfree.2.2, rfl⟩

theorem sameFiles_makeDirectory (d : Disk) (names : List String) :
    SameFiles d (d.makeDirectory names).2 := by
  rcases makeDirectory_cases d names with ⟨e, heq⟩ | ⟨place, -, hfree, heq⟩
  · rw [heq]
    exact .refl d
  · rw [heq]
    refine ⟨rfl, fun other id => ?_⟩
    rw [lookup_insert (ne_root_of_free hfree)]
    split
    · rename_i hother
      rw [hother, hfree]
      simp
    · rfl

/-- What is true of one directory that is made is true of all that are made on the way to one. -/
theorem makeDirectoriesUpTo_rel {R : Disk → Disk → Prop} (hrefl : ∀ d, R d d)
    (htrans : ∀ d d' d'', R d d' → R d' d'' → R d d'')
    (hone : ∀ d names, R d (d.makeDirectory names).2) (depth : Nat) (d : Disk)
    (names : List String) : R d (makeDirectoriesUpTo depth d names).2 := by
  induction depth generalizing d names with
  | zero => exact hrefl d
  | succ depth ih =>
    have hfirst := hone d names
    rw [makeDirectoriesUpTo]
    split
    · rename_i heq
      rw [heq] at hfirst
      exact hfirst
    · rename_i d₁ heq
      rw [heq] at hfirst
      have hparents := htrans _ _ _ hfirst (ih d₁ (parentNames names))
      split
      · rename_i heq
        rw [heq] at hparents
        exact hparents
      · rename_i d₂ heq
        rw [heq] at hparents
        have hagain := htrans _ _ _ hparents (hone d₂ names)
        split
        · rename_i heq
          rw [heq] at hagain
          exact hagain
        · rename_i heq
          rw [heq] at hagain
          exact hagain
    · rename_i heq
      rw [heq] at hfirst
      exact hfirst

theorem makeDirectories_rel {R : Disk → Disk → Prop} (hrefl : ∀ d, R d d)
    (htrans : ∀ d d' d'', R d d' → R d' d'' → R d d'')
    (hone : ∀ d names, R d (d.makeDirectory names).2) (d : Disk) (p : Path) :
    R d (d.makeDirectories p).2 := by
  unfold makeDirectories
  split
  · exact hrefl d
  · split
    · exact hrefl d
    · exact makeDirectoriesUpTo_rel hrefl htrans hone _ d p.names

theorem sameFiles_makeDirectories (d : Disk) (p : Path) : SameFiles d (d.makeDirectories p).2 :=
  makeDirectories_rel SameFiles.refl (fun _ _ _ => SameFiles.trans) sameFiles_makeDirectory d p

theorem maxFileSize_makeDirectories (d : Disk) (p : Path) :
    (d.makeDirectories p).2.maxFileSize = d.maxFileSize := by
  refine (makeDirectories_rel (R := fun d d' => d.maxFileSize = d'.maxFileSize) (fun _ => rfl)
    (fun _ _ _ => Eq.trans) (fun d names => ?_) d p).symm
  rcases makeDirectory_cases d names with ⟨e, heq⟩ | ⟨place, -, -, heq⟩ <;> rw [heq]
  rfl

/-! ### Opening and creating files -/

theorem openExisting_eq_ok {canRead canWrite : Bool} {file : Handle}
    (h : d.openExisting p canRead canWrite = .ok file) :
    file.referent = .directory ∧ d.lookup p.location = some .directory ∨
      ∃ id, file.referent = .file id ∧ d.lookup p.location = some (.file id) := by
  unfold openExisting at h
  cases hresolve : d.resolve p with
  | error e =>
    rw [hresolve] at h
    contradiction
  | ok place =>
    rw [resolve_eq_ok hresolve]
    rw [hresolve] at h
    cases hentry : d.lookup place with
    | none =>
      simp only [bind, Except.bind, hentry] at h
      contradiction
    | some entry =>
      simp only [bind, Except.bind, hentry] at h
      cases entry with
      | directory =>
        left
        revert h
        cases canWrite with
        | true => exact fun h => by contradiction
        | false => exact fun h => ⟨by rw [← Except.ok.inj h], rfl⟩
      | file id =>
        right
        exact ⟨id, by rw [← Except.ok.inj h], rfl⟩

/-- What is opened to be written is a file. -/
theorem openExisting_write_eq_ok {canRead : Bool} {file : Handle}
    (h : d.openExisting p canRead true = .ok file) :
    ∃ id, file = ⟨.file id, canRead, true⟩ ∧ d.resolve p = .ok p.location ∧
      d.lookup p.location = some (.file id) := by
  unfold openExisting at h
  cases hresolve : d.resolve p with
  | error e =>
    rw [hresolve] at h
    contradiction
  | ok place =>
    rw [resolve_eq_ok hresolve]
    rw [hresolve] at h
    cases hentry : d.lookup place with
    | none =>
      simp only [bind, Except.bind, hentry] at h
      contradiction
    | some entry =>
      simp only [bind, Except.bind, hentry] at h
      cases entry with
      | directory => contradiction
      | file id => exact ⟨id, (Except.ok.inj h).symm, rfl, rfl⟩

/-- The disk after a call that created file `id` at `place`, or emptied it. -/
structure Created (d : Disk) (place : Location) (id : Nat) (d' : Disk) : Prop where
  lookup_eq : d'.lookup place = some (.file id)
  lookup_ne : ∀ other, other ≠ place → d'.lookup other = d.lookup other
  empty : d'.file id = .empty
  file_ne : ∀ i, i ≠ id → d'.file i = d.file i
  lt_size : id < d'.contents.size
  size_le : d.contents.size ≤ d'.contents.size
  before : d.lookup place = some (.file id) ∨ id = d.contents.size

/-- A call that creates a file fails and leaves the disk as it was, or creates the file. -/
theorem create_cases (hrange : ∀ id, d.lookup p.location = some (.file id) → id < d.contents.size)
    (canRead canWrite : Bool) :
    (∃ e, d.create p canRead canWrite = (.error e, d)) ∨
      ∃ id d', d.create p canRead canWrite = (.ok ⟨.file id, canRead, canWrite⟩, d') ∧
        Created d p.location id d' := by
  unfold create
  split
  · exact .inl ⟨_, rfl⟩
  split
  · exact .inl ⟨_, rfl⟩
  rename_i place hresolve
  obtain rfl := resolve_eq_ok hresolve
  split
  · exact .inl ⟨_, rfl⟩
  · rename_i id hfile
    have hlt := hrange id hfile
    refine .inr ⟨id, _, rfl, hfile, fun _ _ => rfl, ?_, fun i hi => ?_, ?_, ?_, .inl hfile⟩
    · rw [file_modify hlt, if_pos rfl]
    · rw [file_modify hlt, if_neg hi]
    · rw [size_contents_modify]
      exact hlt
    · exact Nat.le_of_eq (size_contents_modify ..).symm
  · rename_i hnone
    have hplace := ne_root_of_free hnone
    refine .inr ⟨d.contents.size, _, rfl, ?_, fun other hother => ?_, ?_, fun i hi => ?_, ?_, ?_,
      .inr rfl⟩
    · exact (lookup_insert hplace _).trans (if_pos rfl)
    · exact (lookup_insert hplace _).trans (if_neg hother)
    · simp [file]
    · simp only [file]
      rw [Array.getElem?_push, if_neg hi]
    · simp
    · simp

/-! ### Calls on an open file -/

section

variable {file : Handle} {id : Nat}

theorem size_eq (h : file.referent = .file id) : d.size file = (d.file id).size := by
  unfold size
  rw [h]

theorem write_cases (h : file.referent = .file id) (d : Disk) (position : UInt64)
    (data : ByteArray) :
    (∃ e, d.write file position data = (.error e, d)) ∨
      d.write file position data = (.ok (), d.modify id (·.write position.toNat data)) := by
  unfold write
  rw [h]
  dsimp only
  split
  · split
    · exact .inl ⟨_, rfl⟩
    · exact .inr rfl
  · exact .inl ⟨_, rfl⟩

/-- What is written to a file that is open for writing fits on the disk. -/
theorem write_eq_ok {canRead : Bool} {position : UInt64} {data : ByteArray}
    (hwrite : d.write ⟨.file id, canRead, true⟩ position data = (.ok (), d')) :
    position.toNat + data.size ≤ d.maxFileSize ∧ d.modify id (·.write position.toNat data) = d' := by
  simp only [write, if_true] at hwrite
  split at hwrite
  · cases hwrite
  · rename_i hroom
    exact ⟨Nat.le_of_not_lt hroom, (Prod.mk.inj hwrite).2⟩

theorem setLength_cases (h : file.referent = .file id) (d : Disk) (length : UInt64) :
    (∃ e, d.setLength file length = (.error e, d)) ∨
      length.toNat < 2 ^ 63 ∧
        d.setLength file length = (.ok (), d.modify id (·.resize length.toNat)) := by
  unfold setLength
  rw [h]
  dsimp only
  split
  · exact .inl ⟨_, rfl⟩
  · rename_i hlimit
    split
    · exact .inl ⟨_, rfl⟩
    split
    · exact .inl ⟨_, rfl⟩
    · exact .inr ⟨Nat.lt_of_not_le hlimit, rfl⟩

theorem store_eq (h : file.referent = .file id) (d : Disk) (offset : Nat) (data : ByteArray) :
    d.store file offset data = d.modify id (·.overwrite offset data) := by
  unfold store
  rw [h]
  rfl

theorem seek_eq_ok (h : file.referent = .file id) {position : UInt64}
    (hseek : d.seek file position = .ok ()) : position.toNat < 2 ^ 63 := by
  unfold seek at hseek
  rw [h] at hseek
  dsimp only at hseek
  split at hseek
  · contradiction
  · rename_i hlimit
    exact Nat.lt_of_not_le fun hle => hlimit (.inl hle)

theorem map_eq_ok (h : file.referent = .file id) {length : Nat} (hmap : d.map file = .ok length) :
    length = (d.file id).size := by
  unfold map at hmap
  rw [h] at hmap
  split at hmap
  · exact (Except.ok.inj hmap).symm
  · contradiction

end

/-! ### Calls that succeed -/

section

variable {id : Nat}

theorem openExisting_of_file (hresolve : d.resolve p = .ok place)
    (hfile : d.lookup place = some (.file id)) (canRead canWrite : Bool) :
    d.openExisting p canRead canWrite = .ok ⟨.file id, canRead, canWrite⟩ := by
  rw [openExisting, hresolve]
  simp [bind, Except.bind, hfile, pure, Except.pure]

theorem openExisting_of_free (hresolve : d.resolve p = .ok place) (hfree : d.lookup place = none)
    (canRead canWrite : Bool) : d.openExisting p canRead canWrite = .error (.os .noEntry) := by
  rw [openExisting, hresolve]
  simp [bind, Except.bind, hfree, throw, throwThe, MonadExceptOf.throw]

theorem maxFileSize_create (d : Disk) (p : Path) (canRead canWrite : Bool) :
    (d.create p canRead canWrite).2.maxFileSize = d.maxFileSize := by
  unfold create
  split
  · rfl
  · split
    · rfl
    · split <;> rfl

theorem create_of_resolve (hslash : p.endsWithSlash = false) (hresolve : d.resolve p = .ok p.location)
    (hentry : d.lookup p.location ≠ some .directory)
    (hrange : ∀ id, d.lookup p.location = some (.file id) → id < d.contents.size)
    (canRead canWrite : Bool) :
    ∃ id d', d.create p canRead canWrite = (.ok ⟨.file id, canRead, canWrite⟩, d') ∧
      Created d p.location id d' ∧ d'.maxFileSize = d.maxFileSize := by
  have hmax := maxFileSize_create d p canRead canWrite
  rcases create_cases hrange canRead canWrite with ⟨e, heq⟩ | ⟨id, d', heq, hcreated⟩
  · rw [create, hslash, hresolve] at heq
    simp only [Bool.false_eq_true, if_false] at heq
    split at heq
    · exact absurd ‹_› hentry
    · cases heq
    · cases heq
  · rw [heq] at hmax
    exact ⟨id, d', heq, hcreated, hmax⟩

variable (d)

theorem readStart_of_le (id : Nat) {n : Nat} (h : n ≤ (d.file id).size) (canWrite : Bool) :
    d.readStart ⟨.file id, true, canWrite⟩ n = .ok ⟨(d.file id).read 0 n, Contents.size_read ..⟩ := by
  have hread : ByteVector.ofByteArray? (n := n) ((d.file id).read 0 n) =
      some ⟨(d.file id).read 0 n, Contents.size_read ..⟩ := dif_pos (Contents.size_read ..)
  simp only [readStart, if_true, Nat.min_eq_left h, hread]

theorem seek_of_le (id : Nat) {position : UInt64} (hlimit : position.toNat < 2 ^ 63)
    (hmax : position.toNat ≤ d.maxFileSize) (canRead canWrite : Bool) :
    d.seek ⟨.file id, canRead, canWrite⟩ position = .ok () := by
  refine if_neg ?_
  have hposition : positionLimit = 2 ^ 63 := rfl
  omega

theorem write_of_le (id : Nat) {position : UInt64} {data : ByteArray}
    (hmax : position.toNat + data.size ≤ d.maxFileSize) (canRead : Bool) :
    d.write ⟨.file id, canRead, true⟩ position data =
      (.ok (), d.modify id (·.write position.toNat data)) := by
  simp only [write, if_true, if_neg (Nat.not_lt.mpr hmax)]

theorem setLength_of_le (id : Nat) {length : UInt64} (hlimit : length.toNat < 2 ^ 63)
    (hmax : length.toNat ≤ d.maxFileSize) (canRead : Bool) :
    d.setLength ⟨.file id, canRead, true⟩ length =
      (.ok (), d.modify id (·.resize length.toNat)) := by
  have hposition : ¬positionLimit ≤ length.toNat := Nat.not_le.mpr hlimit
  simp only [setLength, if_neg hposition, Bool.not_true, Bool.false_eq_true, if_false,
    if_neg (Nat.not_lt.mpr hmax)]

end

end ProofOfWork.Disk
