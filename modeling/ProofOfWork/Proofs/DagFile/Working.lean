import ProofOfWork.Proofs.DagFile.Name
import ProofOfWork.Proofs.DagFile.Prepare

/-! Opening DAG files where all calls to the file system are carried out. What is at the path decides
whether the file that is there is used or one is made, and no other file is touched. -/

namespace ProofOfWork

open Program Files

/-! ### Surroundings that work -/

/-- What a request to a file system does to a disk, with the answer. -/
def Disk.serve (r : Files.Request) (d : Disk) : Files.Answer r × Disk :=
  let x := Surroundings.serveFiles (fun _ => .goOn) r ⟨d, #[], #[]⟩
  (x.1, x.2.disk)

/-- A request to the file system. -/
def Files.Request.OnFiles : Files.Request → Prop
  | .caller _ => False
  | _ => True

/-- Every request to the file system is carried out on a disk, which the caller leaves alone. What the
caller was told only changes with reports. -/
structure Works {σ τ : Type} (disk : σ → Disk) (told : σ → τ)
    (serve : (r : Files.Request) → StateM σ (Files.Answer r)) : Prop where
  disk_caller : ∀ r s, disk (serve (.caller r) s).2 = disk s
  disk_files : ∀ r s, r.OnFiles → ((serve r s).1, disk (serve r s).2) = Disk.serve r (disk s)
  told_eq : ∀ r s, (∀ percent, r ≠ .caller (.report percent)) → told (serve r s).2 = told s

theorem works_serveFiles (callback : Array UInt32 → Verdict) :
    Works Surroundings.disk Surroundings.reports (Surroundings.serveFiles callback) where
  disk_caller r s := by cases r <;> rfl
  disk_files r s h := by
    cases r with
    | caller q => exact h.elim
    | _ => rfl
  told_eq r s h := by
    rcases r with (percent | event | others) | _
    · exact absurd rfl (h percent)
    all_goals rfl

section

variable {σ τ : Type} {disk : σ → Disk} {told : σ → τ}
  {serve : (r : Files.Request) → StateM σ (Files.Answer r)} {E : Error → σ → Prop} {d d' : Disk}
  {t : τ} {s : σ}

/-- The disk, and what the caller was told. -/
def Sees (disk : σ → Disk) (told : σ → τ) (d : Disk) (t : τ) (s : σ) : Prop :=
  disk s = d ∧ told s = t

theorem Works.asks (hworks : Works disk told serve) {r : Files.Request} {a : Files.Answer r}
    {P : Files.Answer r → σ → Prop} (hr : r.OnFiles) (h : Sees disk told d t s)
    (hserve : Disk.serve r d = (a, d')) (hP : ∀ s', Sees disk told d' t s' → P a s') :
    Asks (.of (.of serve) E) r P s := by
  obtain ⟨rfl, rfl⟩ := h
  refine ⟨trivial, fun b s' hs => ?_⟩
  have hfiles := hworks.disk_files r s hr
  have htold := hworks.told_eq r s fun percent hreport => by simp [hreport, Request.OnFiles] at hr
  rw [show serve r s = (b, s') from hs, hserve] at hfiles
  rw [show serve r s = (b, s') from hs] at htold
  obtain ⟨rfl, hdisk⟩ := Prod.mk.inj hfiles
  exact hP s' ⟨hdisk, htold⟩

theorem Works.notes (hworks : Works disk told serve) (event : Event) (h : Sees disk told d t s) :
    Notes (.of (.of serve) E) event (Sees disk told d t) s := by
  refine ⟨trivial, fun _ s' hs => ?_⟩
  have hdisk := hworks.disk_caller (.log event) s
  have htold := hworks.told_eq (.caller (.log event)) s fun percent => by simp
  rw [show serve (.caller (.log event)) s = ((), s') from hs] at hdisk htold
  exact ⟨hdisk.trans h.1, htold.trans h.2⟩

end

/-! ### Files at one place and elsewhere -/

/-- All files but the one at `place` are as they were. -/
structure Elsewhere (place : Location) (d d' : Disk) : Prop where
  lookup_iff : ∀ other, other ≠ place → ∀ id,
    d'.lookup other = some (.file id) ↔ d.lookup other = some (.file id)
  file_eq : ∀ id < d.contents.size, d.lookup place ≠ some (.file id) → d'.file id = d.file id
  size_le : d.contents.size ≤ d'.contents.size
  new : ∀ id, d'.lookup place = some (.file id) →
    d.lookup place = some (.file id) ∨ d.contents.size ≤ id

/-- File `id` is at `place`, and all else is as it was. -/
structure Opened (place : Location) (id : Nat) (d d' : Disk) : Prop where
  lookup_eq : d'.lookup place = some (.file id)
  inRange : id < d'.contents.size
  elsewhere : Elsewhere place d d'
  max_eq : d'.maxFileSize = d.maxFileSize

section

variable {place : Location} {d d' d'' : Disk} {id : Nat}

theorem Elsewhere.refl (place : Location) (d : Disk) : Elsewhere place d d :=
  ⟨fun _ _ _ => Iff.rfl, fun _ _ _ => rfl, Nat.le_refl _, fun _ h => .inl h⟩

theorem Elsewhere.trans (h : Elsewhere place d d') (h' : Elsewhere place d' d'') :
    Elsewhere place d d'' where
  lookup_iff other hne id := (h'.lookup_iff other hne id).trans (h.lookup_iff other hne id)
  file_eq id hid hnot := by
    have hnot' : d'.lookup place ≠ some (.file id) := by
      intro hlookup
      rcases h.new id hlookup with hlookup | hle
      · exact hnot hlookup
      · omega
    rw [h'.file_eq id (Nat.lt_of_lt_of_le hid h.size_le) hnot', h.file_eq id hid hnot]
  size_le := Nat.le_trans h.size_le h'.size_le
  new id hlookup := by
    rcases h'.new id hlookup with hlookup | hle
    · exact h.new id hlookup
    · exact .inr (Nat.le_trans h.size_le hle)

theorem elsewhere_of_sameFiles (h : Disk.SameFiles d d') : Elsewhere place d d' where
  lookup_iff other _ id := h.file_iff other id
  file_eq id _ _ := h.file_eq id
  size_le := Nat.le_of_eq (congrArg Array.size h.contents.symm)
  new id hlookup := .inl ((h.file_iff place id).mp hlookup)

theorem opened_refl (hlookup : d.lookup place = some (.file id)) (hrange : id < d.contents.size) :
    Opened place id d d := ⟨hlookup, hrange, .refl place d, rfl⟩

theorem Opened.modify (h : Opened place id d d') (f : Contents → Contents) :
    Opened place id d (d'.modify id f) where
  lookup_eq := h.lookup_eq
  inRange := by
    rw [Disk.size_contents_modify]
    exact h.inRange
  max_eq := h.max_eq
  elsewhere := by
    refine h.elsewhere.trans ⟨fun _ _ _ => Iff.rfl, fun i _ hnot => ?_, ?_, fun _ hi => .inl hi⟩
    · rw [Disk.file_modify h.inRange, if_neg]
      rintro rfl
      exact hnot h.lookup_eq
    · exact Nat.le_of_eq (Disk.size_contents_modify ..).symm

theorem Opened.file_modify (h : Opened place id d d') (f : Contents → Contents) :
    (d'.modify id f).file id = f (d'.file id) := by
  rw [Disk.file_modify h.inRange, if_pos rfl]

theorem opened_of_created (h : Disk.Created d place id d') (hmax : d'.maxFileSize = d.maxFileSize) :
    Opened place id d d' where
  lookup_eq := h.lookup_eq
  inRange := h.lt_size
  max_eq := hmax
  elsewhere := by
    have hnew : d.lookup place = some (.file id) ∨ d.contents.size ≤ id :=
      h.before.imp_right fun heq => Nat.le_of_eq heq.symm
    refine ⟨fun other hne i => by rw [h.lookup_ne other hne], fun i hi hnot => ?_, h.size_le, ?_⟩
    · refine h.file_ne i ?_
      rintro rfl
      rcases hnew with hlookup | hle
      · exact hnot hlookup
      · omega
    · intro i hi
      rw [h.lookup_eq] at hi
      cases hi
      exact hnew

end

namespace DagFile

/-! ### A path with room for a file -/

/-- Nothing is in the way of a DAG file with `size` bytes after the magic number: its directory can be
made, its path leads to a file or to nothing, and there is room for it. -/
structure Fits (place : Place) (size : UInt64) (d : Disk) : Prop where
  join_eq : place.join = Path.join
  made : (d.makeDirectories place.dir).1 = .ok ()
  entry_ne : (d.makeDirectories place.dir).2.lookup place.path.location ≠ some .directory
  path_le : place.path.text.utf8ByteSize ≤ Disk.maxPathSize
  inRange : ∀ id, d.lookup place.path.location = some (.file id) → id < d.contents.size
  size_lt : ∀ id, d.lookup place.path.location = some (.file id) → (d.file id).size < 2 ^ 64
  room : size.toNat + 8 ≤ d.maxFileSize

/-- The directory is there. -/
structure Ready (place : Place) (size : UInt64) (d : Disk) : Prop where
  made : d.makeDirectories place.dir = (.ok (), d)
  slash : place.path.endsWithSlash = false
  resolve : d.resolve place.path = .ok place.path.location
  entry_ne : d.lookup place.path.location ≠ some .directory
  inRange : ∀ id, d.lookup place.path.location = some (.file id) → id < d.contents.size
  size_lt : ∀ id, d.lookup place.path.location = some (.file id) → (d.file id).size < 2 ^ 64
  room : size.toNat + 8 ≤ d.maxFileSize

theorem Fits.ready {place : Place} {size : UInt64} {d : Disk} (h : Fits place size d) :
    Ready place size (d.makeDirectories place.dir).2 := by
  have hpath : place.path = place.dir.join (name place.revision place.seed) := by
    rw [Place.path, h.join_eq, path]
  have hname := isName_name place.revision place.seed
  have hsize := h.path_le
  have hsame := Disk.sameFiles_makeDirectories d place.dir
  obtain ⟨hthere, hdir⟩ := Disk.isDirectory_makeDirectories h.made
  constructor
  · exact Disk.makeDirectories_of_isDirectory hthere hdir
  · rw [hpath]
    exact Path.endsWithSlash_join _ hname
  · rw [hpath] at hsize ⊢
    exact Disk.resolve_join hname hthere hdir hsize
  · exact h.entry_ne
  · intro id hid
    rw [congrArg Array.size hsame.contents]
    exact h.inRange id ((hsame.file_iff _ id).mp hid)
  · intro id hid
    rw [hsame.file_eq]
    exact h.size_lt id ((hsame.file_iff _ id).mp hid)
  · rw [Disk.maxFileSize_makeDirectories]
    exact h.room

/-- A file that is used as it is: it has the right size and starts with the magic number. -/
def Usable (size : UInt64) (c : Contents) : Prop := c.size = size.toNat + 8 ∧ Marked c

theorem judged_bytes (size : UInt64) (file : Handle) (c : Contents) :
    Usable size c ∧ judged size file c.bytes = .found file ∨
      ¬Usable size c ∧ ∃ reason, judged size file c.bytes = .stale reason := by
  unfold judged
  split
  · rename_i hsize
    rw [Contents.size_bytes] at hsize
    exact .inr ⟨fun husable => hsize husable.1, _, rfl⟩
  rename_i hsize
  have hsize : c.size = size.toNat + 8 := c.size_bytes.symm.trans (Decidable.not_not.mp hsize)
  have hmagic := startNumber_eq_magic_iff (c := c) (by omega)
  split
  · rename_i hne
    exact .inr ⟨fun husable => hne (hmagic.mpr husable.2.2), _, rfl⟩
  · rename_i heq
    exact .inl ⟨⟨hsize, by omega, hmagic.mp (Decidable.not_not.mp heq)⟩, rfl⟩

end DagFile

/-! ### Opening a file -/

open DagFile

namespace Works

/-- A new file is open. -/
def Makes {σ τ : Type} (disk : σ → Disk) (told : σ → τ) (place : Location) (d : Disk) (t : τ)
    (file : Handle) (s : σ) : Prop :=
  ∃ id d', file = ⟨.file id, true, true⟩ ∧ Sees disk told d' t s ∧ Opened place id d d'

variable {σ τ : Type} {disk : σ → Disk} {told : σ → τ}
  {serve : (r : Files.Request) → StateM σ (Files.Answer r)} (hworks : Works disk told serve)
  {E : Error → σ → Prop} {d d₁ : Disk} {t : τ} {s : σ} {place : Place} {size : UInt64}

include hworks

/-- Of a file that is there, the size and the first bytes decide. -/
theorem probe {id : Nat} (h : Sees disk told d t s) (hlt : (d.file id).size < 2 ^ 64)
    (path : Path) :
    Yields (.of (.of serve) E)
      (fun memo s' => Sees disk told d t s' ∧
        memo = judged size ⟨.file id, true, true⟩ (d.file id).bytes)
      (DagFile.probe ⟨.file id, true, true⟩ path size) s := by
  have hbytes : (d.file id).bytes.size = (d.file id).size := Contents.size_bytes _
  refine Yields.probe
    (fun found s => Sees disk told d t s ∧ found.toNat = (d.file id).size)
    (fun bytes s => Sees disk told d t s ∧ (d.file id).size = size.toNat + 8 ∧
      (magicOf bytes).toNat = startNumber (d.file id).bytes) ?_ ?_ ?_ ?_ ?_
  · refine hworks.asks trivial h rfl fun s h => ⟨h, ?_⟩
    rw [Disk.size_eq rfl, Nat.toUInt64_eq, UInt64.toNat_ofNat', Nat.mod_eq_of_lt hlt]
  · rintro found s ⟨h, hfound⟩ hstored
    have hsize : (d.file id).bytes.size ≠ size.toNat + 8 := by
      intro hsize
      exact hstored (storedSize_of_toNat_eq (by omega))
    refine ⟨h, ?_⟩
    rw [storedSize_getD, hfound, judged, if_pos hsize, hbytes]
  · rintro found s ⟨h, hfound⟩ hstored
    have hsize : (d.file id).size = size.toNat + 8 := hfound.symm.trans (storedSize_eq hstored)
    have hread := d.readStart_of_le id (n := 8) (by omega) true
    refine hworks.asks (r := .readMagic _) trivial h (congrArg (·, d) hread) fun s h => ?_
    exact ⟨h, hsize, toNat_magicOf_read (by omega)⟩
  · rintro bytes s ⟨h, hsize, hstart⟩ hne
    refine ⟨h, ?_⟩
    rw [ne_eq, ← UInt64.toNat_inj, hstart] at hne
    rw [judged, if_neg (by omega), if_pos hne, ← hstart, Nat.toUInt64_eq, UInt64.ofNat_toNat]
  · rintro bytes s ⟨h, hsize, hstart⟩ heq
    refine ⟨h, ?_⟩
    rw [← UInt64.toNat_inj, hstart] at heq
    rw [judged, if_neg (by omega), if_neg (Decidable.not_not.mpr heq)]

theorem createSized (h : Sees disk told d t s) (hready : Ready place size d)
    (hlimit : size.toNat + 8 < 2 ^ 63) :
    Yields (.of (.of serve) E)
      (fun memo s' => ∃ id d', memo = .created ⟨.file id, true, true⟩ ∧
        Sees disk told d' t s' ∧ Opened place.path.location id d d')
      (DagFile.createSized place.path size) s := by
  have hroom := hready.room
  have hlast : (size + Params.magicBytes.toUInt64 - 1).toNat = size.toNat + 7 := by
    have hsum := toNat_add_magicBytes (show size.toNat + 8 < 2 ^ 64 by omega)
    have hone : (1 : UInt64).toNat = 1 := rfl
    rw [UInt64.toNat_sub_of_le _ _ (UInt64.le_iff_toNat_le.mpr (by omega)), hsum]
    rfl
  refine Yields.createSized (Makes disk told place.path.location d t)
    (Makes disk told place.path.location d t) (Makes disk told place.path.location d t) ?_ ?_ ?_ ?_
  · obtain ⟨id, d', hcreate, hcreated, hmax⟩ := Disk.create_of_resolve hready.slash hready.resolve
      hready.entry_ne hready.inRange true true
    exact hworks.asks (r := .create _) trivial h hcreate fun s h =>
      ⟨id, d', rfl, h, opened_of_created hcreated hmax⟩
  · rintro _ s ⟨id, d', rfl, h, hopened⟩
    have hmax := hopened.max_eq
    have hseek : d'.seek ⟨.file id, true, true⟩ (size + Params.magicBytes.toUInt64 - 1) = .ok () :=
      d'.seek_of_le id (by omega) (by omega) true true
    exact hworks.asks (r := .seek _ _) trivial h (congrArg (·, d') hseek) fun s h =>
      ⟨id, d', rfl, h, hopened⟩
  · rintro _ s ⟨id, d', rfl, h, hopened⟩
    have hend : (size + Params.magicBytes.toUInt64 - 1).toNat + (ByteArray.mk #[0x0a]).size ≤
        d'.maxFileSize := by
      rw [hopened.max_eq]
      show _ + 1 ≤ _
      omega
    exact hworks.asks (r := .write _ _ _) trivial h (d'.write_of_le id hend true) fun s h =>
      ⟨id, _, rfl, h, hopened.modify _⟩
  · rintro _ s ⟨id, d', rfl, h, hopened⟩
    exact hworks.asks (r := .flush _) trivial h rfl fun s h => ⟨id, d', rfl, h, hopened⟩

/-- A file that is opened is not changed. -/
theorem prepare_opened {id : Nat} (h : Sees disk told d t s)
    (hmade : d.makeDirectories place.dir = (.ok (), d₁))
    (hopen : d₁.openExisting place.path true true = .ok ⟨.file id, true, true⟩)
    (hlt : (d₁.file id).size < 2 ^ 64) :
    Yields (.of (.of serve) E)
      (fun memo s' => Sees disk told d₁ t s' ∧
        memo = judged size ⟨.file id, true, true⟩ (d₁.file id).bytes)
      (DagFile.prepare place size false) s := by
  refine Yields.prepare (Sees disk told d₁ t) ?_ (fun _ _ => nofun) fun s h _ => ?_
  · exact hworks.asks (r := .makeDirectory _) trivial h hmade fun s h => hworks.notes _ h
  · exact hworks.asks (r := .openExisting _) trivial h (congrArg (·, d₁) hopen) fun s h =>
      hworks.probe h hlt _

section

variable (h : Sees disk told d t s) (hmade : d.makeDirectories place.dir = (.ok (), d₁))
  (hready : Ready place size d₁) (hlimit : size.toNat + 8 < 2 ^ 63)

include h hmade hready hlimit

theorem prepare_forced :
    Yields (.of (.of serve) E)
      (fun memo s' => ∃ id d', memo = .created ⟨.file id, true, true⟩ ∧
        Sees disk told d' t s' ∧ Opened place.path.location id d₁ d')
      (DagFile.prepare place size true) s := by
  refine Yields.prepare (Sees disk told d₁ t) ?_ (fun s h _ => ?_) fun _ _ => nofun
  · exact hworks.asks (r := .makeDirectory _) trivial h hmade fun s h => hworks.notes _ h
  · exact hworks.createSized h hready hlimit

/-- A file that is there is probed, and is made where there is none. -/
theorem prepare :
    Yields (.of (.of serve) E)
      (fun memo s' =>
        (∃ id, d₁.lookup place.path.location = some (.file id) ∧ Sees disk told d₁ t s' ∧
          (Usable size (d₁.file id) ∧ memo = .found ⟨.file id, true, true⟩ ∨
            ¬Usable size (d₁.file id) ∧ ∃ reason, memo = .stale reason)) ∨
        d₁.lookup place.path.location = none ∧ ∃ id d', memo = .created ⟨.file id, true, true⟩ ∧
          Sees disk told d' t s' ∧ Opened place.path.location id d₁ d')
      (DagFile.prepare place size false) s := by
  cases hentry : d₁.lookup place.path.location with
  | none =>
    have hopen := Disk.openExisting_of_free hready.resolve hentry true true
    refine Yields.prepare (Sees disk told d₁ t) ?_ (fun _ _ => nofun) fun s h _ => ?_
    · exact hworks.asks (r := .makeDirectory _) trivial h hmade fun s h => hworks.notes _ h
    refine hworks.asks (r := .openExisting _) trivial h (congrArg (·, d₁) hopen) fun s h => ?_
    exact (hworks.notes _ h).mono fun _ s h =>
      (hworks.createSized h hready hlimit).mono fun _ _ hmade => .inr ⟨rfl, hmade⟩
  | some entry =>
    cases entry with
    | directory => exact absurd hentry hready.entry_ne
    | file id =>
      have hopen := Disk.openExisting_of_file hready.resolve hentry true true
      refine (hworks.prepare_opened h hmade hopen (hready.size_lt id hentry)).mono ?_
      rintro memo s' ⟨h', rfl⟩
      exact .inl ⟨id, rfl, h', judged_bytes size _ _⟩

end

end Works

end ProofOfWork
