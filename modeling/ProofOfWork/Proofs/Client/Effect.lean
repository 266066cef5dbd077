import ProofOfWork.Proofs.Client.Mapped
import ProofOfWork.Proofs.Client.Survival
import ProofOfWork.Proofs.DagFile.Working

/-! What a call for a client with a dataset in a file does to a file system that works: it uses the file
that is there, or makes the whole file, and touches no other. -/

namespace ProofOfWork

open Program Files DagFile

namespace DagFile

/-- The file at the place is used as it is. -/
def Reused (place : Place) (size : UInt64) (force : Bool) (d : Disk) : Prop :=
  force = false ∧ ∃ id, d.lookup place.path.location = some (.file id) ∧ Usable size (d.file id)

/-- The file at the place is the magic number and then the bytes `b`. -/
def Holds (place : Place) (d : Disk) (b : ByteArray) : Prop :=
  d.bytesAt place.path.location = some (magicBytes.bytes ++ b)

section

variable {place : Place} {size : UInt64} {force : Bool} {d : Disk} {c : Contents} {b : ByteArray}

theorem size_of_bytes_eq (h : c.bytes = magicBytes.bytes ++ b) : c.size = b.size + 8 := by
  rw [← c.size_bytes, h, ByteArray.size_append, magicBytes.size_bytes, Nat.add_comm]

theorem read_of_bytes_eq (h : c.bytes = magicBytes.bytes ++ b) : c.read 8 b.size = b := by
  have hsize := size_of_bytes_eq h
  have hread : c.bytes.extract 8 (8 + b.size) = c.read 8 (8 + b.size - 8) :=
    c.extract_bytes (by omega)
  rw [Nat.add_sub_cancel_left] at hread
  rw [← hread, h]
  apply ByteArray.extract_append_eq_right
  · exact magicBytes.size_bytes.symm
  · rw [magicBytes.size_bytes]

theorem usable_iff :
    Usable size c ↔ ∃ b, b.size = size.toNat ∧ c.bytes = magicBytes.bytes ++ b := by
  constructor
  · rintro ⟨hsize, -, hmagic⟩
    refine ⟨c.read 8 size.toNat, c.size_read .., ?_⟩
    rw [c.bytes_eq_append (hsize.trans (Nat.add_comm ..)), hmagic]
  · rintro ⟨b, hb, hbytes⟩
    have hsize := size_of_bytes_eq hbytes
    refine ⟨by omega, by omega, ?_⟩
    have hread : c.bytes.extract 0 8 = c.read 0 8 := c.extract_bytes (by omega)
    rw [← hread, hbytes]
    exact ByteArray.extract_append_eq_left magicBytes.size_bytes.symm

theorem reused_iff :
    Reused place size force d ↔ force = false ∧ ∃ b, b.size = size.toNat ∧ Holds place d b := by
  constructor
  · rintro ⟨hforce, id, hlookup, husable⟩
    obtain ⟨b, hb, hbytes⟩ := usable_iff.mp husable
    refine ⟨hforce, b, hb, ?_⟩
    rw [Holds, Disk.bytesAt_of_file hlookup, hbytes]
  · rintro ⟨hforce, b, hb, hholds⟩
    obtain ⟨id, hlookup, hbytes⟩ := Disk.bytesAt_eq_some hholds
    exact ⟨hforce, id, hlookup, usable_iff.mpr ⟨b, hb, hbytes⟩⟩

end

/-- A file of use is as it was after a call, and nothing was told to the caller. Otherwise the file is
the magic number and the dataset. -/
def Effect {τ : Type} (place : Place) (size : UInt64) (force : Bool) (dataset : ByteArray) (d : Disk)
    (t : τ) (d' : Disk) (t' : τ) : Prop :=
  Reused place size force d ∧ t' = t ∧
      d'.bytesAt place.path.location = d.bytesAt place.path.location ∨
    ¬Reused place size force d ∧ Holds place d' dataset

/-- The file is open at its full length, and is as it was if it is of use. -/
def Lengthened {τ : Type} (place : Place) (size : UInt64) (force : Bool) (d : Disk) (t : τ)
    (opened : Handle × Bool) (d' : Disk) (t' : τ) : Prop :=
  ∃ id, opened.1 = ⟨.file id, true, true⟩ ∧ Opened place.path.location id d d' ∧
    (d'.file id).size = size.toNat + 8 ∧
    (Reused place size force d ∧ opened.2 = true ∧ t' = t ∧
        d'.bytesAt place.path.location = d.bytesAt place.path.location ∨
      ¬Reused place size force d ∧ opened.2 = false)

/-- File `id` at `place` holds a dataset, and is to be marked. -/
structure Generated (place : Location) (id : Nat) (count : UInt32) (dataset : ByteArray)
    (d₁ d : Disk) : Prop where
  opened : Opened place id d₁ d
  size_eq : (d.file id).size = 8 + 64 * count.toNat
  read_eq : (d.file id).read 8 (64 * count.toNat) = dataset

/-- The nodes in a record are in file `id` at `place`, and no report was answered with a stop. -/
structure Filled (place : Location) (id : Nat) (count : UInt32) (d₁ d : Disk)
    (m : Generation.Record ByteArray) : Prop where
  opened : Opened place id d₁ d
  size_eq : (d.file id).size = 8 + 64 * count.toNat
  memory_eq : m.memory = (d.file id).read 8 (64 * count.toNat)
  calls : ∀ call ∈ m.calls, call.2 = .goOn

end DagFile

namespace Works

/-- The file that is open: the one that was there, if it is of use, or else a new one. -/
def Chosen {σ τ : Type} (disk : σ → Disk) (told : σ → τ) (place : Place) (size : UInt64) (force : Bool)
    (d : Disk) (t : τ) (opened : Handle × Bool) (s : σ) : Prop :=
  ∃ id d', opened.1 = ⟨.file id, true, true⟩ ∧ Sees disk told d' t s ∧
    Opened place.path.location id d d' ∧
    (Reused place size force d ∧ opened.2 = true ∧ d' = d ∨
      ¬Reused place size force d ∧ opened.2 = false)

variable {σ τ : Type} {disk : σ → Disk} {told : σ → τ}
  {serve : (r : Files.Request) → StateM σ (Files.Answer r)} (hworks : Works disk told serve)
  {E : Error → σ → Prop} {d d₁ : Disk} {t : τ} {s : σ} {place : Place} {size : UInt64}

include hworks

theorem openFile (h : Sees disk told d t s) (hmade : d.makeDirectories place.dir = (.ok (), d₁))
    (hready : Ready place size d₁) (hlimit : size.toNat + 8 < 2 ^ 63) (force : Bool) :
    Yields (.of (.of serve) E) (Chosen disk told place size force d₁ t)
      (FullClient.openFile place size force) s := by
  cases force with
  | true =>
    have hnot : ¬Reused place size true d₁ := fun hreused => by cases hreused.1
    refine Yields.openFile _ (fun _ _ => False) (hworks.prepare_forced h hmade hready hlimit) ?_ ?_ ?_
      fun _ _ => False.elim
    · rintro reason s ⟨_, _, ⟨⟩, -⟩
    · rintro file s ⟨_, _, ⟨⟩, -⟩
    · rintro _ s ⟨id, d', ⟨⟩, h, hopened⟩
      exact ⟨id, d', rfl, h, hopened, .inr ⟨hnot, rfl⟩⟩
  | false =>
    refine Yields.openFile _ (fun memo s => ¬Reused place size false d₁ ∧
      ∃ id d', memo = .created ⟨.file id, true, true⟩ ∧ Sees disk told d' t s ∧
        Opened place.path.location id d₁ d') (hworks.prepare h hmade hready hlimit) ?_ ?_ ?_ ?_
    · rintro reason s (⟨id, hlookup, h, ⟨-, ⟨⟩⟩ | ⟨hnot, -⟩⟩ | ⟨-, _, _, ⟨⟩, -⟩)
      have hnot : ¬Reused place size false d₁ := by
        rintro ⟨-, id', hlookup', husable⟩
        rw [hlookup] at hlookup'
        cases hlookup'
        exact hnot husable
      -- the directory that the first attempt made is there for the second
      exact (hworks.notes _ h).mono fun _ s h =>
        (hworks.prepare_forced h hready.made hready hlimit).mono fun _ _ h => ⟨hnot, h⟩
    · rintro _ s (⟨id, hlookup, h, ⟨husable, ⟨⟩⟩ | ⟨-, _, ⟨⟩⟩⟩ | ⟨-, _, _, ⟨⟩, -⟩)
      have hopened := opened_refl hlookup (hready.inRange id hlookup)
      exact ⟨id, d₁, rfl, h, hopened, .inl ⟨⟨rfl, id, hlookup, husable⟩, rfl, rfl⟩⟩
    · rintro _ s (⟨_, -, -, ⟨-, ⟨⟩⟩ | ⟨-, _, ⟨⟩⟩⟩ | ⟨hfree, id, d', ⟨⟩, h, hopened⟩)
      have hnot : ¬Reused place size false d₁ := by
        rintro ⟨-, id', hlookup', -⟩
        rw [hfree] at hlookup'
        cases hlookup'
      exact ⟨id, d', rfl, h, hopened, .inr ⟨hnot, rfl⟩⟩
    · rintro _ s ⟨hnot, id, d', ⟨⟩, h, hopened⟩
      exact ⟨id, d', rfl, h, hopened, .inr ⟨hnot, rfl⟩⟩

/-- A file that is of use already has the length that it is set to. -/
theorem lengthens {opened : Handle × Bool} {force : Bool} {path : Path}
    (h : Chosen disk told place size force d₁ t opened s) (hready : Ready place size d₁)
    (hlimit : size.toNat + 8 < 2 ^ 63) :
    Asks (.of (.of serve) E) (.setLength opened.1 (size + Params.magicBytes.toUInt64))
      (Comes (.of (.of serve) E) .resizing path fun _ s =>
        Lengthened place size force d₁ t opened (disk s) (told s)) s := by
  obtain ⟨id, d', hfile, h, hopened, hreuse⟩ := h
  have hlength := toNat_add_magicBytes (show size.toNat + 8 < 2 ^ 64 by omega)
  have hset : d'.setLength ⟨.file id, true, true⟩ (size + Params.magicBytes.toUInt64) =
      (.ok (), d'.modify id (·.resize (size.toNat + 8))) := by
    rw [← hlength]
    apply d'.setLength_of_le id
    · omega
    · rw [hlength, hopened.max_eq]
      exact hready.room
  rw [hfile]
  refine hworks.asks (r := .setLength _ _) trivial h hset fun s h => ⟨id, hfile, ?_, ?_, ?_⟩
  · rw [h.1]
    exact hopened.modify _
  · rw [h.1, hopened.file_modify, Contents.size_resize]
  · refine hreuse.imp_left ?_
    rintro ⟨hreused, htrue, rfl⟩
    have ⟨_, id', hlookup, husable⟩ := hreused
    rw [hopened.lookup_eq] at hlookup
    cases hlookup
    refine ⟨hreused, htrue, h.2, ?_⟩
    rw [h.1, Disk.bytesAt_of_file (hopened.modify _).lookup_eq, hopened.file_modify, ← husable.1,
      Contents.bytes_resize_self, Disk.bytesAt_of_file hopened.lookup_eq]

/-! ### Filling a file -/

variable {H : Hasher} {c : Cache} {count : UInt32} {id : Nat}

theorem disk_of_caller {r : Caller.Request} {a : Caller.Answer r} {s' : σ}
    (hs : serve (.caller r) s = (a, s')) : disk s' = disk s := by
  rw [← hworks.disk_caller r s, hs]

theorem disk_of_store {offset : Nat} {data : ByteArray} {a : Unit} {s' : σ}
    (hs : serve (.store ⟨.file id, true, true⟩ offset data) s = (a, s')) :
    disk s' = (disk s).modify id (·.overwrite offset data) := by
  have hfiles := hworks.disk_files (.store ⟨.file id, true, true⟩ offset data) s trivial
  rw [hs] at hfiles
  exact congrArg Prod.snd hfiles

variable (hgoOn : ∀ percent s, (serve (.caller (.report percent)) s).1 = .goOn)

include hgoOn

/-- The dataset in a file is followed by the record of its bytes. -/
theorem follows_filled (place : Location) (id : Nat) (count : UInt32) (d₁ : Disk) :
    Generation.Follows H c count Dataset.setNode
      (fun r s a s' => Ends (.of serve) (FullClient.intoFile ⟨.file id, true, true⟩ r) s a s')
      (fun _ _ => True) fun m s => Filled place id count d₁ (disk s) m := by
  rintro node r m s hlegal h
  refine ⟨trivial, fun a s' he => ?_⟩
  rcases r with (percent | event | others) | ⟨index, n⟩
  · have hs := ends_perform.mp he
    have hverdict : a = .goOn := (congrArg Prod.fst hs).symm.trans (hgoOn percent s)
    rw [hworks.disk_of_caller hs]
    exact ⟨h.opened, h.size_eq, h.memory_eq, List.forall_mem_cons.mpr ⟨hverdict, h.calls⟩⟩
  · rw [hworks.disk_of_caller (ends_perform.mp he)]
    exact h
  · rw [hworks.disk_of_caller (ends_perform.mp he)]
    exact h
  · obtain ⟨hindex, -⟩ := hlegal
    rw [UInt32.lt_iff_toNat_lt] at hindex
    rw [hworks.disk_of_store (ends_perform.mp he)]
    refine ⟨h.opened.modify _, ?_, ?_, h.calls⟩
    · rw [h.opened.file_modify, Contents.size_overwrite, h.size_eq]
    · rw [h.opened.file_modify, read_overwrite_node h.size_eq hindex, ← h.memory_eq]
      rfl

theorem nodes_intoFile {place : Location} (h : Opened place id d₁ (disk s))
    (hsize : ((disk s).file id).size = 8 + 64 * count.toNat) (inParallel : Bool) :
    Keeps (.of serve) (fun _ _ => True)
      (fun outcome s' => outcome = .finished ∧
        Generated place id count (Dataset.bytes H c count.toNat) d₁ (disk s'))
      ((Generation.nodes H c inParallel count).run (FullClient.intoFile ⟨.file id, true, true⟩)) s := by
  have hstart : Filled place id count d₁ (disk s)
      (.start (((disk s).file id).read 8 (64 * count.toNat))) :=
    ⟨h, hsize, rfl, List.forall_mem_nil _⟩
  have F := (hworks.follows_filled (H := H) (c := c) hgoOn place id count d₁).made
    (((disk s).file id).read 8 (64 * count.toNat))
  refine Keeps.through (P := fun _ _ => True) (fun _ _ _ => keeps_trivial _ _) ?_
  refine (Generation.keeps_nodes _ F inParallel ⟨hstart, .start _⟩).mono (fun _ _ _ => trivial) ?_
  rintro outcome s' ⟨m, ⟨hfilled, hmade⟩, htells⟩
  have hfinished := htells.eq_finished hfilled.calls
  refine ⟨hfinished, hfilled.opened, hfilled.size_eq, ?_⟩
  rw [← hfilled.memory_eq]
  exact hmade.eq_bytes (Contents.size_read ..) (htells.finished hfinished)

theorem fillFile {place : Location} (h : Opened place id d₁ (disk s))
    (hsize : ((disk s).file id).size = 8 + 64 * count.toNat) (inParallel : Bool) (path : Path) :
    Yields (.of (.of serve) E)
      (fun _ s' => Opened place id d₁ (disk s') ∧
        ((disk s').file id).bytes = magicBytes.bytes ++ Dataset.bytes H c count.toNat)
      (FullClient.fillFile H c inParallel count ⟨.file id, true, true⟩ path) s := by
  refine Yields.fillFile
    (fun s => Generated place id count (Dataset.bytes H c count.toNat) d₁ (disk s))
    (fun s => Generated place id count (Dataset.bytes H c count.toNat) d₁ (disk s))
    (fun s => Opened place id d₁ (disk s) ∧
      ((disk s).file id).bytes = magicBytes.bytes ++ Dataset.bytes H c count.toNat) ?_ ?_ ?_ ?_
  · refine Yields.noted
      (fun s => Opened place id d₁ (disk s) ∧ ((disk s).file id).size = 8 + 64 * count.toNat)
      (fun outcome s => outcome = .finished ∧
        Generated place id count (Dataset.bytes H c count.toNat) d₁ (disk s)) ?_ ?_ nofun ?_
    · refine (hworks.notes _ ⟨rfl, rfl⟩).mono fun _ s' h' => ?_
      rw [h'.1]
      exact ⟨h, hsize⟩
    · exact fun s ⟨h, hsize⟩ => hworks.nodes_intoFile hgoOn h hsize inParallel
    · rintro s ⟨-, h⟩
      refine (hworks.notes _ ⟨rfl, rfl⟩).mono fun _ s' h' => ?_
      rwa [h'.1]
  · refine fun s h => hworks.asks (r := .sync _) trivial ⟨rfl, rfl⟩ rfl fun s' h' => ?_
    have hdisk : disk s' = disk s := h'.1
    show Generated place id count _ d₁ (disk s')
    rwa [hdisk]
  · intro s h
    refine hworks.asks (r := .store _ _ _) trivial ⟨rfl, rfl⟩ rfl fun s' h' => ?_
    have hdisk : disk s' = (disk s).modify id (·.overwrite 0 magicBytes.bytes) := h'.1
    rw [hdisk]
    refine ⟨h.opened.modify _, ?_⟩
    rw [h.opened.file_modify, bytes_overwrite_magicBytes h.size_eq, h.read_eq]
  · refine fun s h => hworks.asks (r := .sync _) trivial ⟨rfl, rfl⟩ rfl fun s' h' => ?_
    have hdisk : disk s' = disk s := h'.1
    show Opened place id d₁ (disk s') ∧ _
    rwa [hdisk]

theorem mapFile (h : Sees disk told d t s) (hmade : d.makeDirectories place.dir = (.ok (), d₁))
    (hready : Ready place size d₁) (hcount : Dataset.nodeCount size.toNat = .ok count)
    (options : FullOptions) :
    Yields (.of (.of serve) E)
      (fun storage s' => ∃ id,
        storage = .mapped ⟨.file id, true, true⟩ place.path (size.toNat + 8) ∧
        Opened place.path.location id d₁ (disk s') ∧
        Effect place size options.force (Dataset.bytes H c count.toNat) d₁ t (disk s') (told s'))
      (FullClient.mapFile H place size c options) s := by
  have hsize := (Dataset.nodeCount_eq_ok hcount).1
  have hlt := count.toNat_lt
  refine Yields.mapFile hcount (Chosen disk told place size options.force d₁ t)
    (fun opened s => Lengthened place size options.force d₁ t opened (disk s) (told s))
    (fun opened length s => length = size.toNat + 8 ∧
      Lengthened place size options.force d₁ t opened (disk s) (told s)) ?_ ?_ ?_ ?_ ?_
  · exact hworks.openFile h hmade hready (by omega) options.force
  · exact fun opened s h => hworks.lengthens h hready (by omega)
  · rintro ⟨_, reuse⟩ s ⟨id, rfl, hopened, hfsize, hreuse⟩
    have hmap : (disk s).map ⟨.file id, true, true⟩ = .ok (size.toNat + 8) := by
      simp [Disk.map, hfsize]
    refine hworks.asks (r := .map _) trivial ⟨rfl, rfl⟩ (congrArg (·, disk s) hmap) fun s' h' => ?_
    show _ ∧ Lengthened place size options.force d₁ t _ (disk s') (told s')
    rw [h'.1, h'.2]
    exact ⟨rfl, id, rfl, hopened, hfsize, hreuse⟩
  · rintro _ length s ⟨rfl, id, ⟨⟩, hopened, -, ⟨hreused, -, htold, hbytes⟩ | ⟨-, ⟨⟩⟩⟩
    refine (hworks.notes _ ⟨rfl, rfl⟩).mono fun _ s' h' => ⟨id, rfl, ?_⟩
    rw [h'.1, h'.2]
    exact ⟨hopened, .inl ⟨hreused, htold, hbytes⟩⟩
  · rintro _ length s ⟨rfl, id, ⟨⟩, hopened, hfsize, ⟨-, ⟨⟩, -⟩ | ⟨hnot, -⟩⟩
    refine (hworks.fillFile hgoOn hopened (by omega) options.parallel place.path).mono ?_
    rintro _ s' ⟨hopened, hbytes⟩
    refine ⟨id, rfl, hopened, .inr ⟨hnot, ?_⟩⟩
    rw [Holds, Disk.bytesAt_of_file hopened.lookup_eq, hbytes]

theorem keeps_inFile (h : Sees disk told d t s)
    (hmade : d.makeDirectories place.dir = (.ok (), d₁))
    (hready : Ready place size d₁) (hcount : Dataset.nodeCount size.toNat = .ok count)
    (light : LightClient) (options : FullOptions) :
    Keeps (.of serve) (fun _ _ => True)
      (fun answer s' => ∃ id,
        answer = .ok ⟨.mapped ⟨.file id, true, true⟩ place.path (size.toNat + 8), size, light⟩ ∧
        Opened place.path.location id d₁ (disk s') ∧
        Effect place size options.force (Dataset.bytes H light.cache count.toNat) d₁ t (disk s')
          (told s'))
      (FullClient.inFile H place size light options) s := by
  refine Yields.inFile (hworks.mapFile (E := fun _ _ => False) hgoOn h hmade hready hcount options) ?_
    fun _ _ => False.elim
  rintro _ s' ⟨id, rfl, hrest⟩
  exact ⟨id, rfl, hrest⟩

end Works

namespace FullClient

variable {σ τ : Type} {disk : σ → Disk} {told : σ → τ}
  {serve : (r : Files.Request) → StateM σ (Files.Answer r)} {s : σ} {place : Place} {size : UInt64}
  {count : UInt32}

theorem dag_of_holds {f : FullClient} {d : Disk} {file : Handle} {path : Path} {id : Nat}
    {b : ByteArray} (hstorage : f.storage = .mapped file path (size.toNat + 8))
    (hfile : file.referent = .file id) (hlookup : d.lookup place.path.location = some (.file id))
    (hb : b.size = size.toNat) (h : Holds place d b) : f.dag d = b := by
  rw [Holds, Disk.bytesAt_of_file hlookup] at h
  rw [dag_mapped hstorage hfile, ← hb]
  exact read_of_bytes_eq (Option.some.inj h)

/-- Where all calls are carried out and no report is answered with a stop, a call for a client with a
dataset in a file returns the client. A file with the right size and the magic number is used as it is,
and nothing is reported; in all other cases the whole file is made. No other file is touched. -/
theorem inFile_effect (H : Hasher) (hworks : Works disk told serve)
    (hgoOn : ∀ percent s, (serve (.caller (.report percent)) s).1 = .goOn)
    (hfits : Fits place size (disk s)) (hcount : Dataset.nodeCount size.toNat = .ok count)
    (light : LightClient) (options : FullOptions) :
    ∃ f s', (inFile H place size light options).run serve s = (.ok f, s') ∧
      f.light = light ∧ f.size = size ∧ f.dagSize = size.toNat ∧ f.path? = some place.path ∧
      Elsewhere place.path.location (disk s) (disk s') ∧
      (∀ b, options.force = false → b.size = size.toNat → Holds place (disk s) b →
        Holds place (disk s') b ∧ told s' = told s ∧ f.dag (disk s') = b) ∧
      ((options.force = true ∨ ∀ b, b.size = size.toNat → ¬Holds place (disk s) b) →
        Holds place (disk s') (Dataset.bytes H light.cache count.toNat) ∧
          f.dag (disk s') = Dataset.bytes H light.cache count.toNat) := by
  have hsame := Disk.sameFiles_makeDirectories (disk s) place.dir
  have hmade : (disk s).makeDirectories place.dir =
      (.ok (), ((disk s).makeDirectories place.dir).2) := Prod.ext hfits.made rfl
  have hholds (b : ByteArray) : Holds place ((disk s).makeDirectories place.dir).2 b ↔
      Holds place (disk s) b := by
    rw [Holds, Holds, hsame.bytesAt_eq]
  obtain ⟨id, hanswer, hopened, heffect⟩ := (hworks.keeps_inFile (H := H) hgoOn ⟨rfl, rfl⟩ hmade
    hfits.ready hcount light options).run
  have hlookup := hopened.lookup_eq
  refine ⟨_, _, Prod.ext hanswer rfl, rfl, rfl, Nat.add_sub_cancel .., rfl, ?_, ?_, ?_⟩
  · exact (elsewhere_of_sameFiles hsame).trans hopened.elsewhere
  · intro b hforce hb hb'
    rw [← hholds] at hb'
    rcases heffect with ⟨-, htold, hkept⟩ | ⟨hnot, -⟩
    · have hafter := hkept.trans hb'
      exact ⟨hafter, htold, dag_of_holds rfl rfl hlookup hb hafter⟩
    · exact absurd (reused_iff.mpr ⟨hforce, b, hb, hb'⟩) hnot
  · intro hother
    rcases heffect with ⟨hreused, -⟩ | ⟨-, hfilled⟩
    · obtain ⟨hforce, b, hb, hb'⟩ := reused_iff.mp hreused
      rcases hother with hforced | hnone
      · rw [hforced] at hforce
        contradiction
      · exact absurd ((hholds b).mp hb') (hnone b hb)
    · have hsize : (Dataset.bytes H light.cache count.toNat).size = size.toNat := by
        rw [Dataset.size_bytes, (Dataset.nodeCount_eq_ok hcount).1]
      exact ⟨hfilled, dag_of_holds rfl rfl hlookup hsize hfilled⟩

theorem utf8ByteSize_pagePlace : pagePlace.path.text.utf8ByteSize ≤ Disk.maxPathSize := by
  decide +kernel

theorem fits_pageDisk : Fits pagePlace 128 pageDisk := by
  have hsame := Disk.sameFiles_makeDirectories pageDisk pagePlace.dir
  have hfile : pageDisk.file 0 = .ofBytes pageFile := rfl
  constructor
  · rfl
  · rfl
  · intro hdirectory
    rw [(hsame.file_iff _ 0).mpr lookup_pageDisk] at hdirectory
    cases hdirectory
  · exact utf8ByteSize_pagePlace
  · intro id hid
    rw [lookup_pageDisk] at hid
    cases hid
    decide
  · intro id hid
    rw [lookup_pageDisk] at hid
    cases hid
    rw [hfile, ← Contents.size_bytes, Contents.bytes_ofBytes, size_pageFile]
    decide
  · decide

theorem fits_scratch : Fits pagePlace 128 (Disk.scratch "dags") := by
  constructor
  · rfl
  · rfl
  · decide +kernel
  · exact utf8ByteSize_pagePlace
  · intro id hid
    exact absurd hid (Disk.lookup_scratch _ _ id)
  · intro id hid
    exact absurd hid (Disk.lookup_scratch _ _ id)
  · decide

/-- A file of use is used as it is, and one is made where there is none. -/
theorem inFile_effect_page :
    Works Surroundings.disk Surroundings.reports (Surroundings.serveFiles fun _ => .goOn) ∧
    (∃ f s', (inFile .keccak pagePlace 128 pageLight ⟨none, false, true⟩).run
        (Surroundings.serveFiles fun _ => .goOn) ⟨pageDisk, #[], #[]⟩ = (.ok f, s') ∧
      Holds pagePlace s'.disk (zeroBytes 128) ∧ s'.reports = #[] ∧ f.dag s'.disk = zeroBytes 128) ∧
    ∃ f s', (inFile .keccak pagePlace 128 pageLight ⟨none, false, false⟩).run
        (Surroundings.serveFiles fun _ => .goOn) ⟨Disk.scratch "dags", #[], #[]⟩ = (.ok f, s') ∧
      f.dag s'.disk = Dataset.bytes .keccak pageLight.cache 2 := by
  have hworks := works_serveFiles fun _ => .goOn
  have hcount : Dataset.nodeCount (128 : UInt64).toNat = .ok 2 := by decide
  refine ⟨hworks, ?_, ?_⟩
  · obtain ⟨f, s', hrun, -, -, -, -, -, hkept, -⟩ := inFile_effect .keccak hworks (fun _ _ => rfl)
      (s := ⟨pageDisk, #[], #[]⟩) fits_pageDisk hcount pageLight ⟨none, false, true⟩
    exact ⟨f, s', hrun, hkept _ rfl (size_zeroBytes 128) bytesAt_pageDisk⟩
  · obtain ⟨f, s', hrun, -, -, -, -, -, -, hmade⟩ := inFile_effect .keccak hworks (fun _ _ => rfl)
      (s := ⟨Disk.scratch "dags", #[], #[]⟩) fits_scratch hcount pageLight ⟨none, false, false⟩
    refine ⟨f, s', hrun, (hmade (.inr ?_)).2⟩
    intro b _ hholds
    obtain ⟨id, hlookup, -⟩ := Disk.bytesAt_eq_some hholds
    exact Disk.lookup_scratch _ _ id hlookup

end FullClient

end ProofOfWork
