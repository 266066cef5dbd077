import ProofOfWork.Proofs.Client.Mapped
import ProofOfWork.Proofs.Client.Memory
import ProofOfWork.Proofs.Client.Survival
import ProofOfWork.Proofs.Hashimoto.Lookups

/-! Clients that are handed out are of use: the dataset has the size that was asked for, and every
hash over it succeeds. For a dataset in a file this holds over file primitives of any kind, also if
they answer sizes that are false, as long as nobody else resizes the file. -/

namespace ProofOfWork

open Program Files DagFile

namespace Disk

variable {id : Nat} {d d' d'' : Disk} {file : Handle}

/-! ### A file that nobody else resizes -/

/-- File `id` stays, and keeps its size. -/
structure SameSize (id : Nat) (d d' : Disk) : Prop where
  stays : d.contents.size ≤ d'.contents.size
  size_eq : id < d.contents.size → (d'.file id).size = (d.file id).size

theorem SameSize.refl (id : Nat) (d : Disk) : SameSize id d d := ⟨Nat.le_refl _, fun _ => rfl⟩

theorem SameSize.trans (h : SameSize id d d') (h' : SameSize id d' d'') : SameSize id d d'' where
  stays := Nat.le_trans h.stays h'.stays
  size_eq hid := (h'.size_eq (Nat.lt_of_lt_of_le hid h.stays)).trans (h.size_eq hid)

theorem sameSize_modify {f : Contents → Contents} (hf : ∀ c, (f c).size = c.size) (id i : Nat)
    (d : Disk) : SameSize id d (d.modify i f) := by
  refine ⟨Nat.le_of_eq (size_contents_modify i f).symm, fun hid => ?_⟩
  unfold file modify
  rw [Array.getElem?_modify, Array.getElem?_eq_getElem hid]
  split
  · exact hf _
  · rfl

/-- What is written to the memory of a mapped file leaves its size as it is. -/
theorem sameSize_store (id : Nat) (d : Disk) (file : Handle) (offset : Nat) (data : ByteArray) :
    SameSize id d (d.store file offset data) := by
  cases hfile : file.referent with
  | file i =>
    rw [store_eq hfile]
    exact sameSize_modify (fun _ => Contents.size_overwrite ..) id i d
  | _ =>
    rw [store, hfile]
    exact .refl id d

theorem size_contents_setLength (d : Disk) (file : Handle) (length : UInt64) :
    (d.setLength file length).2.contents.size = d.contents.size := by
  unfold setLength
  repeat' split
  all_goals simp

/-- Only files have a size that can be set. -/
theorem setLength_eq_ok {length : UInt64} (h : d.setLength file length = (.ok (), d')) :
    ∃ i, file.referent = .file i ∧ d' = d.modify i (·.resize length.toNat) := by
  cases hfile : file.referent with
  | file i =>
    refine ⟨i, rfl, ?_⟩
    rcases setLength_cases hfile d length with ⟨e, herror⟩ | ⟨-, hok⟩
    · cases h.symm.trans herror
    · exact (Prod.mk.inj (h.symm.trans hok)).2
  | _ =>
    unfold setLength at h
    rw [hfile] at h
    split at h <;> cases h

/-- A file that was handed out, if it is file `id`, is there. -/
def Held (id : Nat) (file : Handle) (d : Disk) : Prop :=
  file.referent = .file id → id < d.contents.size

theorem Held.mono (h : Held id file d) (hstays : d.contents.size ≤ d'.contents.size) :
    Held id file d' := fun hid => Nat.lt_of_lt_of_le (h hid) hstays

/-- A file, which has `n` bytes if it is file `id`. -/
structure Sized (id : Nat) (file : Handle) (n : Nat) (d : Disk) : Prop where
  isFile : ∃ i, file.referent = .file i
  held : Held id file d
  size_eq : file.referent = .file id → (d.file id).size = n

theorem Sized.mono {n : Nat} (h : Sized id file n d) (hsame : SameSize id d d') :
    Sized id file n d' where
  isFile := h.isFile
  held := h.held.mono hsame.stays
  size_eq hid := (hsame.size_eq (h.held hid)).trans (h.size_eq hid)

theorem sized_setLength {length : UInt64} (h : Held id file d)
    (hset : d.setLength file length = (.ok (), d')) : Sized id file length.toNat d' := by
  obtain ⟨i, hfile, rfl⟩ := setLength_eq_ok hset
  refine ⟨⟨i, hfile⟩, h.mono (Nat.le_of_eq (size_contents_modify i _).symm), fun hid => ?_⟩
  obtain rfl : i = id := Referent.file.inj (hfile.symm.trans hid)
  rw [file_modify (h hid), if_pos rfl, Contents.size_resize]

/-- The call is carried out or fails, and others do to the disk what they like, but do not resize
file `id`. -/
def ServesBeside (id : Nat) : Serving Files Disk :=
  fun r d a d' => ∃ d₁, Serves r d a d₁ ∧ SameSize id d₁ d'

/-- File primitives that answer what they like and do to the disk what they like, but what they hand
out as a file must be there. From the call on that sets its size, nobody else resizes file `id`. -/
def Lends (id : Nat) : Serving Files Disk
  | .openExisting _, d, a, d' =>
    d.contents.size ≤ d'.contents.size ∧ ∀ file, a = .ok file → Held id file d'
  | .create _, d, a, d' =>
    d.contents.size ≤ d'.contents.size ∧ ∀ file, a = .ok file → Held id file d'
  | .caller r, d, a, d' => ServesBeside id (.caller r) d a d'
  | .setLength file length, d, a, d' => ServesBeside id (.setLength file length) d a d'
  | .map file, d, a, d' => ServesBeside id (.map file) d a d'
  | .store file offset data, d, a, d' => ServesBeside id (.store file offset data) d a d'
  | .sync file, d, a, d' => ServesBeside id (.sync file) d a d'
  | _, d, _, d' => d.contents.size ≤ d'.contents.size

end Disk

/-- A request that leaves the sizes of files as they are. -/
def Files.Request.Mild : Request → Prop
  | .caller _ => True
  | .map _ => True
  | .store _ _ _ => True
  | .sync _ => True
  | _ => False

namespace Disk

variable {id : Nat} {d d' : Disk} {r : Request} {a : Answer r}

theorem Lends.sameSize (h : Lends id r d a d') (hr : r.Mild) : SameSize id d d' := by
  cases r with
  | caller r =>
    obtain ⟨d₁, rfl | ⟨hfalse, -⟩, hsame⟩ := h
    · exact hsame
    · exact hfalse.elim
  | map file => obtain ⟨d₁, ⟨rfl, -⟩ | ⟨-, rfl⟩, hsame⟩ := h <;> exact hsame
  | store file offset data =>
    obtain ⟨d₁, rfl | ⟨hfalse, -⟩, hsame⟩ := h
    · exact (sameSize_store id d file offset data).trans hsame
    · exact hfalse.elim
  | sync file => obtain ⟨d₁, rfl | ⟨-, rfl⟩, hsame⟩ := h <;> exact hsame
  | _ => exact hr.elim

theorem Lends.stays (h : Lends id r d a d') : d.contents.size ≤ d'.contents.size := by
  cases r with
  | openExisting path => exact h.1
  | create path => exact h.1
  | setLength file length =>
    obtain ⟨d₁, hserves, hsame⟩ := h
    have hsize : d₁.contents.size = d.contents.size := by
      obtain hdoes | ⟨-, rfl | rfl⟩ := hserves
      · obtain ⟨-, rfl⟩ := Prod.mk.inj hdoes
        exact size_contents_setLength ..
      · rfl
      · exact size_contents_setLength ..
    exact hsize ▸ hsame.stays
  | caller r => exact (h.sameSize trivial).stays
  | map file => exact (h.sameSize trivial).stays
  | store file offset data => exact (h.sameSize trivial).stays
  | sync file => exact (h.sameSize trivial).stays
  | _ => exact h

theorem Lends.sized {file : Handle} {length : UInt64}
    (h : Lends id (.setLength file length) d (.ok ()) d') (hheld : Held id file d) :
    Sized id file length.toNat d' := by
  obtain ⟨d₁, hdoes | ⟨⟨e, herror⟩, -⟩, hsame⟩ := h
  · exact (sized_setLength hheld hdoes.symm).mono hsame
  · cases herror

theorem Lends.length_eq {file : Handle} {length n : Nat}
    (h : Lends id (.map file) d (.ok length) d') (hsized : Sized id file n d)
    (hid : file.referent = .file id) : length = n := by
  obtain ⟨d₁, ⟨rfl, hmap⟩ | ⟨⟨e, herror⟩, -⟩, -⟩ := h
  · exact (map_eq_ok hid hmap.symm).trans (hsized.size_eq hid)
  · cases herror

end Disk

/-! ### Opening, resizing and mapping a file -/

section

variable {β : Type} {id n : Nat} {Q : β → Disk → Prop} {d : Disk} {file : Handle} {activity : Activity}
  {path : Path}

/-- File primitives of any kind. A call may fail for any reason. -/
abbrev lending (id : Nat) : Terms Disk := .of (Disk.Lends id) fun _ _ => True

theorem comes_lending {answer : Except IoError β} (hQ : ∀ b, answer = .ok b → Q b d) :
    Comes (lending id) activity path Q answer d :=
  meets_of (fun _ _ => ⟨trivial, fun _ _ _ => trivial⟩) hQ

theorem Disk.Held.asks (h : Disk.Held id file d) {r : Request} {P : Answer r → Disk → Prop}
    (hP : ∀ a d', Disk.Held id file d' → P a d') : Asks (lending id) r P d :=
  ⟨trivial, fun a d' hlends => hP a d' (h.mono hlends.stays)⟩

/-- A call beside which the file that is held stays. -/
theorem Disk.Held.comes (h : Disk.Held id file d) {r : Request} {g : Answer r → Except IoError β}
    (hQ : ∀ b d', Disk.Held id file d' → Q b d') :
    Asks (lending id) r (fun a => Comes (lending id) activity path Q (g a)) d :=
  h.asks fun _ d' h => comes_lending fun b _ => hQ b d' h

theorem Disk.Sized.asks {r : Request} (hr : r.Mild) (h : Disk.Sized id file n d) :
    Asks (lending id) r (fun _ => Disk.Sized id file n) d :=
  ⟨trivial, fun _ _ hlends => h.mono (hlends.sameSize hr)⟩

theorem Disk.Sized.comes {r : Request} {g : Answer r → Except IoError β} (hr : r.Mild)
    (h : Disk.Sized id file n d) :
    Asks (lending id) r
      (fun a => Comes (lending id) activity path (fun _ => Disk.Sized id file n) (g a)) d :=
  (h.asks hr).mono fun _ _ h => comes_lending fun _ _ => h

namespace DagFile

variable {place : Place} {size : UInt64}

/-- The file that a memo has, if any, is there. -/
def Memo.Held (id : Nat) : Memo → Disk → Prop
  | found file, d => Disk.Held id file d
  | created file, d => Disk.Held id file d
  | stale _, _ => True

theorem lent_createSized (path : Path) (size : UInt64) (d : Disk) :
    Yields (lending id) (Memo.Held id) (createSized path size) d := by
  apply Yields.createSized (Disk.Held id) (Disk.Held id) (Disk.Held id)
  · exact ⟨trivial, fun a d' hlends => comes_lending hlends.2⟩
  · exact fun _ _ h => h.comes fun _ _ h => h
  · exact fun _ _ h => h.comes fun _ _ h => h
  · exact fun _ _ h => h.comes fun _ _ h => h

theorem lent_probe (h : Disk.Held id file d) (path : Path) :
    Yields (lending id) (Memo.Held id) (probe file path size) d := by
  apply Yields.probe (fun _ => Disk.Held id file) (fun _ => Disk.Held id file)
  · exact h.comes fun _ _ h => h
  · exact fun _ _ _ _ => trivial
  · intro found d h _
    apply h.asks
    intro answer d h
    cases answer with
    | ok bytes => exact h
    | error cause => exact ⟨trivial, fun _ _ _ => trivial⟩
  · exact fun _ _ _ _ => trivial
  · exact fun _ _ h _ => h

theorem lent_prepare (place : Place) (size : UInt64) (force : Bool) (d : Disk) :
    Yields (lending id) (Memo.Held id) (prepare place size force) d := by
  apply Yields.prepare fun _ => True
  · exact ⟨trivial, fun _ _ _ => comes_lending fun _ _ => ⟨trivial, fun _ _ _ => trivial⟩⟩
  · exact fun d _ _ => lent_createSized place.path size d
  · intro d _ _
    refine ⟨trivial, fun answer d hlends => ?_⟩
    cases answer with
    | ok file => exact lent_probe (hlends.2 file rfl) _
    | error cause => exact ⟨trivial, fun _ d _ => lent_createSized place.path size d⟩

theorem lent_openFile (place : Place) (size : UInt64) (force : Bool) (d : Disk) :
    Yields (lending id) (fun opened d' => Disk.Held id opened.1 d')
      (FullClient.openFile place size force) d := by
  apply Yields.openFile (Memo.Held id) (Memo.Held id) (lent_prepare place size force d)
  · exact fun _ _ _ => ⟨trivial, fun _ d _ => lent_prepare place size true d⟩
  all_goals exact fun _ _ h => h

/-! ### Filling a file -/

variable {H : Hasher} {c : Cache} {count : UInt32}

/-- A generation into a mapped file does not resize it. -/
theorem keeps_nodes_sized (h : Disk.Sized id file n d) (target : Handle) (inParallel : Bool) :
    Keeps (Disk.Lends id) (fun _ _ => True) (fun _ d' => Disk.Sized id file n d')
      ((Generation.nodes H c inParallel count).run (FullClient.intoFile target)) d := by
  have hstep (r d a d') (hends : Ends (Disk.Lends id) (FullClient.intoFile target r) d a d')
      (h : Disk.Sized id file n d) : Disk.Sized id file n d' := by
    apply h.mono
    rcases r with r | ⟨index, node⟩
    all_goals exact (ends_perform.mp hends).sameSize trivial
  apply Keeps.through (P := fun _ _ => True)
  · intro r d _
    exact keeps_trivial _ _
  · apply ((keeps_trivial _ d).invariant (fun r d a d' _ => hstep r d a d') h).mono
    · exact fun _ _ _ => trivial
    · exact fun _ _ h => h.2

theorem lent_fillFile (h : Disk.Sized id file n d) (inParallel : Bool) (target : Handle)
    (path : Path) :
    Yields (lending id) (fun _ d' => Disk.Sized id file n d')
      (FullClient.fillFile H c inParallel count target path) d := by
  apply Yields.fillFile (Disk.Sized id file n) (Disk.Sized id file n) (Disk.Sized id file n)
  · apply Yields.noted (Disk.Sized id file n) (fun _ => Disk.Sized id file n)
    · exact h.asks trivial
    · exact fun d h => keeps_nodes_sized h target inParallel
    · exact fun _ _ => trivial
    · exact fun _ h => h.asks trivial
  · exact fun _ h => h.comes trivial
  · exact fun _ h => h.asks trivial
  · exact fun _ h => h.comes trivial

theorem lent_mapFile (c : Cache) (options : FullOptions) (d : Disk) :
    Yields (lending id)
      (fun storage d' => (∃ count, Dataset.nodeCount size.toNat = .ok count) ∧
        ∃ file length, storage = .mapped file place.path length ∧
          Disk.Sized id file (size.toNat + 8) d' ∧
          (file.referent = .file id → length = size.toNat + 8))
      (FullClient.mapFile H place size c options) d := by
  cases hcount : Dataset.nodeCount size.toNat with
  | error cause => exact Yields.mapFile_of_error hcount trivial
  | ok count =>
    have hbytes := (Dataset.nodeCount_eq_ok hcount).1
    have hlt := count.toNat_lt
    have hlength := toNat_add_magicBytes (show size.toNat + 8 < 2 ^ 64 by omega)
    apply Yields.mapFile hcount (fun opened => Disk.Held id opened.1)
      (fun opened => Disk.Sized id opened.1 (size.toNat + 8))
      (fun opened length d => Disk.Sized id opened.1 (size.toNat + 8) d ∧
        (opened.1.referent = .file id → length = size.toNat + 8))
    · exact lent_openFile place size options.force d
    · -- whatever was answered about the size before, the file has the right one now
      refine fun _ d hheld => ⟨trivial, fun answer d' hset => comes_lending ?_⟩
      rintro _ rfl
      rw [← hlength]
      exact Disk.Lends.sized hset hheld
    · refine fun opened d h => ⟨trivial, fun answer d' hlends => comes_lending ?_⟩
      rintro length rfl
      have hmap : Disk.Lends id (.map opened.1) d (.ok length) d' := hlends
      exact ⟨h.mono (hmap.sameSize trivial), hmap.length_eq h⟩
    · rintro file length d ⟨h, hmapped⟩
      apply (h.asks (r := .caller (.log _)) trivial).mono
      exact fun _ _ h => ⟨⟨count, rfl⟩, file, length, rfl, h, hmapped⟩
    · rintro file length d ⟨h, hmapped⟩
      apply (lent_fillFile h options.parallel file place.path).mono
      exact fun _ _ h => ⟨⟨count, rfl⟩, file, length, rfl, h, hmapped⟩

end DagFile

end

/-! ### Clients -/

theorem Hashimoto.exists_full_eq_ok {H : Hasher} {dataset : ByteArray} {count : UInt32}
    (hcount : Dataset.nodeCount dataset.size = .ok count) (header : Hash256) (nonce : UInt64) :
    ∃ hash, full H dataset header nonce = .ok (some hash) := by
  rw [full, overMemory_eq_compute hcount header nonce (Nat.le_refl _), compute_eq_ok hcount]
  exact ⟨_, rfl⟩

namespace FullClient

variable {H : Hasher} {size : UInt64} {count : UInt32} {light : LightClient}

/-- The dataset is in file `id`. -/
def InFile (f : FullClient) (id : Nat) : Prop :=
  ∃ file path length, f.storage = .mapped file path length ∧ file.referent = .file id

/-- All that is mapped into memory is in a file, so that every access to it succeeds. -/
def Backed (f : FullClient) (d : Disk) : Prop :=
  ∀ file path length, f.storage = .mapped file path length →
    ∃ id, file.referent = .file id ∧ (d.file id).size = length

/-- The dataset has the size that was asked for, and hashes over it succeed, as do hashes over the
cache. -/
structure Usable (H : Hasher) (size : UInt64) (f : FullClient) (d : Disk) : Prop where
  accepted : ∃ count, Dataset.nodeCount size.toNat = .ok count
  size_eq : f.size = size
  size_dag : (f.dag d).size = size.toNat
  dagSize_eq : f.dagSize = size.toNat
  backed : f.Backed d
  exists_compute : ∀ header nonce, ∃ hash, f.compute H d header nonce = .ok (some hash)
  exists_computeWithSize : ∀ header nonce, ∃ hash,
    f.light.computeWithSize H f.size header nonce = .ok hash

theorem usable_memory (hcount : Dataset.nodeCount size.toNat = .ok count) {dataset : ByteArray}
    (hsize : dataset.size = size.toNat) (light : LightClient) (d : Disk) :
    Usable H size ⟨.memory dataset, size, light⟩ d where
  accepted := ⟨count, hcount⟩
  size_eq := rfl
  size_dag := hsize
  dagSize_eq := hsize
  backed _ _ _ hstorage := by contradiction
  exists_compute := Hashimoto.exists_full_eq_ok (hsize ▸ hcount)
  exists_computeWithSize header nonce := ⟨_, Hashimoto.compute_eq_ok hcount header nonce _⟩

theorem usable_mapped (hcount : Dataset.nodeCount size.toNat = .ok count) {file : Handle} {id : Nat}
    {d : Disk} (hfile : file.referent = .file id) (hsize : (d.file id).size = size.toNat + 8)
    (path : Path) (light : LightClient) :
    Usable H size ⟨.mapped file path (size.toNat + 8), size, light⟩ d := by
  have hdag : ((⟨.mapped file path (size.toNat + 8), size, light⟩ : FullClient).dag d).size =
      size.toNat := by
    rw [dag_mapped rfl hfile, Contents.size_read]
  constructor
  · exact ⟨count, hcount⟩
  · rfl
  · exact hdag
  · exact Nat.add_sub_cancel size.toNat 8
  · rintro _ _ _ ⟨⟩
    exact ⟨id, hfile, hsize⟩
  · intro header nonce
    rw [compute_mapped rfl hfile]
    exact Hashimoto.exists_full_eq_ok (hdag ▸ hcount) header nonce
  · intro header nonce
    exact ⟨_, Hashimoto.compute_eq_ok hcount header nonce _⟩

theorem inMemoryWithSize_of_error {cause : Invalid}
    (hcount : Dataset.nodeCount size.toNat = .error cause) (light : LightClient)
    (inParallel : Bool) :
    inMemoryWithSize H size light inParallel = .done (.error ⟨light, .invalid cause⟩) := by
  rw [inMemoryWithSize, fillMemory, hcount]
  rfl

section

variable {σ : Type} {W : Serving Caller σ} (hcount : Dataset.nodeCount size.toNat = .ok count)

include hcount

/-- Only the caller can make the generation of a dataset in memory fail. -/
theorem keeps_fillMemory_size (c : Cache) (inParallel : Bool) (s : σ) :
    Keeps W (fun _ _ => True)
      (fun answer _ => answer = .error .cancelled ∨
        ∃ dataset, answer = .ok dataset ∧ dataset.size = size.toNat)
      (fillMemory H size c inParallel) s := by
  rw [fillMemory, hcount]
  refine ⟨trivial, fun _ s _ => ?_⟩
  have hrun := keeps_trivial (W := W) ((Generation.nodes H c inParallel count).run
    (Dataset.keepBy putNode) (Contents.empty.resize size.toNat)) s
  refine hrun.bind ?_
  rintro ⟨outcome, dataset⟩ s -
  cases outcome with
  | cancelled => exact .inl rfl
  | finished => exact ⟨trivial, fun _ s _ => .inr ⟨_, rfl, Contents.size_read ..⟩⟩

theorem keeps_inMemoryWithSize_usable (light : LightClient) (inParallel : Bool) (s : σ) :
    Keeps W (fun _ _ => True)
      (fun answer _ => answer = .error ⟨light, .cancelled⟩ ∨
        ∃ f, answer = .ok f ∧ ∀ d, Usable H size f d)
      (inMemoryWithSize H size light inParallel) s := by
  refine (keeps_fillMemory_size hcount light.cache inParallel s).bind ?_
  rintro _ s (rfl | ⟨dataset, rfl, hsize⟩)
  · exact .inl rfl
  · exact .inr ⟨_, rfl, usable_memory hcount hsize light⟩

end

theorem keeps_inFile_usable (id : Nat) (place : Place) (light : LightClient) (options : FullOptions)
    (d : Disk) :
    Keeps (Disk.Lends id) (fun _ _ => True)
      (fun answer d' => ∀ f, answer = .ok f → (∃ i, f.InFile i) ∧
        (f.InFile id → ∀ d'', Disk.SameSize id d' d'' → Usable H size f d''))
      (inFile H place size light options) d := by
  refine Yields.inFile (lent_mapFile light.cache options d) ?_ fun _ _ _ => nofun
  rintro _ d ⟨⟨count, hcount⟩, file, length, rfl, hsized, hlength⟩ _ ⟨⟩
  constructor
  · obtain ⟨i, hi⟩ := hsized.isFile
    exact ⟨i, file, _, _, rfl, hi⟩
  · rintro ⟨_, _, _, ⟨⟩, hfile⟩ d' hsame
    obtain rfl := hlength hfile
    exact usable_mapped hcount hfile ((hsized.mono hsame).size_eq hfile) _ light

/-- Every client that is handed out is of use, in memory whatever the caller does, and in a file
whatever the file primitives answer and whatever was in the file, for as long as nobody else resizes
it. -/
theorem handles_usable (H : Hasher) (size : UInt64) (light : LightClient) :
    (∀ (σ : Type) (W : Serving Caller σ) (inParallel : Bool) (s s' : σ) (f : FullClient),
      Ends W (inMemoryWithSize H size light inParallel) s (.ok f) s' → ∀ d, Usable H size f d) ∧
    ∀ (id : Nat) (place : Place) (options : FullOptions) (d d' : Disk) (f : FullClient),
      Ends (Disk.Lends id) (inFile H place size light options) d (.ok f) d' →
      (∃ i, f.InFile i) ∧
        (f.InFile id → ∀ d'', Disk.SameSize id d' d'' → Usable H size f d'') := by
  constructor
  · intro σ W inParallel s s' f h
    cases hcount : Dataset.nodeCount size.toNat with
    | error cause =>
      rw [inMemoryWithSize_of_error hcount] at h
      cases h
    | ok count =>
      obtain hcancelled | ⟨_, ⟨⟩, husable⟩ :=
        (keeps_inMemoryWithSize_usable hcount light inParallel s).ends h
      · contradiction
      · exact husable
  · intro id place options d d' f h
    exact (keeps_inFile_usable id place light options d).ends h f rfl

/-- Primitives that open file 0 for whatever path, and say of every file that it has 136 bytes. -/
def misleading : (r : Files.Request) → Surroundings.Within (Files.Answer r)
  | .makeDirectory _ => return .ok ()
  | .openExisting _ => Surroundings.look fun d =>
    if 0 < d.contents.size then .ok ⟨.file 0, true, true⟩ else .error (.os .noEntry)
  | .create _ => return .error (.os .noEntry)
  | .size _ => return .ok 136
  | .write _ _ _ => return .ok ()
  | r => Surroundings.serveFiles (fun _ => .stop) r

theorem lends_misleading (r : Files.Request) (s : Surroundings) :
    Disk.Lends 0 r s.disk (misleading r s).1 (misleading r s).2.disk := by
  have hbeside (r : Files.Request) : Disk.ServesBeside 0 r s.disk _ _ :=
    ⟨_, .inl (Disk.does_serveFiles (fun _ => .stop) r s), .refl _ _⟩
  cases r with
  | openExisting path =>
    refine ⟨Nat.le_refl _, fun file hfile _ => ?_⟩
    change (if 0 < s.disk.contents.size then _ else _) = Except.ok file at hfile
    split at hfile
    · assumption
    · contradiction
  | create path => exact ⟨Nat.le_refl _, fun file hfile => by contradiction⟩
  | caller r => exact hbeside (.caller r)
  | setLength file length => exact hbeside (.setLength file length)
  | map file => exact hbeside (.map file)
  | store file offset data => exact hbeside (.store file offset data)
  | sync file => exact hbeside (.sync file)
  | _ => exact Nat.le_refl _

/-- A file with the magic number and nothing else, which is taken for one that has a dataset. -/
def shortDisk : Disk := ⟨[], #[.ofBytes magicBytes.bytes], 2 ^ 40⟩

theorem exists_inMemoryWithSize_eq_ok (hcount : Dataset.nodeCount size.toNat = .ok count) {σ : Type}
    {caller : (r : Caller.Request) → StateM σ (Caller.Answer r)}
    (hcaller : ∀ percent s, (caller (.report percent) s).1 = .goOn) (light : LightClient)
    (inParallel : Bool) (s : σ) :
    ∃ f s', (inMemoryWithSize H size light inParallel).run (I := Caller) caller s = (.ok f, s') ∧
      Ends (.of (I := Caller) caller) (inMemoryWithSize H size light inParallel) s (.ok f) s' := by
  have hW : Generation.NeverStops (.of (I := Caller) caller) := fun percent s verdict s' h =>
    (congrArg Prod.fst h).symm.trans (hcaller percent s)
  have hends : Ends (.of (I := Caller) caller) (inMemoryWithSize H size light inParallel) s _ _ :=
    ends_run _ s
  have hok := (keeps_inMemoryWithSize (H := H) hW hcount light inParallel s).ends hends
  exact ⟨_, _, Prod.ext hok rfl, hok ▸ hends⟩

theorem handles_usable_page :
    (∃ f s', (inMemoryWithSize .keccak 128 pageLight true).run (I := Caller)
        (Surroundings.serveCaller fun _ => .goOn) ⟨shortDisk, #[], #[]⟩ = (.ok f, s') ∧
      Usable .keccak 128 f shortDisk) ∧
    ∃ f s', (inFile .keccak pagePlace 128 pageLight ⟨none, false, false⟩).run misleading
        ⟨shortDisk, #[], #[]⟩ = (.ok f, s') ∧
      s'.reports = #[] ∧ Usable .keccak 128 f s'.disk := by
  obtain ⟨hmemory, hfile⟩ := handles_usable .keccak 128 pageLight
  constructor
  · have hcount : Dataset.nodeCount (128 : UInt64).toNat = .ok 2 := rfl
    have hgoOn (percent : UInt32) (s : Surroundings) :
        (Surroundings.serveCaller (fun _ => .goOn) (.report percent) s).1 = .goOn := rfl
    obtain ⟨f, s', hrun, hends⟩ := exists_inMemoryWithSize_eq_ok (H := .keccak) hcount hgoOn
      pageLight true ⟨shortDisk, #[], #[]⟩
    exact ⟨f, s', hrun, hmemory _ _ _ _ _ _ hends shortDisk⟩
  · have hends := ends_view Surroundings.disk lends_misleading
      (inFile .keccak pagePlace 128 pageLight ⟨none, false, false⟩) ⟨shortDisk, #[], #[]⟩
    have hok : ((inFile .keccak pagePlace 128 pageLight ⟨none, false, false⟩).run misleading
        ⟨shortDisk, #[], #[]⟩).1 =
      .ok ⟨.mapped ⟨.file 0, true, true⟩ pagePlace.path 136, 128, pageLight⟩ := by rfl
    rw [hok] at hends
    exact ⟨_, _, Prod.ext hok rfl, by rfl,
      (hfile 0 _ _ _ _ _ hends).2 ⟨_, _, _, rfl, rfl⟩ _ (.refl _ _)⟩

end FullClient

end ProofOfWork
