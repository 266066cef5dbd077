import ProofOfWork.Proofs.Client.Outline
import ProofOfWork.Proofs.DagFile.Prepare
import ProofOfWork.Proofs.Generation.Memory

/-! Clients with a dataset in a DAG file. A call that makes one leaves all DAG files to be trusted at
any time, and the file of a client that it returns is marked. -/

namespace ProofOfWork

open Program Files DagFile

namespace DagFile

variable {H : Hasher} {cache : Option Cache} {c : Contents}

theorem Marked.resize (h : Marked c) : Marked (c.resize c.size) :=
  ⟨h.1, by rw [Contents.read_resize c h.1, h.2]⟩

theorem Sound.resize (h : Sound H cache c) : Sound H cache (c.resize c.size) := by
  refine ⟨h.size_le, fun hmarked => ?_⟩
  rw [Marked, Contents.size_resize, Contents.read_resize c (by have := hmarked.1; simpa using this)]
    at hmarked
  obtain ⟨k, count, hk, hcount, hread⟩ := h.complete hmarked
  refine ⟨k, count, hk, hcount, ?_⟩
  rw [Contents.size_resize, Contents.read_resize c (by have := hmarked.1; omega), hread]

theorem Unmarked.resize (h : Unmarked c) (n : Nat) : Unmarked (c.resize n) := by
  unfold Unmarked
  rw [Contents.byte_resize]
  split
  · exact h
  · decide

/-- The dataset is behind the magic number, which no node reaches. -/
theorem Unmarked.overwrite (h : Unmarked c) {offset : Nat} (hoffset : 8 ≤ offset)
    (data : ByteArray) : Unmarked (c.overwrite offset data) := by
  unfold Unmarked
  rw [Contents.byte_overwrite_of_not_mem c (.inl (by omega))]
  exact h

/-- The magic number is before the dataset, and no part of it. -/
theorem Complete.overwrite (h : Complete H cache c) {data : ByteArray} (hdata : data.size ≤ 8) :
    Complete H cache (c.overwrite 0 data) := by
  obtain ⟨k, count, hk, hcount, hread⟩ := h
  refine ⟨k, count, hk, ?_, ?_⟩
  · rw [Contents.size_overwrite, hcount]
  · rw [Contents.size_overwrite, ← hread]
    exact Contents.read_eq_read fun i _ =>
      Contents.byte_overwrite_of_not_mem c (.inr (by omega))

/-- A node that is stored in a file is written to the dataset in it. -/
theorem read_overwrite_node {count index : UInt32} (hsize : c.size = 8 + 64 * count.toNat)
    (hindex : index.toNat < count.toNat) (n : Node) :
    (c.overwrite (nodeStart index) n.bytes.bytes).read 8 (64 * count.toNat) =
      Dataset.setNode (c.read 8 (64 * count.toNat)) index n := by
  have hnode : n.bytes.bytes.size = 64 := n.bytes.size_bytes
  have hstart : nodeStart index = 8 + 64 * index.toNat := rfl
  rw [Contents.overwrite, if_pos (by rw [hsize, hstart, hnode]; omega), hstart,
    Contents.read_write_node _ n (by omega)]

theorem marked_overwrite (hsize : 8 ≤ c.size) : Marked (c.overwrite 0 magicBytes.bytes) := by
  have hmagic : magicBytes.bytes.size = 8 := magicBytes.size_bytes
  refine ⟨by rw [Contents.size_overwrite]; exact hsize, ?_⟩
  refine Bytes.ext (by rw [Contents.size_read, hmagic]) fun i hi => ?_
  rw [Contents.size_read] at hi
  rw [Contents.getElem!_read, if_pos hi, Contents.overwrite, if_pos (by omega), Contents.byte_write,
    if_pos (by omega), Nat.zero_add, Nat.sub_zero]

theorem bytes_overwrite_magicBytes {n : Nat} (hsize : c.size = 8 + n) :
    (c.overwrite 0 magicBytes.bytes).bytes = magicBytes.bytes ++ c.read 8 n := by
  have hmagic : magicBytes.bytes.size = 8 := magicBytes.size_bytes
  have hrest : (c.overwrite 0 magicBytes.bytes).read 8 n = c.read 8 n := by
    apply Contents.read_eq_read
    intro i _
    apply Contents.byte_overwrite_of_not_mem
    omega
  rw [Contents.bytes_eq_append _ ((c.size_overwrite ..).trans hsize), hrest,
    (marked_overwrite (by omega)).2]

namespace Work

variable {w : Work} {s s' : Disk × Ledger} {file : Handle} {count : UInt32} {size : UInt64}

/-- The file of this call is being filled: it is not marked, and has room for the dataset. -/
def Filling (w : Work) (file : Handle) (id : Nat) (count : UInt32) (memory : ByteArray)
    (s : Disk × Ledger) : Prop :=
  ∃ c, w.Has file id c w.handed s ∧ Unmarked c ∧ c.size = 8 + 64 * count.toNat ∧
    memory = c.read 8 (64 * count.toNat)

/-- Whatever part of a node is stored, the file is not marked by it. -/
theorem Has.sound_node {id : Nat} {c : Contents} {cache : Option Cache}
    (h : w.Has file id c cache s) (hunmarked : Unmarked c) (index : UInt32) (data : ByteArray) :
    Sound w.hasher cache (c.overwrite (nodeStart index) data) := by
  refine (hunmarked.overwrite (Nat.le_add_right 8 _) data).sound ?_
  rw [Contents.size_overwrite]
  exact h.sound.size_le

/-- The surroundings of a generation whose nodes go into a file. -/
abbrev Storing (w : Work) (file : Handle) : Serving Generation (Disk × Ledger) :=
  fun r s a s' => Ends w.Beside (FullClient.intoFile file r) s a s'

/-- The dataset in a file is followed by the record of its bytes. -/
theorem follows_storing (w : Work) (file : Handle) (id : Nat) (count : UInt32) (c : Cache) :
    Generation.Follows w.hasher c count Dataset.setNode (w.Storing file)
      (fun r s => Keeps w.Beside w.Safe (fun _ _ => True) (FullClient.intoFile file r) s)
      fun m s => w.Filling file id count m.memory s := by
  rintro node r m s hlegal ⟨contents, h, hunmarked, hsize, hmemory⟩
  rcases r with r | ⟨index, n⟩
  · refine ⟨⟨safe_of_looks trivial h.trusted, fun _ _ _ => trivial⟩, ?_⟩
    intro a s' he
    have h' := h.waits (waits_of_looks (r := .caller _) trivial (ends_perform.mp he)).2
    exact ⟨contents, h', hunmarked, hsize, by cases r <;> exact hmemory⟩
  · obtain ⟨hindex, -⟩ := hlegal
    rw [UInt32.lt_iff_toNat_lt] at hindex
    have hsound (k : Nat) := h.sound_node hunmarked index (n.bytes.bytes.extract 0 k)
    have hstore := h.asks_store hsound
    refine ⟨⟨hstore.1, fun _ _ _ => trivial⟩, ?_⟩
    intro a s' he
    have h' := hstore.2 a s' (ends_perform.mp he)
    refine ⟨_, h', hunmarked.overwrite (Nat.le_add_right 8 _) _, ?_, ?_⟩
    · rw [Contents.size_overwrite, hsize]
    · rw [read_overwrite_node hsize hindex, ← hmemory]
      rfl

/-- A generation into a file that ends without a stop leaves a complete dataset in it. -/
theorem keeps_nodes_intoFile {id : Nat} {memory : ByteArray} {c : Cache}
    (h : w.Filling file id count memory s) (inParallel : Bool) :
    Keeps w.Beside w.Safe
      (fun outcome s' => ∃ memory', w.Filling file id count memory' s' ∧
        (outcome = .finished → memory' = Dataset.bytes w.hasher c count.toNat))
      ((Generation.nodes w.hasher c inParallel count).run (FullClient.intoFile file)) s := by
  have F := (follows_storing w file id count c).made memory
  refine Keeps.through (fun _ _ hsafe => hsafe) ?_
  refine (Generation.keeps_nodes _ F inParallel ⟨h, .start memory⟩).mono (fun _ _ hsafe => hsafe) ?_
  rintro outcome s' ⟨m, ⟨h', hmade⟩, htells⟩
  refine ⟨m.memory, h', fun hfinished => hmade.eq_bytes ?_ (htells.finished hfinished)⟩
  obtain ⟨contents, -, -, -, rfl⟩ := h
  exact Contents.size_read ..

variable {path : Path} {c : Cache}

theorem attempts_noted {id : Nat} {memory : ByteArray} (h : w.Filling file id count memory s)
    (bytes : Nat) (inParallel : Bool) :
    Yields w.terms
      (fun _ s => w.Filling file id count (Dataset.bytes w.hasher c count.toNat) s)
      (ExceptT.mk (FullClient.noted (I := Files) bytes inParallel
        ((Generation.nodes w.hasher c inParallel count).run (FullClient.intoFile file)))) s := by
  refine Yields.noted (w.Filling file id count memory) (fun outcome s' =>
    ∃ memory', w.Filling file id count memory' s' ∧
      (outcome = .finished → memory' = Dataset.bytes w.hasher c count.toNat)) ?_ ?_ ?_ ?_
  · obtain ⟨contents, h, hrest⟩ := h
    exact (notes_waits h.trusted _).mono fun _ _ hwaits => ⟨contents, h.waits hwaits, hrest⟩
  · exact fun _ h => keeps_nodes_intoFile h inParallel
  · rintro s ⟨_, ⟨contents, h, -⟩, -⟩
    exact h.trusted
  · rintro s ⟨memory', ⟨contents, h, hrest⟩, hmemory⟩
    rw [hmemory rfl] at hrest
    exact (notes_waits h.trusted _).mono fun _ _ hwaits => ⟨contents, h.waits hwaits, hrest⟩

theorem Has.asks_sync {id : Nat} {contents : Contents} {cache : Option Cache} {activity : Activity}
    (h : w.Has file id contents cache s) :
    Asks w.terms (.sync file) (Comes w.terms activity path fun _ =>
      w.Has file id contents cache) s :=
  comes_look trivial (fun _ h => h) h.trusted fun _ _ _ _ _ hwaits => h.waits hwaits

theorem attempts_fillFile {id : Nat} {memory : ByteArray} (h : w.Filling file id count memory s)
    (hc : w.handed = some c) (hcount : Dataset.nodeCount size.toNat = .ok count)
    (inParallel : Bool) :
    Yields w.terms (fun _ s => w.Ready file size s)
      (FullClient.fillFile w.hasher c inParallel count file path) s := by
  have hsize := (Dataset.nodeCount_eq_ok hcount).1
  refine Yields.fillFile (w.Filling file id count (Dataset.bytes w.hasher c count.toNat))
    (w.Filling file id count (Dataset.bytes w.hasher c count.toNat)) (w.Ready file size) ?_ ?_ ?_ ?_
  · exact attempts_noted h _ inParallel
  · rintro s ⟨contents, h, hrest⟩
    exact Asks.comes h.asks_sync fun _ _ h => ⟨contents, h, hrest⟩
  · rintro s ⟨contents, h, -, hfsize, hread⟩
    have hcomplete : Complete w.hasher w.handed contents := by
      refine ⟨c, count, hc, ?_, ?_⟩
      · rw [hfsize, Nat.add_sub_cancel_left, ← hsize, hcount]
      · rw [hfsize, Nat.add_sub_cancel_left, ← hread]
    refine (h.asks_store fun n => ⟨?_, fun _ => hcomplete.overwrite ?_⟩).mono
      fun _ _ h => ⟨id, _, _, h, ?_, ?_⟩
    · rw [Contents.size_overwrite]
      exact h.sound.size_le
    · rw [ByteArray.size_extract]
      have hmagic : magicBytes.bytes.size = 8 := magicBytes.size_bytes
      omega
    · exact marked_overwrite (by rw [hfsize]; omega)
    · rw [Contents.size_overwrite, hfsize, hsize, Nat.add_comm]
  · rintro s ⟨id, contents, cache, h, hrest⟩
    exact Asks.comes h.asks_sync fun _ _ h => ⟨id, contents, cache, h, hrest⟩

theorem attempts_openFile {place : Place} (hplace : place.path.location = w.place)
    (h : w.Trusted s) (force : Bool) :
    Yields w.terms (fun x s => if x.2 then w.Ready x.1 size s else w.Fresh x.1 s)
      (FullClient.openFile place size force) s := by
  refine Yields.openFile (w.Means size) (w.Means size) (attempts_prepare hplace h force)
    (fun _ _ h => ?_) (fun _ _ h => h) (fun _ _ h => h) fun _ _ h => h
  exact (notes_waits h _).mono fun _ _ hwaits => attempts_prepare hplace hwaits.trusted true

theorem Has.asks_map {id : Nat} {contents : Contents} {cache : Option Cache} {activity : Activity}
    (h : w.Has file id contents cache s) :
    Asks w.terms (.map file) (Comes w.terms activity path fun length s =>
      length = contents.size ∧ w.Has file id contents cache s) s := by
  refine comes_look trivial (fun _ h => h) h.trusted fun a length s' hdoes ha hwaits => ?_
  obtain rfl : a = .ok length := ha
  rw [Disk.map_eq_ok h.referent hdoes.2.symm, h.contents]
  exact ⟨rfl, h.waits hwaits⟩

/-- A file that is mapped is of use, or is to be filled. -/
def Mapped (w : Work) (size : UInt64) (count : UInt32) (opened : Handle × Bool) (s : Disk × Ledger) :
    Prop :=
  if opened.2 then w.Ready opened.1 size s
  else ∃ id memory, w.Filling opened.1 id count memory s

theorem attempts_mapFile {place : Place} (hplace : place.path.location = w.place)
    (h : w.Trusted s) (hc : w.handed = some c) (options : FullOptions) :
    Yields w.terms (fun storage s => ∃ file, storage = .mapped file place.path (size.toNat + 8) ∧
        w.Ready file size s)
      (FullClient.mapFile w.hasher place size c options) s := by
  cases hcount : Dataset.nodeCount size.toNat with
  | error cause => exact Yields.mapFile_of_error hcount h
  | ok count =>
    have hsize := (Dataset.nodeCount_eq_ok hcount).1
    have hlt := count.toNat_lt
    have hlength := toNat_add_magicBytes (show size.toNat + 8 < 2 ^ 64 by omega)
    refine Yields.mapFile hcount _ (w.Mapped size count)
      (fun opened length s => length = size.toNat + 8 ∧ w.Mapped size count opened s)
      (attempts_openFile hplace h options.force) ?_ ?_ ?_ ?_
    · rintro ⟨file, reuse⟩ s hfile
      cases reuse with
      | true =>
        -- the file already has the length that it is set to
        obtain ⟨id, contents, cache, h, hmarked, hfsize⟩ := hfile
        rw [← hlength] at hfsize
        refine Asks.comes (h.asks_setLength fun _ => hfsize ▸ h.sound.resize) fun _ s h => ?_
        refine ⟨id, _, cache, h, hfsize ▸ hmarked.resize, ?_⟩
        rw [Contents.size_resize, hlength]
      | false =>
        obtain ⟨id, contents, h, hunmarked⟩ := hfile
        refine Asks.comes (h.asks_setLength fun hlimit => ?_) fun _ s h => ?_
        · exact (hunmarked.resize _).sound (Nat.le_of_lt hlimit)
        · exact ⟨id, _, _, h, hunmarked.resize _, by rw [Contents.size_resize, hlength]; omega, rfl⟩
    · rintro ⟨file, reuse⟩ s hfile
      cases reuse with
      | true =>
        obtain ⟨id, contents, cache, h, hmarked, hfsize⟩ := hfile
        refine Asks.comes h.asks_map fun length s ⟨hfound, h⟩ => ?_
        exact ⟨hfound.trans hfsize, id, contents, cache, h, hmarked, hfsize⟩
      | false =>
        obtain ⟨id, memory, contents, h, hunmarked, hfsize, hread⟩ := hfile
        refine Asks.comes h.asks_map fun length s ⟨hfound, h⟩ => ?_
        exact ⟨by omega, id, memory, contents, h, hunmarked, hfsize, hread⟩
    · rintro file length s ⟨rfl, hready⟩
      exact (notes_waits (Ready.trusted hready) _).mono fun _ _ hwaits =>
        ⟨file, rfl, Ready.waits hready hwaits⟩
    · rintro file length s ⟨rfl, id, memory, hfilling⟩
      exact (attempts_fillFile hfilling hc hcount options.parallel).mono fun _ _ hready =>
        ⟨file, rfl, hready⟩

/-- A call for a client with a dataset in a file. If it returns the client, the file is marked. -/
theorem keeps_inFile {place : Place} (hplace : place.path.location = w.place) (h : w.Trusted s)
    (light : LightClient) (hlight : w.handed = some light.cache) (options : FullOptions) :
    Keeps w.Beside w.Safe
      (fun answer s' => w.Trusted s' ∧ ∀ f, answer = .ok f → f.light = light ∧ f.size = size ∧
        ∃ file, f.storage = .mapped file place.path (size.toNat + 8) ∧ w.Ready file size s')
      (FullClient.inFile w.hasher place size light options) s := by
  refine Yields.inFile (attempts_mapFile hplace h hlight options) ?_ ?_
  · rintro _ s ⟨file, rfl, hready⟩
    exact ⟨hready.trusted, fun f hf => Except.ok.inj hf ▸ ⟨rfl, rfl, file, rfl, hready⟩⟩
  · exact fun cause s h => ⟨h, fun f hf => by contradiction⟩

end Work

end DagFile

end ProofOfWork
