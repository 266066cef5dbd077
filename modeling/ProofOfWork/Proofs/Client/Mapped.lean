import ProofOfWork.Proofs.Client.Session
import ProofOfWork.Proofs.DagFile.Name
import ProofOfWork.Proofs.Hashimoto

/-! Clients with a dataset in a DAG file hash as clients with the same dataset in memory do, and as the
light clients do that they are made from. -/

namespace ProofOfWork

namespace Disk

variable {d : Disk} {file : Handle} {id : Nat}

theorem mapped_eq_read (h : file.referent = .file id) (start stop : Nat) :
    d.mapped file start stop = (d.file id).read start (stop - start) := by
  rw [mapped, h]

theorem bytes_loadNode (h : file.referent = .file id) (offset : Nat) :
    (d.loadNode file offset).bytes.bytes = (d.file id).read offset 64 := by
  have hread : d.mapped file offset (offset + Params.nodeBytes) = (d.file id).read offset 64 := by
    rw [mapped_eq_read h, Nat.add_sub_cancel_left]
    rfl
  have hsize : ((d.file id).read offset 64).size = 64 := Contents.size_read ..
  rw [loadNode, hread, Node.ofByteArray?, ByteVector.ofByteArray?, dif_pos hsize]
  rfl

end Disk

namespace FullClient

variable {H : Hasher} {f : FullClient} {d : Disk} {file : Handle} {path : Path} {id n : Nat}

theorem dag_mapped (hstorage : f.storage = .mapped file path (n + 8))
    (hfile : file.referent = .file id) : f.dag d = (d.file id).read 8 n := by
  rw [dag, hstorage]
  exact Disk.mapped_eq_read hfile ..

theorem node?_mapped (hstorage : f.storage = .mapped file path (n + 8))
    (hfile : file.referent = .file id) (index : UInt32) :
    f.node? d index = Hashimoto.nodeAt? (f.dag d) index := by
  have hstart : DagFile.nodeStart index = 8 + 64 * index.toNat := rfl
  have hnode : f.node? d index = if 8 + 64 * index.toNat + 64 ≤ n + 8 then
      some (d.loadNode file (DagFile.nodeStart index)) else none := by
    rw [node?, hstorage]
    rfl
  rw [hnode, dag_mapped hstorage hfile]
  by_cases hindex : 64 * index.toNat + 64 ≤ n
  · rw [if_pos (by omega), eq_comm, Hashimoto.nodeAt?_eq_some_iff, Contents.size_read]
    refine ⟨hindex, fun j hj => ?_⟩
    rw [Disk.bytes_loadNode hfile, Contents.getElem!_read, Contents.getElem!_read, if_pos hj,
      if_pos (by omega), hstart, Nat.add_assoc]
  · rw [if_neg (by omega), eq_comm, Option.eq_none_iff_forall_ne_some]
    intro node hsome
    rw [Hashimoto.nodeAt?_eq_some_iff, Contents.size_read] at hsome
    exact hindex hsome.1

theorem compute_mapped (hstorage : f.storage = .mapped file path (n + 8))
    (hfile : file.referent = .file id) (header : Hash256) (nonce : UInt64) :
    f.compute H d header nonce = Hashimoto.full H (f.dag d) header nonce := by
  have hlook : f.node? d = Hashimoto.nodeAt? (f.dag d) := funext (node?_mapped hstorage hfile)
  have hsize : f.dagSize = (f.dag d).size := by
    rw [dag_mapped hstorage hfile, Contents.size_read, dagSize, hstorage]
    exact Nat.add_sub_cancel n 8
  rw [compute, hlook, hsize]
  rfl

end FullClient

namespace DagFile

variable {H : Hasher} {allowed : Set Call}

/-- Calls are at one place only for files of one name. This is up to the functions that join paths. -/
def NamesApart (allowed : Set Call) : Prop :=
  ∀ c ∈ allowed, ∀ c' ∈ allowed, c.location = c'.location →
    name c.place.revision c.place.seed = name c'.place.revision c'.place.seed

/-- Calls with one seed are handed one cache. -/
def OneCache (allowed : Set Call) : Prop :=
  ∀ c ∈ allowed, ∀ c' ∈ allowed, c.place.seed = c'.place.seed →
    ∀ k k', c.handed = some k → c'.handed = some k' → k = k'

/-- The paths that the system joins are apart, in whatever directories they are. -/
theorem namesApart_of_join (h : ∀ c ∈ allowed, c.place.join = Path.join) : NamesApart allowed := by
  have hlocation (c : Call) (hc : c ∈ allowed) : c.location =
      c.place.dir.location ++ [name c.place.revision c.place.seed] := by
    rw [Call.location, Place.path, h c hc, location_path]
  intro c hc c' hc' heq
  rw [hlocation c hc, hlocation c' hc'] at heq
  exact (List.cons.inj (List.append_inj' heq rfl).2).1

/-- The caches that belong at a place: those that are handed to the calls whose file is there. -/
def HandedAt (allowed : Set Call) (place : Location) (k : Cache) : Prop :=
  ∀ c ∈ allowed, c.location = place → ∀ k', c.handed = some k' → k = k'

theorem belong_handedAt (hnames : NamesApart allowed) (hcaches : OneCache allowed) :
    Belong allowed (HandedAt allowed) := by
  intro c hc k hk c' hc' hlocation k' hk'
  have hname := hnames c hc c' hc' hlocation.symm
  exact hcaches c hc c' hc' (seed_eq_of_name_eq hname) k k' hk hk'

/-- The file of a client that a call delivered holds the dataset for the client's own cache. -/
theorem Delivered.dag_eq {hown : Belong allowed (HandedAt allowed)} {c : Call} {f : FullClient}
    {files : Disk × Ledger} (h : Delivered H hown (c, f) files) :
    ∃ file path id count, f.storage = .mapped file path (f.size.toNat + 8) ∧
      file.referent = .file id ∧ Dataset.nodeCount f.size.toNat = .ok count ∧
      f.dag files.1 = Dataset.bytes H f.light.cache count.toNat := by
  obtain ⟨hc, hdelivers⟩ := h
  cases c with
  | prepare place size force => exact hdelivers.elim
  | build place size light options =>
    obtain ⟨hlight, hfsize, file, hstorage, id, c, cache, hhas, hmarked, hsize⟩ := hdelivers
    dsimp only at hlight hfsize
    subst hlight hfsize
    obtain ⟨k, count, rfl, hcount, hread⟩ := hhas.sound.complete hmarked
    rw [hsize, Nat.add_sub_cancel] at hcount hread
    refine ⟨file, _, id, count, hstorage, hhas.referent, hcount, ?_⟩
    -- the file was made for the cache that is handed to every call at this place
    have hk : k = f.light.cache :=
      hhas.trusted.owned _ ⟨_, hc, rfl⟩ id hhas.lookup k hhas.ledger _ hc rfl _ rfl
    rw [FullClient.dag_mapped hstorage hhas.referent, hhas.contents, hread, hk]
    rfl

/-- Every client that a call returned has the dataset for its own cache, whether this was generated or
found in a file, and hashes as its light client does. Two things are up to the callers. `NamesApart` is
what is asked of their functions that join paths: no path is that of two names. `Path.join` keeps to it,
as `namesApart_of_join` says. And by `OneCache` they hand in one cache for one seed. -/
theorem returned_clients_hash (H : Hasher) {allowed : Set Call} {start : Disk}
    (hstart : ∀ c ∈ allowed, ∀ id, start.lookup c.location ≠ some (.file id))
    (hnames : NamesApart allowed) (hcaches : OneCache allowed) {s : Session}
    (h : Session.Reachable H allowed start s) :
    ∀ x ∈ s.opened, ∃ count, Dataset.nodeCount x.2.size.toNat = .ok count ∧
      x.2.dag s.files.1 = Dataset.bytes H x.2.light.cache count.toNat ∧
      ∀ header nonce, ∃ hash, x.2.compute H s.files.1 header nonce = .ok (some hash) ∧
        x.2.light.computeWithSize H x.2.size header nonce = .ok hash := by
  intro x hx
  have horderly := h.orderly (belong_handedAt hnames hcaches) hstart
  obtain ⟨file, path, id, count, hstorage, hreferent, hcount, hdag⟩ :=
    (horderly.opened x hx).dag_eq
  refine ⟨count, hcount, hdag, fun header nonce => ?_⟩
  rw [FullClient.compute_mapped hstorage hreferent, hdag]
  exact Hashimoto.full_bytes hcount header nonce

/-- The calls with paths that the system joins, and caches that are built from their seeds. -/
def pageCalls : Set Call := fun c =>
  c.place.join = Path.join ∧
    ∀ k, c.handed = some k → k = .ofSeed .keccak 0 one_lt_size c.place.seed

theorem pageBuild_mem_pageCalls : pageBuild ∈ pageCalls :=
  ⟨rfl, fun _ h => (Option.some.inj h).symm⟩

theorem oneCache_pageCalls : OneCache pageCalls := by
  rintro c ⟨-, hc⟩ c' ⟨-, hc'⟩ hseed k k' hk hk'
  rw [hc k hk, hc' k' hk', hseed]

/-- A call that generates the dataset, for a caller that lets it go on. -/
def pageGenerated : Call.Answer × Surroundings :=
  (pageBuild.program .keccak).run (Surroundings.serveFiles fun _ => .goOn)
    ⟨Disk.scratch "dags", #[], #[]⟩

/-- The same call again, for a caller that would stop a generation. -/
def pageFound : Call.Answer × Surroundings :=
  (pageBuild.program .keccak).run (Surroundings.serveFiles fun _ => .stop) pageGenerated.2

/-- Both calls return a client. These facts stand together so that the first call is run once for
them. -/
theorem isSome_client_pageFound :
    pageGenerated.1.client?.isSome ∧ pageFound.1.client?.isSome ∧
      pageFound.2.reports = pageGenerated.2.reports := by
  decide +kernel

/-- A client whose dataset was generated, and after it is closed one whose dataset was found. -/
theorem returned_clients_hash_page :
    (∀ c ∈ pageCalls, ∀ id, (Disk.scratch "dags").lookup (Call.location c) ≠ some (.file id)) ∧
    NamesApart pageCalls ∧ OneCache pageCalls ∧ pageFound.2.reports = pageGenerated.2.reports ∧
    ∃ files files' f g, pageGenerated.1 = .client (.ok f) ∧ pageFound.1 = .client (.ok g) ∧
      Session.Reachable .keccak pageCalls (Disk.scratch "dags") ⟨files, [], [(pageBuild, f)]⟩ ∧
      Session.Reachable .keccak pageCalls (Disk.scratch "dags") ⟨files', [], [(pageBuild, g)]⟩ ∧
      ∀ header nonce,
        (∃ hash, f.compute .keccak files.1 header nonce = .ok (some hash) ∧
          f.light.computeWithSize .keccak f.size header nonce = .ok hash) ∧
        ∃ hash, g.compute .keccak files'.1 header nonce = .ok (some hash) ∧
          g.light.computeWithSize .keccak g.size header nonce = .ok hash := by
  have hstart : ∀ c ∈ pageCalls, ∀ id,
      (Disk.scratch "dags").lookup (Call.location c) ≠ some (.file id) :=
    fun _ _ => Disk.lookup_scratch _ _
  have hnames : NamesApart pageCalls := namesApart_of_join fun c hc => hc.1
  obtain ⟨hgenerated, hfound, hreports⟩ := isSome_client_pageFound
  obtain ⟨f, hf⟩ := Call.Answer.eq_client hgenerated
  obtain ⟨g, hg⟩ := Call.Answer.eq_client hfound
  obtain ⟨files, hfiles, hopened⟩ := Session.Reachable.start.opens rfl pageBuild_mem_pageCalls
    (by rw [pageGenerated]) hf
  obtain ⟨files', -, hreopened⟩ := (hopened.step (.closes (.refl _))).opens hfiles
    pageBuild_mem_pageCalls (by rw [pageFound]) hg
  refine ⟨hstart, hnames, oneCache_pageCalls, hreports, files, files', f, g, hf, hg, hopened,
    hreopened, ?_⟩
  obtain ⟨-, -, -, hfirst⟩ := returned_clients_hash .keccak hstart hnames oneCache_pageCalls hopened _
    (List.mem_singleton.mpr rfl)
  obtain ⟨-, -, -, hsecond⟩ := returned_clients_hash .keccak hstart hnames oneCache_pageCalls hreopened
    _ (List.mem_singleton.mpr rfl)
  exact fun header nonce => ⟨hfirst header nonce, hsecond header nonce⟩

end DagFile

end ProofOfWork
