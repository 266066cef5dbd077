import ProofOfWork.Proofs.Client.Failures
import ProofOfWork.Proofs.Client.Usable
import ProofOfWork.Proofs.Epoch

/-! Clients for the epoch of a block. All that checks a size accepts the sizes for the block, so
that only a block past the last epoch is refused. -/

namespace ProofOfWork

open Program

variable {H : Hasher} {block : UInt64}

theorem Cache.exists_build_cacheSize (H : Hasher) (block : UInt64) (seed : Hash256) :
    ∃ c, build H (Epoch.cacheSize block).toNat seed = .ok c ∧
      c.sizeBytes = (Epoch.cacheSize block).toNat := by
  obtain ⟨n, hcount⟩ := Epoch.exists_nodeCount_cacheSize block
  rw [build, hcount]
  refine ⟨_, rfl, ?_⟩
  rw [sizeBytes_ofSeed, nodeCount_eq_ok hcount]

namespace LightClient

variable {light : LightClient}

theorem epochBlock_eq_ok (h : light.block = some block) : light.epochBlock = .ok block := by
  rw [epochBlock, h]

theorem exists_compute_eq_ok (h : light.block = some block) (header : Hash256) (nonce : UInt64) :
    ∃ hash, light.compute H header nonce = .ok hash := by
  obtain ⟨count, hcount⟩ := Epoch.exists_nodeCount_datasetSize block
  rw [compute, epochBlock_eq_ok h]
  exact ⟨_, Hashimoto.compute_eq_ok hcount header nonce _⟩

/-- A client for a block is only refused if the block is past the last epoch. -/
theorem keeps_ofBlock {σ : Type} {W : Serving Caller σ} (s : σ) :
    Keeps W (fun _ _ => True)
      (fun answer _ => (∃ light, answer = .ok light ∧ light.block = some block) ∨
        ∃ cause, Epoch.check block = .error cause ∧ answer = .error (.invalid cause))
      (ofBlock H block) s := by
  obtain ⟨n, hcount⟩ := Epoch.exists_nodeCount_cacheSize block
  unfold ofBlock
  cases hcheck : Epoch.check block with
  | error cause => exact .inr ⟨cause, rfl, rfl⟩
  | ok epoch =>
    unfold buildCache
    rw [hcount]
    refine ⟨trivial, fun _ _ _ => ⟨trivial, fun _ _ _ => ?_⟩⟩
    exact .inl ⟨_, rfl, rfl⟩

end LightClient

namespace FullClient

variable {light : LightClient} {σ : Type} {s s' : σ} {answer : Except FullError FullClient}

theorem keeps_inMemory_usable {W : Serving Caller σ} (h : light.block = some block)
    (inParallel : Bool) (s : σ) :
    Keeps W (fun _ _ => True)
      (fun answer _ => answer = .error ⟨light, .cancelled⟩ ∨
        ∃ f, answer = .ok f ∧ ∀ d, Usable H (Epoch.datasetSize block) f d)
      (inMemory H light inParallel) s := by
  obtain ⟨count, hcount⟩ := Epoch.exists_nodeCount_datasetSize block
  rw [inMemory, LightClient.epochBlock_eq_ok h]
  exact keeps_inMemoryWithSize_usable hcount light inParallel s

/-- A call for the epoch of a light client lacks a directory, or is a call for the size of its
dataset. -/
theorem ofEpoch_cases (h : light.block = some block) (join : Path → String → Path)
    (defaultDir : Option Path) (options : FullOptions) :
    ofEpoch H join defaultDir light options = .done (.error ⟨light, .noDefaultDirectory⟩) ∨
      ∃ place, ofEpoch H join defaultDir light options =
        inFile H place (Epoch.datasetSize block) light options := by
  rw [ofEpoch, LightClient.epochBlock_eq_ok h]
  cases options.dir.or defaultDir with
  | none => exact .inl rfl
  | some dir => exact .inr ⟨_, rfl⟩

theorem cause?_inFile_ne {W : Serving Files σ} {place : DagFile.Place} {size : UInt64}
    {count : UInt32} {options : FullOptions} (hcount : Dataset.nodeCount size.toNat = .ok count)
    (h : Ends W (inFile H place size light options) s answer s') (cause : Invalid) :
    cause? answer ≠ some (.invalid cause) := by
  intro hcause
  obtain ⟨history, hends⟩ := h.recorded []
  obtain ⟨-, herror⟩ := (keeps_inFile_telling hcount).ends hends
  cases answer with
  | ok f => contradiction
  | error e =>
    have hexplains := (herror e rfl).2
    rw [Option.some.inj hcause] at hexplains
    exact hexplains

end FullClient

namespace Epoch

open DagFile Params

/-- The sizes for a block are what caches and datasets can have, and the search for them ended at a
prime. -/
structure SizesAccepted (H : Hasher) (block : UInt64) : Prop where
  datasetSize_ne : (datasetSize block).toNat ≠ 0
  datasetSize_mod : (datasetSize block).toNat % 128 = 0
  datasetNodes_le : (datasetSize block).toNat / 64 ≤ 2 ^ 32 - 1
  datasetSize_lt : (datasetSize block).toNat < 2 ^ 38
  isPrime_pages : Prime.isPrime ((datasetSize block).toNat / 128) = true
  exists_nodeCount : ∃ count, Dataset.nodeCount (datasetSize block).toNat = .ok count
  exists_compute : ∀ nodes header nonce, ∃ hash,
    Hashimoto.compute H (datasetSize block).toNat nodes header nonce = .ok hash
  cacheSize_lt : (cacheSize block).toNat < 2 ^ 38
  isPrime_nodes : Prime.isPrime ((cacheSize block).toNat / 64) = true
  exists_build : ∀ seed, ∃ c, Cache.build H (cacheSize block).toNat seed = .ok c ∧
    c.sizeBytes = (cacheSize block).toNat

theorem sizesAccepted (H : Hasher) (block : UInt64) : SizesAccepted H block := by
  obtain ⟨count, hcount⟩ := exists_nodeCount_datasetSize block
  obtain ⟨hpos, hpages, hlt⟩ := datasetSize_bounds block
  have hcache := (cacheSize_bounds block).2.2
  constructor
  · omega
  · exact hpages
  · omega
  · exact hlt
  · exact isPrime_datasetSize_div block
  · exact ⟨count, hcount⟩
  · intro nodes header nonce
    exact ⟨_, Hashimoto.compute_eq_ok hcount header nonce nodes⟩
  · omega
  · exact isPrime_cacheSize_div block
  · exact Cache.exists_build_cacheSize H block

/-- No client for a block is refused for a size, and no hash of such a client is. -/
structure NeverRefused (H : Hasher) (block : UInt64) : Prop where
  ofBlock : ∀ (σ : Type) (W : Serving Caller σ) (s s' : σ) (answer : Except Error LightClient),
    Ends W (LightClient.ofBlock H block) s answer s' →
      (∃ light, answer = .ok light ∧ light.block = some block) ∨
        ∃ cause, check block = .error cause ∧ answer = .error (.invalid cause)
  compute : ∀ light : LightClient, light.block = some block → ∀ header nonce, ∃ hash,
    light.compute H header nonce = .ok hash
  inMemory : ∀ light : LightClient, light.block = some block →
    ∀ (σ : Type) (W : Serving Caller σ) (inParallel : Bool) (s s' : σ)
      (answer : Except FullError FullClient),
    Ends W (FullClient.inMemory H light inParallel) s answer s' →
      answer = .error ⟨light, .cancelled⟩ ∨
        ∃ f, answer = .ok f ∧ ∀ d, f.Usable H (datasetSize block) d
  ofEpoch : ∀ light : LightClient, light.block = some block →
    ∀ (σ : Type) (W : Serving Files σ) (join : Path → String → Path) (defaultDir : Option Path)
      (options : FullOptions) (s s' : σ) (answer : Except FullError FullClient),
    Ends W (FullClient.ofEpoch H join defaultDir light options) s answer s' →
      ∀ cause, FullClient.cause? answer ≠ some (.invalid cause)
  usable : ∀ light : LightClient, light.block = some block →
    ∀ (id : Nat) (join : Path → String → Path) (defaultDir : Option Path) (options : FullOptions)
      (d d' : Disk) (f : FullClient),
    Ends (Disk.Lends id) (FullClient.ofEpoch H join defaultDir light options) d (.ok f) d' →
      f.InFile id → ∀ d'', Disk.SameSize id d' d'' → f.Usable H (datasetSize block) d''

theorem neverRefused (H : Hasher) (block : UInt64) : NeverRefused H block := by
  obtain ⟨count, hcount⟩ := exists_nodeCount_datasetSize block
  constructor
  · intro σ W s s' answer h
    exact (LightClient.keeps_ofBlock s).ends h
  · intro light hblock
    exact LightClient.exists_compute_eq_ok hblock
  · intro light hblock σ W inParallel s s' answer h
    exact (FullClient.keeps_inMemory_usable hblock inParallel s).ends h
  · intro light hblock σ W join defaultDir options s s' answer h
    obtain hdone | ⟨place, hinFile⟩ :=
      FullClient.ofEpoch_cases (H := H) hblock join defaultDir options
    · rw [hdone] at h
      cases h
      intro cause hcause
      cases hcause
    · rw [hinFile] at h
      exact FullClient.cause?_inFile_ne hcount h
  · intro light hblock id join defaultDir options d d' f h
    obtain hdone | ⟨place, hinFile⟩ :=
      FullClient.ofEpoch_cases (H := H) hblock join defaultDir options
    · rw [hdone] at h
      cases h
    · rw [hinFile] at h
      exact ((FullClient.keeps_inFile_usable id place light options d).ends h f rfl).2

/-- The sizes for a block are accepted by all that checks them, whatever the block. They never
shrink, and are the same throughout an epoch. The blocks that are refused are those past the last
epoch, and what counts for them is what counts in the last epoch. -/
theorem sizes_agree (H : Hasher) :
    (∀ block, SizesAccepted H block ∧ NeverRefused H block) ∧
    (∀ block block' : UInt64, block ≤ block' →
      cacheSize block ≤ cacheSize block' ∧ datasetSize block ≤ datasetSize block') ∧
    (∀ block block' : UInt64, ofBlock block = ofBlock block' →
      cacheSize block = cacheSize block' ∧ datasetSize block = datasetSize block') ∧
    ∀ block : UInt64,
      ((∃ cause, check block = .error cause) ↔ maxEpoch < (ofBlock block).toNat) ∧
      ((∃ cause, EpochInfo.ofBlock? H block = .error cause) ↔ maxEpoch < (ofBlock block).toNat) ∧
      (maxEpoch < (ofBlock block).toNat → ∀ last, (ofBlock last).toNat = maxEpoch →
        cacheSize block = cacheSize last ∧ datasetSize block = datasetSize last ∧
          seed H block = seed H last) := by
  refine ⟨fun block => ⟨sizesAccepted H block, neverRefused H block⟩, ?_, ?_, fun block => ?_⟩
  · intro block block' h
    exact ⟨cacheSize_mono h, datasetSize_mono h⟩
  · intro block block' h
    have hclamped : clamped block = clamped block' := by rw [clamped, clamped, h]
    exact ⟨(sizes_congr hclamped).1, (sizes_congr hclamped).2.1⟩
  · refine ⟨exists_check_eq_error_iff, ?_, fun hlt last hlast => ?_⟩
    · rw [exists_ofBlock?_eq_error_iff, exists_check_eq_error_iff]
    · have hlast := clamped_eq_of_maxEpoch_le (Nat.le_of_eq hlast.symm)
      have hclamped : clamped block = clamped last := by
        rw [clamped_eq_of_maxEpoch_le (Nat.le_of_lt hlt), hlast]
      obtain ⟨hcache, hdataset, hseed⟩ := sizes_congr hclamped
      exact ⟨hcache, hdataset, hseed H⟩

/-- The first block past the last epoch, and the first block of it. -/
theorem sizes_agree_last :
    (maxEpoch < (ofBlock 979230000).toNat ∧ (ofBlock 979200000).toNat = maxEpoch ∧
      (∃ cause, check 979230000 = .error cause) ∧
      datasetSize 979230000 = datasetSize 979200000 ∧
      seed .keccak 979230000 = seed .keccak 979200000) ∧
    ((0 : UInt64) ≤ 979200000 ∧ datasetSize 0 ≤ datasetSize 979200000) ∧
    (ofBlock 979200000 = ofBlock 979229999 ∧ datasetSize 979200000 = datasetSize 979229999) ∧
    ∃ hash, (⟨pageLight.cache, .zero, some 979230000⟩ : LightClient).compute .keccak .zero 0 =
      .ok hash := by
  obtain ⟨hall, hmono, hsame, hlast⟩ := sizes_agree .keccak
  have hpast : maxEpoch < (ofBlock 979230000).toNat := by decide
  have hepoch : (ofBlock 979200000).toNat = maxEpoch := by decide
  have hle : (0 : UInt64) ≤ 979200000 := by decide
  have hwithin : ofBlock 979200000 = ofBlock 979229999 := by decide
  obtain ⟨hcheck, -, hshares⟩ := hlast 979230000
  obtain ⟨-, hdataset, hseed⟩ := hshares hpast 979200000 hepoch
  exact ⟨⟨hpast, hepoch, hcheck.mpr hpast, hdataset, hseed⟩, ⟨hle, (hmono _ _ hle).2⟩,
    ⟨hwithin, (hsame _ _ hwithin).2⟩, (hall 979230000).2.compute _ rfl _ _⟩

end Epoch

end ProofOfWork
