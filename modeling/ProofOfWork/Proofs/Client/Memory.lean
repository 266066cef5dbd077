import ProofOfWork.Client.Full
import ProofOfWork.Proofs.Generation.Memory
import ProofOfWork.Proofs.Hashimoto
import ProofOfWork.Surroundings

/-! Clients with a dataset in memory. They hash as the light clients do that they are made from. -/

namespace ProofOfWork

open Program Generation

namespace FullClient

variable {H : Hasher} {count : UInt32}

theorem putNode_eq (d : Contents) (index : UInt32) (node : Node) :
    putNode d index node = d.write (0 + 64 * index.toNat) node.bytes.bytes := by
  rw [Nat.zero_add]
  rfl

theorem views_putNode (count : UInt32) :
    Views count putNode fun memory d => memory = d.read 0 (64 * count.toNat) := by
  rintro _ d index node hindex rfl
  rw [UInt32.lt_iff_toNat_lt] at hindex
  rw [putNode_eq, Contents.read_write_node d node (by omega)]

variable {τ : Type} {W : Serving Caller τ}

theorem keeps_fillMemory (hW : NeverStops W) {size : UInt64}
    (hcount : Dataset.nodeCount size.toNat = .ok count) (c : Cache) (parallel : Bool) (s : τ) :
    Keeps W (fun _ _ => True) (fun answer _ => answer = .ok (Dataset.bytes H c count.toNat))
      (fillMemory H size c parallel) s := by
  have hsize := (Dataset.nodeCount_eq_ok hcount).1
  rw [fillMemory, hcount]
  refine ⟨trivial, fun _ s _ => ?_⟩
  refine (keeps_nodes_of_neverStops hW (views_putNode count) ?_ rfl s parallel).bind ?_
  · rw [Contents.size_read]
  · rintro ⟨_, dataset⟩ s' ⟨rfl, hdataset⟩
    refine ⟨trivial, fun _ _ _ => ?_⟩
    exact congrArg Except.ok (by rw [hsize, ← hdataset])

theorem keeps_inMemoryWithSize (hW : NeverStops W) {size : UInt64}
    (hcount : Dataset.nodeCount size.toNat = .ok count) (light : LightClient) (parallel : Bool)
    (s : τ) :
    Keeps W (fun _ _ => True)
      (fun answer _ =>
        answer = .ok ⟨.memory (Dataset.bytes H light.cache count.toNat), size, light⟩)
      (inMemoryWithSize H size light parallel) s := by
  refine (keeps_fillMemory hW hcount light.cache parallel s).bind ?_
  rintro _ s' rfl
  rfl

theorem compute_memory {size : UInt64} (hcount : Dataset.nodeCount size.toNat = .ok count)
    (light : LightClient) (d : Disk) (header : Hash256) (nonce : UInt64) :
    ∃ h, compute H ⟨.memory (Dataset.bytes H light.cache count.toNat), size, light⟩ d header nonce =
        .ok (some h) ∧
      light.computeWithSize H size header nonce = .ok h :=
  Hashimoto.full_bytes hcount header nonce

/-- Light and full mode agree. A memory of an accepted size, whatever is in it, is filled when the
caller never stops the generation, and every hash over it is then the hash over the cache; and so it
is for a client that is made with its dataset in memory. -/
theorem full_eq_light (H : Hasher) (light : LightClient) {size : UInt64}
    (hcount : Dataset.nodeCount size.toNat = .ok count) (parallel : Bool) {σ : Type}
    (caller : (r : Caller.Request) → StateM σ (Caller.Answer r))
    (hcaller : ∀ percent s, (caller (.report percent) s).1 = .goOn) (s : σ) :
    (∀ memory : ByteArray, memory.size = size.toNat → ∃ memory' s',
      (Dataset.fill H light.cache parallel memory).run (I := Caller) caller s =
        ((.ok (), memory'), s') ∧
      ∀ header nonce, ∃ h, Hashimoto.full H memory' header nonce = .ok (some h) ∧
        Hashimoto.light H light.cache size.toNat header nonce = .ok h) ∧
    ∃ f s', (inMemoryWithSize H size light parallel).run (I := Caller) caller s = (.ok f, s') ∧
      f.light = light ∧
      ∀ d header nonce, ∃ h, f.compute H d header nonce = .ok (some h) ∧
        f.light.computeWithSize H size header nonce = .ok h := by
  have hW : NeverStops (.of (I := Caller) caller) := fun percent s verdict s' h =>
    (congrArg Prod.fst h).symm.trans (hcaller percent s)
  constructor
  · intro memory hmemory
    have hfill := (keeps_fill (H := H) (c := light.cache) hW (hmemory ▸ hcount) s parallel).run
    exact ⟨_, _, Prod.ext hfill rfl, Hashimoto.full_bytes hcount⟩
  · have hclient := (keeps_inMemoryWithSize (H := H) hW hcount light parallel s).run
    exact ⟨_, _, Prod.ext hclient rfl, rfl, compute_memory hcount light⟩

theorem full_eq_light_page :
    Dataset.nodeCount (128 : UInt64).toNat = .ok 2 ∧
    (∀ percent s, (Surroundings.serveCaller (fun _ => .goOn) (.report percent) s).1 = .goOn) ∧
    ∃ f s', (inMemoryWithSize .keccak 128 ⟨.ofSeed .keccak 0 (by decide) .zero, .zero, none⟩
        true).run (I := Caller) (Surroundings.serveCaller fun _ => .goOn) ⟨.scratch "", #[], #[]⟩ =
          (.ok f, s') ∧
      ∀ d header nonce, ∃ h, f.compute .keccak d header nonce = .ok (some h) ∧
        f.light.computeWithSize .keccak 128 header nonce = .ok h := by
  refine ⟨rfl, fun _ _ => rfl, ?_⟩
  have hcount : Dataset.nodeCount (128 : UInt64).toNat = .ok 2 := rfl
  obtain ⟨f, s', hrun, -, hcompute⟩ := (full_eq_light .keccak
    ⟨.ofSeed .keccak 0 (by decide) .zero, .zero, none⟩ hcount true
    (Surroundings.serveCaller fun _ => .goOn) (fun _ _ => rfl) ⟨.scratch "", #[], #[]⟩).2
  exact ⟨f, s', hrun, hcompute⟩

end FullClient

end ProofOfWork
