import ProofOfWork.Dataset.Generation
import ProofOfWork.Proofs.Serving

/-! A record of what a generation does: the calls to its caller and the nodes that it writes. What is
proved with the record holds in all surroundings that follow it: a memory, a file, or a caller with a
state of its own. -/

namespace ProofOfWork.Generation

open Program Caller

/-- What a generation has done so far, with a memory of some kind to which its nodes are written. -/
structure Record (σ : Type) where
  memory : σ
  /-- The calls to the caller, the latest first: the node that was next, and the answer. -/
  calls : List (UInt32 × Verdict)
  /-- The nodes that were written, the latest first. -/
  written : List UInt32

variable {σ τ : Type} (H : Hasher) (c : Cache) (count : UInt32) (put : σ → UInt32 → Node → σ)

/-- The record of a generation that has done nothing yet. -/
def Record.start (memory : σ) : Record σ := ⟨memory, [], []⟩

/-- The record after a request that is made when `node` is the next node. -/
def Record.after (node : UInt32) (m : Record σ) :
    (r : Generation.Request) → Generation.Answer r → Record σ
  | .caller (.report _), verdict => { m with calls := (node, verdict) :: m.calls }
  | .caller (.log _), _ => m
  | .caller (.pick _), _ => m
  | .store index n, _ =>
    { m with memory := put m.memory index n, written := index :: m.written }

/-- The requests of a generation of `count` nodes when `node` is the next node: a report tells the
percentage of that node, and a node is only written to its own place. -/
def Legal (node : UInt32) : Generation.Request → Prop
  | .caller (.report percent) => percent = Dataset.percent node count
  | .caller (.log _) => True
  | .caller (.pick _) => True
  | .store index n => index < count ∧ n = Dataset.item H c index

/-- A memory is what the nodes that were written made of the memory at the start. -/
structure Record.Made (memory : σ) (m : Record σ) : Prop where
  memory_eq : m.memory =
    m.written.foldr (fun index memory => put memory index (Dataset.item H c index)) memory
  inRange : ∀ index ∈ m.written, index < count

/-- Surroundings `W` follow the record: a state that matches a record accepts the requests of the
generation, and comes to match the record after each of them. -/
def Follows (W : Serving Generation τ) (P : Generation.Request → τ → Prop)
    (Match : Record σ → τ → Prop) : Prop :=
  ∀ node r m s, Legal H c count node r → Match m s →
    P r s ∧ ∀ a s', W r s a s' → Match (m.after put node r a) s'

/-- The record tells how a generation ended: with a stop when the caller asked for one, and with all
nodes written otherwise. -/
structure Record.Tells (m : Record σ) (outcome : Outcome) : Prop where
  cancelled : outcome = .cancelled ↔ ∃ node, (node, Verdict.stop) ∈ m.calls
  finished : outcome = .finished → ∀ index < count, index ∈ m.written

theorem Record.Tells.eq_finished {count : UInt32} {m : Record σ} {outcome : Outcome}
    (h : m.Tells count outcome) (hcalls : ∀ call ∈ m.calls, call.2 = .goOn) :
    outcome = .finished := by
  cases outcome with
  | finished => rfl
  | cancelled =>
    obtain ⟨node, hnode⟩ := h.cancelled.mp rfl
    have hgoOn := hcalls _ hnode
    contradiction

section

variable {H c count put} {W : Serving Generation τ} {P : Generation.Request → τ → Prop}
  {Match : Record σ → τ → Prop}

theorem Record.Made.start (memory : σ) : (Record.start memory).Made H c count put memory :=
  ⟨rfl, List.forall_mem_nil _⟩

theorem Legal.made {memory : σ} {node : UInt32} {r : Generation.Request}
    (h : Legal H c count node r) {m : Record σ} (hm : m.Made H c count put memory)
    (a : Generation.Answer r) : (m.after put node r a).Made H c count put memory := by
  rcases r with (_ | _ | _) | ⟨index, n⟩
  · exact ⟨hm.memory_eq, hm.inRange⟩
  · exact hm
  · exact hm
  · obtain ⟨hindex, rfl⟩ := h
    exact ⟨congrArg (put · index (Dataset.item H c index)) hm.memory_eq,
      List.forall_mem_cons.mpr ⟨hindex, hm.inRange⟩⟩

theorem Follows.made (F : Follows H c count put W P Match) (memory : σ) :
    Follows H c count put W P fun m s => Match m s ∧ m.Made H c count put memory := by
  intro node r m s hlegal ⟨hm, hmade⟩
  obtain ⟨hP, hW⟩ := F node r m s hlegal hm
  exact ⟨hP, fun a s' hs => ⟨hW a s' hs, hlegal.made hmade a⟩⟩

theorem toNat_succ {n k : UInt32} (h : n.toNat < k.toNat) :
    (n + 1).toNat = n.toNat + 1 := by
  have := k.toNat_lt
  rw [UInt32.toNat_add, show (1 : UInt32).toNat = 1 from rfl, Nat.mod_eq_of_lt (by omega)]

end

end ProofOfWork.Generation
