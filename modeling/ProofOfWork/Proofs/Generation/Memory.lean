import ProofOfWork.Proofs.Dataset.Bytes
import ProofOfWork.Proofs.Generation.Parallel

/-! Generations whose nodes go into a memory: what the memory holds then, node by node, and what the
caller has heard. -/

namespace ProofOfWork.Generation

open Program
open Hashimoto (nodeAt?)
open Dataset (setNode)

section

variable {H : Hasher} {c : Cache} {count : UInt32} {memory : ByteArray}

theorem size_foldr_setNode (written : List UInt32) :
    (written.foldr (fun index memory => setNode memory index (Dataset.item H c index)) memory).size =
      memory.size := by
  induction written with
  | nil => rfl
  | cons index written ih => rw [List.foldr_cons, Dataset.size_setNode, ih]

/-- Nodes that were written are those of the dataset, and all others are as they were. -/
theorem nodeAt?_foldr_setNode (hsize : memory.size = 64 * count.toNat) (written : List UInt32)
    (hrange : ∀ index ∈ written, index < count) (index : UInt32) :
    nodeAt? (written.foldr (fun index memory => setNode memory index (Dataset.item H c index)) memory)
      index = if index ∈ written then some (Dataset.item H c index) else nodeAt? memory index := by
  induction written with
  | nil => simp
  | cons first written ih =>
    obtain ⟨hfirst, hrest⟩ := List.forall_mem_cons.mp hrange
    rw [List.foldr_cons]
    by_cases h : index = first
    · subst h
      rw [UInt32.lt_iff_toNat_lt] at hfirst
      rw [Dataset.nodeAt?_setNode _ (by rw [size_foldr_setNode, hsize]; omega),
        if_pos List.mem_cons_self]
    · rw [Dataset.nodeAt?_setNode_ne _ _ _ h, ih hrest]
      simp only [List.mem_cons, h, false_or]

variable {m : Record ByteArray}

theorem Record.Made.size_memory (hm : m.Made H c count setNode memory) :
    m.memory.size = memory.size := by
  rw [hm.memory_eq, size_foldr_setNode]

theorem Record.Made.nodeAt? (hm : m.Made H c count setNode memory)
    (hsize : memory.size = 64 * count.toNat) (index : UInt32) :
    nodeAt? m.memory index =
      if index ∈ m.written then some (Dataset.item H c index) else nodeAt? memory index := by
  rw [hm.memory_eq]
  exact nodeAt?_foldr_setNode hsize m.written hm.inRange index

theorem Record.Made.eq_bytes (hm : m.Made H c count setNode memory)
    (hsize : memory.size = 64 * count.toNat) (hall : ∀ index < count, index ∈ m.written) :
    m.memory = Dataset.bytes H c count.toNat := by
  refine Dataset.eq_bytes (hm.size_memory.trans hsize) fun index hindex => ?_
  rw [hm.nodeAt? hsize, if_pos (hall index hindex)]

end

/-! ### Callers -/

/-- The caller of a generation hears the reports in the record, and what `Heard` says of the calls
goes with its states. -/
structure Hears {τ : Type} (count : UInt32) (W : Serving Caller τ)
    (Heard : List (UInt32 × Verdict) → τ → Prop) : Prop where
  report : ∀ {node calls s verdict s'}, Heard calls s →
    W (.report (Dataset.percent node count)) s verdict s' → Heard ((node, verdict) :: calls) s'
  log : ∀ {calls s event s'}, Heard calls s → W (.log event) s () s' → Heard calls s'
  pick : ∀ {calls s others k s'}, Heard calls s → W (.pick others) s k s' → Heard calls s'

/-- A node that `put` keeps is seen in the bytes of a memory of some kind. -/
def Views {ρ : Type} (count : UInt32) (put : ρ → UInt32 → Node → ρ)
    (View : ByteArray → ρ → Prop) : Prop :=
  ∀ memory kept index node, index < count → View memory kept →
    View (setNode memory index node) (put kept index node)

section

variable {ρ τ : Type} {H : Hasher} {c : Cache} {count : UInt32} {W : Serving Caller τ}
  {Heard : List (UInt32 × Verdict) → τ → Prop} {put : ρ → UInt32 → Node → ρ}
  {View : ByteArray → ρ → Prop}

/-- The surroundings of a generation whose nodes `put` keeps. -/
abbrev Keeping (put : ρ → UInt32 → Node → ρ) (W : Serving Caller τ) : Serving Generation (ρ × τ) :=
  fun r s a s' => Ends W (Dataset.keepBy put r s.1) s.2 (a, s'.1) s'.2

theorem follows_keeping (hears : Hears count W Heard)
    (hview : Views count put View) :
    Follows H c count setNode (Keeping put W) (fun _ _ => True)
      fun m s => View m.memory s.1 ∧ Heard m.calls s.2 := by
  intro node r m ⟨kept, s⟩ hlegal ⟨hmemory, hheard⟩
  refine ⟨trivial, ?_⟩
  rintro a ⟨kept', s'⟩ he
  rcases r with (percent | event | others) | ⟨index, n⟩
  · obtain rfl : percent = _ := hlegal
    cases he with
    | ask hW he => cases he with | refl => exact ⟨hmemory, hears.report hheard hW⟩
  · cases he with
    | ask hW he => cases he with | refl => exact ⟨hmemory, hears.log hheard hW⟩
  · cases he with
    | ask hW he => cases he with | refl => exact ⟨hmemory, hears.pick hheard hW⟩
  · cases he with
    | refl => exact ⟨hview _ _ index n hlegal.1 hmemory, hheard⟩

/-- What is kept with the nodes is kept by the run that keeps the nodes. -/
theorem keeps_keepBy {α : Type} {p : Program Generation α} {kept : ρ} {s : τ}
    {Q : α → ρ × τ → Prop} (h : Keeps (Keeping put W) (fun _ _ => True) Q p (kept, s)) :
    Keeps W (fun _ _ => True) (fun x s' => Q x.1 (x.2, s')) (p.run (Dataset.keepBy put) kept) s :=
  Keeps.throughState (P := fun _ _ => True) (fun _ _ _ _ => keeps_trivial _ _) h

/-- A generation into a memory ends as a record tells that follows the memory and the caller. -/
theorem keeps_nodes_keepBy (hears : Hears count W Heard) (hview : Views count put View)
    {memory : ByteArray} {kept : ρ} {s : τ} (hkept : View memory kept) (hs : Heard [] s)
    (inParallel : Bool) :
    Keeps W (fun _ _ => True)
      (fun x s' => ∃ m : Record ByteArray, View m.memory x.2 ∧ Heard m.calls s' ∧
        m.Made H c count setNode memory ∧ m.Tells count x.1)
      ((nodes H c inParallel count).run (Dataset.keepBy put) kept) s := by
  have F := (follows_keeping (H := H) (c := c) hears hview).made memory
  refine (keeps_keepBy (keeps_nodes memory F inParallel ?_)).mono (fun _ _ h => h) ?_
  · exact ⟨⟨hkept, hs⟩, .start memory⟩
  · rintro x s' ⟨m, ⟨⟨hmemory, hheard⟩, hmade⟩, htells⟩
    exact ⟨m, hmemory, hheard, hmade, htells⟩

/-- The caller never answers a report with a stop. -/
def NeverStops (W : Serving Caller τ) : Prop :=
  ∀ percent s verdict s', W (.report percent) s verdict s' → verdict = .goOn

/-- With a caller that never stops it, a generation leaves the dataset, whatever was there before. -/
theorem keeps_nodes_of_neverStops (hW : NeverStops W) (hview : Views count put View)
    {memory : ByteArray} (hsize : memory.size = 64 * count.toNat) {kept : ρ}
    (hkept : View memory kept) (s : τ) (inParallel : Bool) :
    Keeps W (fun _ _ => True)
      (fun x _ => x.1 = .finished ∧ View (Dataset.bytes H c count.toNat) x.2)
      ((nodes H c inParallel count).run (Dataset.keepBy put) kept) s := by
  have hears : Hears count W fun calls _ => ∀ call ∈ calls, call.2 = .goOn := by
    refine ⟨fun hcalls hs => ?_, fun hcalls _ => hcalls, fun hcalls _ => hcalls⟩
    exact List.forall_mem_cons.mpr ⟨hW _ _ _ _ hs, hcalls⟩
  have hstart : ∀ call ∈ ([] : List (UInt32 × Verdict)), call.2 = .goOn := List.forall_mem_nil _
  refine (keeps_nodes_keepBy hears hview hkept hstart inParallel (s := s)).mono (fun _ _ h => h) ?_
  rintro ⟨outcome, kept'⟩ s' ⟨m, hmemory, hcalls, hmade, htells⟩
  have hfinished := htells.eq_finished hcalls
  refine ⟨hfinished, ?_⟩
  rw [← hmade.eq_bytes hsize (htells.finished hfinished)]
  exact hmemory

theorem views_setNode (count : UInt32) : Views count setNode Eq :=
  fun _ _ index node _ h => congrArg (setNode · index node) h

theorem keeps_fill (hW : NeverStops W) {memory : ByteArray}
    (hcount : Dataset.nodeCount memory.size = .ok count) (s : τ) (inParallel : Bool) :
    Keeps W (fun _ _ => True) (fun x _ => x = (.ok (), Dataset.bytes H c count.toNat))
      (Dataset.fill H c inParallel memory) s := by
  have hsize := (Dataset.nodeCount_eq_ok hcount).1
  rw [Dataset.fill, hcount]
  refine (keeps_nodes_of_neverStops hW (views_setNode count) hsize rfl s inParallel).bind ?_
  rintro ⟨_, memory'⟩ s' ⟨rfl, rfl⟩
  rfl

end

end ProofOfWork.Generation
