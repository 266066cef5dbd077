import Mathlib.Data.List.Perm.Basic
import ProofOfWork.Proofs.Generation.Record

/-! A generation by several workers. `Crew` is its state between two steps, `Crew.Reachable` takes in
all orders of steps and all answers of the caller, and `Holds` is what is true in every state that is
reached. The program for several workers is followed step by step by a crew. -/

namespace ProofOfWork.Generation

open Program Caller

/-- Several workers on their way, and what they have done so far. -/
structure Crew (σ : Type) where
  team : List Worker
  stopped : Bool
  record : Record σ

variable {σ τ : Type} (H : Hasher) (c : Cache) (count : UInt32) (put : σ → UInt32 → Node → σ)

/-- What is noted in the record while a worker at `node` takes a step. -/
def Record.noting (node : UInt32) : Serving Generation (Record σ) :=
  fun r m a m' => m' = m.after put node r a

/-- The workers after worker `k` has taken a step that leaves `left` of it. -/
def Crew.replace (team : List Worker) (k : Nat) : (left : Option Worker) → List Worker
  | some w => team.set k w
  | none => team.eraseIdx k

/-- One worker takes one step. -/
inductive Crew.Step : Crew σ → Crew σ → Prop
  | intro (crew : Crew σ) (k : Fin crew.team.length) {left : Option Worker} {stopped : Bool}
      {record : Record σ} :
      Ends (Record.noting put (crew.team.get k).next)
        ((crew.team.get k).advance H c count crew.stopped) crew.record (left, stopped) record →
      Step crew ⟨replace crew.team k left, stopped, record⟩

/-- The crew that sets out to generate `count` nodes. -/
def Crew.start (memory : σ) : Crew σ :=
  ⟨workers count (Dataset.reportStep count), false, .start memory⟩

/-- The states that a crew comes to. -/
inductive Crew.Reachable (memory : σ) : Crew σ → Prop
  | start : Reachable memory (.start count memory)
  | step {crew crew' : Crew σ} :
      Reachable memory crew → Step H c count put crew crew' → Reachable memory crew'

/-! ### Chunks -/

/-- A node with which a chunk starts. -/
def StartsChunk (first : UInt32) : Prop :=
  first < count ∧ first.toNat % (Dataset.reportStep count).toNat = 0

/-- A node of the chunk that starts with `first`. -/
def InChunk (first index : UInt32) : Prop :=
  first ≤ index ∧ index < count ∧ index.toNat < first.toNat + (Dataset.reportStep count).toNat

/-- A node that a worker has yet to write. -/
def Worker.Has (w : Worker) (index : UInt32) : Prop :=
  w.next.toNat ≤ index.toNat ∧ index.toNat < w.next.toNat + w.remaining

/-- A worker that has not yet called the caller. -/
def Worker.Fresh (w : Worker) : Prop := w.stage = .starting ∨ w.stage = .reporting

/-- The nodes are shared between the record and the workers: each is written, or some worker has yet
to write it, and no two of these hold. Only when the generation is stopped are nodes given up. -/
structure Shared (team : List Worker) (stopped : Bool) (m : Record σ) : Prop where
  inRange : ∀ w ∈ team, 0 < w.remaining ∧ w.next.toNat + w.remaining ≤ count.toNat
  apart : team.Pairwise fun v w => ∀ index, v.Has index → ¬w.Has index
  writtenOnce : m.written.Nodup
  writtenLeft : ∀ w ∈ team, ∀ index ∈ m.written, ¬w.Has index
  covered : stopped = false → ∀ index < count, index ∈ m.written ∨ ∃ w ∈ team, w.Has index

/-- The caller is called at most once for a chunk, and a stop that it answers is never lost. -/
structure Heard (team : List Worker) (stopped : Bool) (m : Record σ) : Prop where
  fresh : ∀ w ∈ team, w.Fresh → StartsChunk count w.next ∧
    (∀ index, InChunk count w.next index → w.Has index) ∧ ∀ verdict, (w.next, verdict) ∉ m.calls
  calledOnce : (m.calls.map Prod.fst).Nodup
  calledAtStart : ∀ call ∈ m.calls, StartsChunk count call.1
  halted : ∀ first, (first, Verdict.stop) ∈ m.calls → ∀ index, InChunk count first index →
    index ∉ m.written ∧ ∀ w ∈ team, w.Has index → w.stage = .stopping
  broken : (∃ first, (first, Verdict.stop) ∈ m.calls) ↔
    stopped = true ∨ ∃ w ∈ team, w.stage = .stopping

/-- What is true of a team, of the mark that tells it to stop, and of its record, whatever the order
of its steps was. -/
structure Holds (team : List Worker) (stopped : Bool) (m : Record σ) : Prop where
  shared : Shared count team stopped m
  heard : Heard count team stopped m

section Steps

variable {H c count put} {team others : List Worker} {stopped : Bool} {m : Record σ} {w : Worker}

/-- The order of the workers plays no part. -/
theorem Holds.perm (h : Holds count team stopped m) {team' : List Worker} (hp : team.Perm team') :
    Holds count team' stopped m := by
  obtain ⟨hs, hh⟩ := h
  have hmem {v : Worker} : v ∈ team ↔ v ∈ team' := hp.mem_iff
  constructor
  · refine ⟨?_, ?_, hs.writtenOnce, ?_, ?_⟩
    · simpa only [hmem] using hs.inRange
    · exact hp.pairwise hs.apart fun hvw index hw hv => hvw index hv hw
    · simpa only [hmem] using hs.writtenLeft
    · simpa only [hmem] using hs.covered
  · refine ⟨?_, hh.calledOnce, hh.calledAtStart, ?_, ?_⟩
    · simpa only [hmem] using hh.fresh
    · simpa only [hmem] using hh.halted
    · simpa only [hmem] using hh.broken

/-- The stage of a worker plays no part in what it has yet to write, nor do calls. -/
theorem Shared.restage (h : Shared count (w :: others) stopped m) (stage : Stage)
    (calls : List (UInt32 × Verdict)) :
    Shared count ({ w with stage } :: others) stopped { m with calls } := by
  have hw : Worker.Has { w with stage } = w.Has := rfl
  refine ⟨?_, ?_, h.writtenOnce, ?_, ?_⟩
  · simpa only [List.forall_mem_cons] using h.inRange
  · simpa only [List.pairwise_cons, hw] using h.apart
  · simpa only [List.forall_mem_cons, hw] using h.writtenLeft
  · simpa only [List.mem_cons, exists_eq_or_imp, hw] using h.covered

theorem Holds.keep (h : Holds count (w :: others) stopped m) {stage : Stage}
    (hw : w.stage ≠ .stopping) (hs : stage ≠ .stopping)
    (hfresh : stage = .starting ∨ stage = .reporting → w.Fresh) :
    Holds count ({ w with stage } :: others) stopped m := by
  obtain ⟨hshared, hh⟩ := h
  refine ⟨hshared.restage stage m.calls, ?_, hh.calledOnce, hh.calledAtStart, ?_, ?_⟩
  · obtain ⟨hfirst, hrest⟩ := List.forall_mem_cons.mp hh.fresh
    exact List.forall_mem_cons.mpr ⟨fun hv => hfirst (hfresh hv), hrest⟩
  · intro first hf index hi
    obtain ⟨hnot, hall⟩ := hh.halted first hf index hi
    obtain ⟨hfirst, hrest⟩ := List.forall_mem_cons.mp hall
    exact ⟨hnot, List.forall_mem_cons.mpr ⟨fun hv => absurd (hfirst hv) hw, hrest⟩⟩
  · rw [hh.broken]
    simp only [List.mem_cons, exists_eq_or_imp, hw, hs, false_or]

theorem Holds.leave (h : Holds count (w :: others) stopped m)
    (hw : stopped = true ∨ w.stage = .stopping) : Holds count others true m := by
  obtain ⟨hs, hh⟩ := h
  constructor
  · refine ⟨?_, hs.apart.of_cons, hs.writtenOnce, ?_, fun h => by contradiction⟩
    · exact (List.forall_mem_cons.mp hs.inRange).2
    · exact (List.forall_mem_cons.mp hs.writtenLeft).2
  · refine ⟨(List.forall_mem_cons.mp hh.fresh).2, hh.calledOnce, hh.calledAtStart, ?_, ?_⟩
    · intro first hf index hi
      obtain ⟨hnot, hall⟩ := hh.halted first hf index hi
      exact ⟨hnot, (List.forall_mem_cons.mp hall).2⟩
    · refine ⟨fun _ => .inl rfl, fun _ => hh.broken.mpr ?_⟩
      rcases hw with hw | hw
      · exact .inl hw
      · exact .inr ⟨w, List.mem_cons_self, hw⟩

/-- The answer to a call is noted, and the worker goes on or is about to stop the others. -/
theorem Holds.answer (h : Holds count (w :: others) stopped m) (hw : w.stage = .reporting)
    {verdict : Verdict} {stage : Stage} (hstage : ¬Worker.Fresh { w with stage })
    (hverdict : verdict = .stop ↔ stage = .stopping) :
    Holds count ({ w with stage } :: others) stopped
      { m with calls := (w.next, verdict) :: m.calls } := by
  obtain ⟨hs, hh⟩ := h
  obtain ⟨hstart, hchunk, hnew⟩ := hh.fresh w List.mem_cons_self (.inr hw)
  have hpos := (hs.inRange w List.mem_cons_self).1
  have hapart := (List.pairwise_cons.mp hs.apart).1
  have hnext : w.Has w.next := ⟨Nat.le_refl _, by omega⟩
  refine ⟨hs.restage stage _, ?_, ?_, ?_, ?_, ?_⟩
  · refine List.forall_mem_cons.mpr ⟨fun hv => absurd hv hstage, fun v hv hfresh => ?_⟩
    obtain ⟨hvstart, hvchunk, hvnew⟩ := hh.fresh v (List.mem_cons_of_mem _ hv) hfresh
    refine ⟨hvstart, hvchunk, fun verdict' hmem => ?_⟩
    rcases List.mem_cons.mp hmem with heq | hmem
    · -- two workers that are at one node would both have it
      have hvpos := (hs.inRange v (List.mem_cons_of_mem _ hv)).1
      have hsame : v.next = w.next := congrArg Prod.fst heq
      exact hapart v hv w.next hnext (hsame ▸ ⟨Nat.le_refl _, by omega⟩)
    · exact hvnew verdict' hmem
  · refine List.nodup_cons.mpr ⟨fun hmem => ?_, hh.calledOnce⟩
    obtain ⟨⟨first, verdict'⟩, hcall, hfirst⟩ := List.mem_map.mp hmem
    obtain rfl : first = w.next := hfirst
    exact hnew verdict' hcall
  · exact List.forall_mem_cons.mpr ⟨hstart, hh.calledAtStart⟩
  · intro first hf index hi
    rcases List.mem_cons.mp hf with heq | hf
    · -- the chunk that was stopped is what this worker has, and nobody else
      obtain ⟨rfl, rfl⟩ := Prod.mk.inj heq
      have hhas := hchunk index hi
      refine ⟨fun hmem => hs.writtenLeft w List.mem_cons_self index hmem hhas, ?_⟩
      exact List.forall_mem_cons.mpr ⟨fun _ => hverdict.mp rfl,
        fun v hv hvi => absurd hvi (hapart v hv index hhas)⟩
    · obtain ⟨hnot, hall⟩ := hh.halted first hf index hi
      obtain ⟨hfirst, hrest⟩ := List.forall_mem_cons.mp hall
      refine ⟨hnot, List.forall_mem_cons.mpr ⟨fun hv => ?_, hrest⟩⟩
      have := hfirst hv
      rw [hw] at this
      contradiction
  · have hbroken := hh.broken
    simp only [List.mem_cons, exists_eq_or_imp, hw, reduceCtorEq, false_or] at hbroken
    simp only [List.mem_cons, exists_eq_or_imp, Prod.mk.injEq]
    by_cases hv : verdict = .stop
    · exact ⟨fun _ => .inr (.inl (hverdict.mp hv)), fun _ => ⟨w.next, .inl ⟨rfl, hv.symm⟩⟩⟩
    · have hne : ¬Verdict.stop = verdict := fun h => hv h.symm
      have hstop : ¬stage = .stopping := fun h => hv (hverdict.mpr h)
      simp only [hne, hstop, and_false, false_or]
      exact hbroken

/-- What is left of a worker once its next node is written. -/
structure Worker.Rest (count : UInt32) (w : Worker) (left : Option Worker) : Prop where
  checking : ∀ v ∈ left, v.stage = .checking
  inRange : ∀ v ∈ left, 0 < v.remaining ∧ v.next.toNat + v.remaining ≤ count.toNat
  has_iff : ∀ index, w.Has index ↔ index = w.next ∨ ∃ v ∈ left, v.Has index
  not_next : ∀ v ∈ left, ¬v.Has w.next

section

variable {left : Option Worker} (hrest : w.Rest count left)

include hrest

theorem Worker.Rest.has_next : w.Has w.next := (hrest.has_iff w.next).mpr (.inl rfl)

theorem Worker.Rest.has {v : Worker} (hv : v ∈ left) {index : UInt32} (hi : v.Has index) :
    w.Has index := (hrest.has_iff index).mpr (.inr ⟨v, hv, hi⟩)

omit hrest in
theorem mem_left_or {v : Worker} : v ∈ left.toList ++ others ↔ v ∈ left ∨ v ∈ others := by
  rw [List.mem_append, Option.mem_toList, Option.mem_def]

theorem Shared.write (h : Shared count (w :: others) stopped m) (memory : σ) :
    Shared count (left.toList ++ others) stopped { m with memory, written := w.next :: m.written } := by
  obtain ⟨hapart, hothers⟩ := List.pairwise_cons.mp h.apart
  refine ⟨?_, ?_, ?_, ?_, ?_⟩
  · intro v hv
    rcases mem_left_or.mp hv with hv | hv
    · exact hrest.inRange v hv
    · exact h.inRange v (List.mem_cons_of_mem _ hv)
  · refine List.pairwise_append.mpr ⟨?_, hothers, fun v hv v' hv' index hi => ?_⟩
    · cases left <;> simp
    · exact hapart v' hv' index (hrest.has (Option.mem_toList.mp hv) hi)
  · refine List.nodup_cons.mpr ⟨fun hin => ?_, h.writtenOnce⟩
    exact h.writtenLeft w List.mem_cons_self _ hin hrest.has_next
  · intro v hv index hin hi
    rcases mem_left_or.mp hv with hv | hv <;> rcases List.mem_cons.mp hin with rfl | hin
    · exact hrest.not_next v hv hi
    · exact h.writtenLeft w List.mem_cons_self index hin (hrest.has hv hi)
    · exact hapart v hv _ hrest.has_next hi
    · exact h.writtenLeft v (List.mem_cons_of_mem _ hv) index hin hi
  · intro hstopped index hi
    rcases h.covered hstopped index hi with hin | ⟨v, hv, hvi⟩
    · exact .inl (List.mem_cons_of_mem _ hin)
    rcases List.mem_cons.mp hv with rfl | hv
    · rcases (hrest.has_iff index).mp hvi with rfl | ⟨v', hv', hvi'⟩
      · exact .inl List.mem_cons_self
      · exact .inr ⟨v', mem_left_or.mpr (.inl hv'), hvi'⟩
    · exact .inr ⟨v, mem_left_or.mpr (.inr hv), hvi⟩

theorem Heard.write (h : Heard count (w :: others) stopped m) (hw : w.stage = .writing)
    (memory : σ) :
    Heard count (left.toList ++ others) stopped { m with memory, written := w.next :: m.written } := by
  refine ⟨?_, h.calledOnce, h.calledAtStart, ?_, ?_⟩
  · intro v hv hfresh
    rcases mem_left_or.mp hv with hv | hv
    · have hchecking := hrest.checking v hv
      rcases hfresh with hf | hf <;> rw [hchecking] at hf <;> contradiction
    · exact h.fresh v (List.mem_cons_of_mem _ hv) hfresh
  · intro first hf index hi
    obtain ⟨hnot, hall⟩ := h.halted first hf index hi
    have hwhas : ¬w.Has index := fun hwi => by
      have hstage := hall w List.mem_cons_self hwi
      rw [hw] at hstage
      contradiction
    refine ⟨fun hin => ?_, fun v hv hvi => ?_⟩
    · rcases List.mem_cons.mp hin with rfl | hin
      · exact hwhas hrest.has_next
      · exact hnot hin
    · rcases mem_left_or.mp hv with hv | hv
      · exact absurd (hrest.has hv hvi) hwhas
      · exact hall v (List.mem_cons_of_mem _ hv) hvi
  · have hbroken := h.broken
    simp only [List.mem_cons, exists_eq_or_imp, hw, reduceCtorEq, false_or] at hbroken
    rw [hbroken]
    refine or_congr_right ⟨fun ⟨v, hv, hst⟩ => ⟨v, mem_left_or.mpr (.inr hv), hst⟩, ?_⟩
    rintro ⟨v, hv, hst⟩
    rcases mem_left_or.mp hv with hv | hv
    · rw [hrest.checking v hv] at hst
      contradiction
    · exact ⟨v, hv, hst⟩

theorem Holds.write (h : Holds count (w :: others) stopped m) (hw : w.stage = .writing)
    (memory : σ) :
    Holds count (left.toList ++ others) stopped { m with memory, written := w.next :: m.written } :=
  ⟨h.shared.write hrest memory, h.heard.write hrest hw memory⟩

end

/-- The last node of a chunk leaves nothing of its worker. -/
theorem Worker.rest_none (hpos : 0 < w.remaining) (hlast : w.remaining ≤ 1) : w.Rest count none := by
  refine ⟨by simp, by simp, fun index => ?_, by simp⟩
  simp only [Worker.Has, Option.not_mem_none, false_and, exists_false, or_false,
    ← UInt32.toNat_inj]
  omega

theorem Worker.rest_some (hrange : w.next.toNat + w.remaining ≤ count.toNat)
    (hmore : 1 < w.remaining) :
    w.Rest count (some ⟨.checking, w.next + 1, w.remaining - 1⟩) := by
  have hsucc := toNat_succ (n := w.next) (k := count) (by omega)
  constructor
  · simp only [Option.mem_some_iff, forall_eq']
  · simp only [Option.mem_some_iff, forall_eq', hsucc]
    omega
  · intro index
    simp only [Option.mem_some_iff, exists_eq_left', Worker.Has, hsucc, ← UInt32.toNat_inj]
    omega
  · simp only [Option.mem_some_iff, forall_eq', Worker.Has, hsucc]
    omega

variable (H c put) in
/-- A step of a worker, whatever the answer to its request is: it makes legal requests only, and
leaves true what is true of all workers. -/
theorem Holds.advance (h : Holds count (w :: others) stopped m) :
    Keeps (Record.noting put w.next) (fun r _ => Legal H c count w.next r)
      (fun x m' => Holds count (x.1.toList ++ others) x.2 m') (w.advance H c count stopped) m := by
  have hrange := h.shared.inRange w List.mem_cons_self
  rw [Worker.advance]
  split
  case h_1 hw =>
    cases stopped with
    | true => exact h.leave (.inl rfl)
    | false => exact h.keep (by rw [hw]; decide) (by decide) fun _ => .inl hw
  case h_2 hw =>
    refine ⟨rfl, ?_⟩
    rintro verdict _ rfl
    cases verdict with
    | goOn => exact h.answer hw (by simp [Worker.Fresh]) (by simp)
    | stop => exact h.answer hw (by simp [Worker.Fresh]) (by simp)
  case h_3 hw => exact h.leave (.inr hw)
  case h_4 hw =>
    cases stopped with
    | true => exact h.leave (.inl rfl)
    | false => exact h.keep (by rw [hw]; decide) (by decide) (by simp)
  case h_5 hw =>
    have hlt : w.next < count := by rw [UInt32.lt_iff_toNat_lt]; omega
    refine ⟨⟨hlt, rfl⟩, ?_⟩
    rintro _ _ rfl
    show Keeps _ _ _ (if w.remaining ≤ 1 then .done (none, stopped)
      else .done (some (Worker.mk .checking (w.next + 1) (w.remaining - 1)), stopped)) _
    by_cases hlast : w.remaining ≤ 1
    · rw [if_pos hlast]
      exact h.write (Worker.rest_none hrange.1 hlast) hw _
    · rw [if_neg hlast]
      exact h.write (Worker.rest_some hrange.2 (Nat.lt_of_not_le hlast)) hw _

end Steps

end ProofOfWork.Generation
