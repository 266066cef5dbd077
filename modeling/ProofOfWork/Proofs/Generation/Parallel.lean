import ProofOfWork.Proofs.Dataset.Percent
import ProofOfWork.Proofs.Generation.Crew
import ProofOfWork.Proofs.Generation.Order

/-! Runs of a crew. What holds at the start and is kept by every step holds in every state that is
reached, and the program for several workers only comes to such states. -/

namespace ProofOfWork.Generation

open Program Caller
open Dataset (lt_chunks_iff)

variable {σ τ : Type} {H : Hasher} {c : Cache} {count : UInt32} {put : σ → UInt32 → Node → σ}
  {memory : σ}

/-! ### The workers at the start -/

/-- The worker for chunk `i`. -/
def chunkWorker (count : UInt32) (i : Nat) : Worker :=
  let step := (Dataset.reportStep count).toNat
  ⟨.starting, (i * step).toUInt32, min step (count.toNat - i * step)⟩

theorem toNat_chunkWorker {i : Nat} (h : i * (Dataset.reportStep count).toNat < count.toNat) :
    (chunkWorker count i).next.toNat = i * (Dataset.reportStep count).toNat :=
  UInt32.toNat_ofNat_of_lt' (Nat.lt_trans h count.toNat_lt)

theorem mem_workers {w : Worker} : w ∈ workers count (Dataset.reportStep count) ↔
    ∃ i, i * (Dataset.reportStep count).toNat < count.toNat ∧ chunkWorker count i = w := by
  rw [workers, List.mem_map]
  refine exists_congr fun i => and_congr_left fun _ => ?_
  rw [List.mem_range, lt_chunks_iff (reportStep_pos count)]

theorem chunkWorker_has {i : Nat} (h : i * (Dataset.reportStep count).toNat < count.toNat)
    {index : UInt32} : (chunkWorker count i).Has index ↔
      i * (Dataset.reportStep count).toNat ≤ index.toNat ∧
      index.toNat < (i + 1) * (Dataset.reportStep count).toNat ∧ index < count := by
  rw [Worker.Has, toNat_chunkWorker h, UInt32.lt_iff_toNat_lt, Nat.succ_mul]
  simp only [chunkWorker]
  omega

theorem shared_start :
    Shared count (workers count (Dataset.reportStep count)) false (.start memory) := by
  have hstep := reportStep_pos count
  refine ⟨fun w hw => ?_, ?_, .nil, fun _ _ => List.forall_mem_nil _, ?_⟩
  · obtain ⟨i, hi, rfl⟩ := mem_workers.mp hw
    rw [toNat_chunkWorker hi]
    simp only [chunkWorker]
    omega
  · rw [workers, List.pairwise_map]
    refine List.pairwise_lt_range.imp_of_mem fun {i j} hi hj hij index hv hw => ?_
    rw [List.mem_range, lt_chunks_iff hstep] at hi hj
    have hv := (chunkWorker_has hi).mp hv
    have hw := (chunkWorker_has hj).mp hw
    have := Nat.mul_le_mul_right (Dataset.reportStep count).toNat (show i + 1 ≤ j from hij)
    omega
  · intro _ index hindex
    have hle := Nat.div_mul_le_self index.toNat (Dataset.reportStep count).toNat
    have hlt := hindex
    rw [UInt32.lt_iff_toNat_lt] at hlt
    have hi : index.toNat / (Dataset.reportStep count).toNat *
        (Dataset.reportStep count).toNat < count.toNat := by omega
    refine .inr ⟨_, mem_workers.mpr ⟨_, hi, rfl⟩, (chunkWorker_has hi).mpr ⟨hle, ?_, hindex⟩⟩
    exact Nat.lt_mul_of_div_lt (Nat.lt_succ_self _) hstep

theorem heard_start :
    Heard count (workers count (Dataset.reportStep count)) false (.start memory) := by
  refine ⟨fun w hw _ => ?_, .nil, List.forall_mem_nil _, fun _ h => absurd h List.not_mem_nil, ?_⟩
  · obtain ⟨i, hi, rfl⟩ := mem_workers.mp hw
    have hnext := toNat_chunkWorker hi
    refine ⟨⟨?_, ?_⟩, fun index hindex => ?_, fun _ => List.not_mem_nil⟩
    · rw [UInt32.lt_iff_toNat_lt, hnext]
      exact hi
    · rw [hnext]
      exact Nat.mul_mod_left ..
    · obtain ⟨hle, hlt, hchunk⟩ := hindex
      rw [UInt32.le_iff_toNat_le, hnext] at hle
      rw [hnext] at hchunk
      exact (chunkWorker_has hi).mpr ⟨hle, by rw [Nat.succ_mul]; exact hchunk, hlt⟩
  · constructor
    · rintro ⟨_, h⟩
      cases h
    · rintro (h | ⟨w, hw, h⟩)
      · contradiction
      · obtain ⟨i, -, rfl⟩ := mem_workers.mp hw
        cases h

/-! ### Steps -/

theorem Crew.replace_perm {team : List Worker} (k : Fin team.length) (left : Option Worker) :
    (replace team k left).Perm (left.toList ++ team.eraseIdx k) := by
  cases left with
  | none => exact .refl _
  | some w => exact List.set_perm_cons_eraseIdx k.isLt w

/-- A step is a step of one worker, which the others do not see. -/
theorem Crew.Step.worker {crew crew' : Crew σ} (h : Step H c count put crew crew') :
    ∃ w others left, crew.team.Perm (w :: others) ∧ crew'.team.Perm (left.toList ++ others) ∧
      Ends (Record.noting put w.next) (w.advance H c count crew.stopped) crew.record
        (left, crew'.stopped) crew'.record := by
  cases h with
  | intro k he =>
    exact ⟨_, _, _, (List.getElem_cons_eraseIdx_perm k.isLt).symm, replace_perm k _, he⟩

theorem Crew.Reachable.holds {crew : Crew σ} (h : Reachable H c count put memory crew) :
    Holds count crew.team crew.stopped crew.record := by
  induction h with
  | start => exact ⟨shared_start, heard_start⟩
  | step _ hstep ih =>
    obtain ⟨w, others, left, hteam, hteam', he⟩ := hstep.worker
    exact (((ih.perm hteam).advance H c put).ends he).perm hteam'.symm

theorem Crew.Reachable.made {crew : Crew σ} (h : Reachable H c count put memory crew) :
    crew.record.Made H c count put memory := by
  induction h with
  | start => exact .start memory
  | step hcrew hstep ih =>
    obtain ⟨w, others, left, hteam, -, he⟩ := hstep.worker
    have hadvance := (hcrew.holds.perm hteam).advance H c put
    refine ((hadvance.invariant ?_ ih).ends he).2
    rintro r m a _ hlegal rfl hm
    exact hlegal.made hm a

/-! ### The program -/

theorem stepsLeft_perm {team team' : List Worker} (h : team.Perm team') :
    stepsLeft team = stepsLeft team' := by
  induction h with
  | nil => rfl
  | cons w _ ih => rw [stepsLeft, stepsLeft, ih]
  | swap v w team => simp only [stepsLeft]; omega
  | trans _ _ ih ih' => exact ih.trans ih'

theorem stepsLeft_append (team team' : List Worker) :
    stepsLeft (team ++ team') = stepsLeft team + stepsLeft team' := by
  induction team with
  | nil => simp [stepsLeft]
  | cons w team ih => rw [List.cons_append, stepsLeft, stepsLeft, ih, Nat.add_assoc]

theorem Worker.steps_pos {w : Worker} (h : 0 < w.remaining) : 0 < w.steps := by
  unfold Worker.steps
  split <;> omega

theorem Worker.stepsLeft_advance {w : Worker} (h : 0 < w.remaining) {W : Serving Generation τ}
    (stopped : Bool) (s : τ) :
    Keeps W (fun _ _ => True) (fun x _ => stepsLeft x.1.toList < w.steps)
      (w.advance H c count stopped) s := by
  rw [Worker.advance, Worker.steps]
  split
  · cases stopped <;> simp [stepsLeft, Worker.steps]
  · refine ⟨trivial, fun verdict _ _ => ?_⟩
    cases verdict with
    | goOn =>
      show stepsLeft [{ w with stage := .checking }] < _
      simp [stepsLeft, Worker.steps]
    | stop =>
      show stepsLeft [{ w with stage := .stopping }] < _
      simp only [stepsLeft, Worker.steps]
      omega
  · simp [stepsLeft]
  · cases stopped <;> simp [stepsLeft, Worker.steps] <;> omega
  · refine ⟨trivial, fun _ _ _ => ?_⟩
    show Keeps _ _ _ (if w.remaining ≤ 1 then .done (none, stopped)
      else .done (some (Worker.mk .checking (w.next + 1) (w.remaining - 1)), stopped)) _
    split <;> simp [stepsLeft, Worker.steps] <;> omega

theorem Crew.stepsLeft_replace {team : List Worker} (hpos : ∀ w ∈ team, 0 < w.remaining)
    (k : Fin team.length) {W : Serving Generation τ} {left : Option Worker}
    {stopped stopped' : Bool} {s s' : τ}
    (he : Ends W ((team.get k).advance H c count stopped) s (left, stopped') s') :
    stepsLeft (replace team k left) < stepsLeft team := by
  have hless := (Worker.stepsLeft_advance (hpos _ (List.getElem_mem k.isLt)) stopped s).ends he
  have hbefore := stepsLeft_perm (List.getElem_cons_eraseIdx_perm k.isLt)
  have hafter := stepsLeft_perm (replace_perm k left)
  rw [stepsLeft] at hbefore
  rw [stepsLeft_append] at hafter
  rw [show stepsLeft (left, stopped').1.toList = stepsLeft left.toList from rfl] at hless
  omega

section

variable {W : Serving Generation τ} {P : Generation.Request → τ → Prop}
  {Match : Record σ → τ → Prop}

/-- Whatever the caller answers, workers that are given enough steps all leave, as a crew. -/
theorem keeps_runWorkers (F : Follows H c count put W P Match) (steps : Nat) {team : List Worker}
    {stopped : Bool} {m : Record σ} (h : Crew.Reachable H c count put memory ⟨team, stopped, m⟩)
    (hsteps : stepsLeft team ≤ steps) {s : τ} (hm : Match m s) :
    Keeps W P (fun stopped' s' => ∃ m', Match m' s' ∧
        Crew.Reachable H c count put memory ⟨[], stopped', m'⟩)
      (runWorkers H c count steps team stopped) s := by
  have hpos : ∀ w ∈ team, 0 < w.remaining := fun w hw => (h.holds.shared.inRange w hw).1
  induction steps generalizing team stopped m s with
  | zero =>
    cases team with
    | nil => exact ⟨m, hm, h⟩
    | cons w others =>
      have := Worker.steps_pos (hpos w List.mem_cons_self)
      rw [stepsLeft] at hsteps
      omega
  | succ steps ih =>
    cases team with
    | nil => exact ⟨m, hm, h⟩
    | cons w others =>
      obtain ⟨hP, hpick⟩ := F 0 (.caller (.pick others.length)) m s trivial hm
      refine ⟨hP, fun k s' hs => ?_⟩
      have hm := hpick k s' hs
      have hperm := List.getElem_cons_eraseIdx_perm (l := w :: others) k.isLt
      have hadvance := ((h.holds.perm hperm.symm).advance H c put).and_ends
      refine (hadvance.follow (fun r m s hlegal hm => ?_) hm).bind ?_
      · obtain ⟨hP, hW⟩ := F _ r m s hlegal hm
        exact ⟨hP, fun a s' hs => ⟨_, rfl, hW a s' hs⟩⟩
      rintro ⟨left, stopped'⟩ s'' ⟨m', hm', hholds, he⟩
      have hstep := h.step (.intro ⟨w :: others, stopped, m⟩ k he)
      have hsteps' : stepsLeft (Crew.replace (w :: others) k left) ≤ steps :=
        Nat.le_of_lt_succ (Nat.lt_of_lt_of_le (Crew.stepsLeft_replace hpos k he) hsteps)
      cases left with
      | none => exact ih hstep hsteps' hm' fun v hv => (hstep.holds.shared.inRange v hv).1
      | some v => exact ih hstep hsteps' hm' fun v hv => (hstep.holds.shared.inRange v hv).1

/-- Every state of a crew is one that the program comes to, in surroundings where it may do what the
record notes. -/
theorem Crew.Reachable.reaches {f : Record σ → τ}
    (hf : ∀ node r m a, Legal H c count node r → W r (f m) a (f (m.after put node r a)))
    {crew : Crew σ} (h : Reachable H c count put memory crew) :
    ∃ steps, stepsLeft crew.team ≤ steps ∧
      Reaches W
        (runWorkers H c count (stepsLeft (Crew.start count memory).team)
          (Crew.start count memory).team false)
        (f (.start memory))
        (runWorkers H c count steps crew.team crew.stopped) (f crew.record) := by
  induction h with
  | start => exact ⟨_, Nat.le_refl _, .refl _ _⟩
  | @step crew _ hcrew hstep ih =>
    obtain ⟨steps, hsteps, hr⟩ := ih
    have hholds := hcrew.holds
    cases hstep with
    | @intro k left _ _ he =>
      obtain ⟨team, stopped, m⟩ := crew
      have hlt := Crew.stepsLeft_replace (fun w hw => (hholds.shared.inRange w hw).1) k he
      cases team with
      | nil => exact k.elim0
      | cons w others =>
        cases steps with
        | zero => exact absurd hlt (Nat.not_lt.mpr (Nat.le_trans hsteps (Nat.zero_le _)))
        | succ steps =>
          have hperm := List.getElem_cons_eraseIdx_perm (l := w :: others) k.isLt
          have hadvance := (hholds.perm hperm.symm).advance H c put
          have hpick := hf 0 (.caller (.pick others.length)) m k trivial
          have he' := hadvance.image (f := f) (fun r m a m' hlegal hnoted =>
            hnoted ▸ hf _ r m a hlegal) he
          refine ⟨steps, Nat.le_of_lt_succ (Nat.lt_of_lt_of_le hlt hsteps), hr.trans ?_⟩
          refine .ask hpick ((he'.bind _).trans ?_)
          cases left with
          | none => exact .refl _ _
          | some v => exact .refl _ _

variable (memory) in
/-- A generation by several workers ends as a crew does that nobody is left in. -/
theorem keeps_parallel (F : Follows H c count put W P Match) {s : τ}
    (hm : Match (.start memory) s) :
    Keeps W P (fun outcome s' => ∃ stopped m, Match m s' ∧
        Crew.Reachable H c count put memory ⟨[], stopped, m⟩ ∧
        outcome = if stopped then .cancelled else .finished)
      (parallel H c count) s := by
  refine (keeps_runWorkers F _ .start (Nat.le_refl _) hm).bind ?_
  rintro stopped s' ⟨m, hm, h⟩
  cases stopped with
  | false => exact ⟨false, m, hm, h, rfl⟩
  | true =>
    obtain ⟨hP, hW⟩ := F 0 (.caller (.log .cancelled)) m s' trivial hm
    exact ⟨hP, fun a s'' hs => ⟨true, m, hW a s'' hs, h, rfl⟩⟩

/-- When nobody is left, a stop that was answered was heard, and without one all nodes are written. -/
theorem Crew.Reachable.tells {stopped : Bool} {m : Record σ}
    (h : Reachable H c count put memory ⟨[], stopped, m⟩) :
    m.Tells count (if stopped then .cancelled else .finished) := by
  have hbroken := h.holds.heard.broken
  simp only [List.not_mem_nil, false_and, exists_false, or_false] at hbroken
  constructor
  · rw [hbroken]
    cases stopped <;> simp
  · intro hfinished index hindex
    have hstopped : stopped = false := by
      cases stopped with
      | false => rfl
      | true => contradiction
    rcases h.holds.shared.covered hstopped index hindex with hmem | ⟨w, hw, -⟩
    · exact hmem
    · cases hw

variable (memory) in
/-- By one worker or several, a generation ends as its record tells. -/
theorem keeps_nodes (F : Follows H c count put W P Match) (inParallel : Bool) {s : τ}
    (hm : Match (.start memory) s) :
    Keeps W P (fun outcome s' => ∃ m, Match m s' ∧ m.Tells count outcome)
      (nodes H c inParallel count) s := by
  cases inParallel with
  | false =>
    refine (keeps_sequential F memory s hm).mono (fun _ _ h => h) ?_
    rintro outcome s' ⟨m, hm, h⟩
    exact ⟨m, hm, h.tells⟩
  | true =>
    refine (keeps_parallel memory F hm).mono (fun _ _ h => h) ?_
    rintro outcome s' ⟨stopped, m, hm, h, rfl⟩
    exact ⟨m, hm, h.tells⟩

end

end ProofOfWork.Generation
