import ProofOfWork.Proofs.Generation.Prefix

/-! The reports of a generation that is never stopped. Several workers report for the same nodes as one
worker, whatever the order of their steps is. -/

namespace ProofOfWork.Generation

open Program Caller
open Dataset (reports reportCount stride toNat_percent)

variable {σ : Type} {H : Hasher} {c : Cache} {count : UInt32} {put : σ → UInt32 → Node → σ}
  {memory : σ}

/-! ### Chunks -/

/-- The nodes with which chunks start, in their order. -/
def chunkStarts (count : UInt32) : List UInt32 :=
  (List.range (reportCount count.toNat)).map fun k => (k * stride count.toNat).toUInt32

theorem toNat_reportStep_eq (count : UInt32) :
    (Dataset.reportStep count).toNat = stride count.toNat := toNat_reportStep count

theorem toNat_chunkStart {k : Nat} (h : k * stride count.toNat < count.toNat) :
    (k * stride count.toNat).toUInt32.toNat = k * stride count.toNat :=
  UInt32.toNat_ofNat_of_lt' (Nat.lt_trans h count.toNat_lt)

theorem mem_chunkStarts {first : UInt32} : first ∈ chunkStarts count ↔ StartsChunk count first := by
  simp only [chunkStarts, List.mem_map, List.mem_range, Dataset.lt_reportCount_iff]
  constructor
  · rintro ⟨k, hk, rfl⟩
    have hfirst := toNat_chunkStart hk
    refine ⟨?_, ?_⟩
    · rw [UInt32.lt_iff_toNat_lt, hfirst]
      exact hk
    · rw [hfirst, toNat_reportStep_eq]
      exact Nat.mul_mod_left ..
  · rintro ⟨hlt, hmod⟩
    rw [UInt32.lt_iff_toNat_lt] at hlt
    rw [toNat_reportStep_eq] at hmod
    have hmul := Nat.div_mul_cancel (Nat.dvd_of_mod_eq_zero hmod)
    refine ⟨first.toNat / stride count.toNat, ?_, ?_⟩
    · rw [hmul]
      exact hlt
    · rw [hmul]
      exact UInt32.ofNat_toNat

theorem nodup_chunkStarts (count : UInt32) : (chunkStarts count).Nodup := by
  rw [chunkStarts, List.Nodup, List.pairwise_map]
  refine List.pairwise_lt_range.imp_of_mem fun {i j} hi hj hij heq => ?_
  rw [List.mem_range, Dataset.lt_reportCount_iff] at hi hj
  have hnat := congrArg UInt32.toNat heq
  rw [toNat_chunkStart hi, toNat_chunkStart hj] at hnat
  have := Nat.eq_of_mul_eq_mul_right (Dataset.stride_pos count.toNat) hnat
  omega

/-- The percentages at the starts of the chunks. -/
theorem map_percent_chunkStarts (count : UInt32) :
    (chunkStarts count).map (fun first => (Dataset.percent first count).toNat) =
      reports count.toNat := by
  rw [chunkStarts, reports, List.map_map]
  refine List.map_congr_left fun k hk => ?_
  rw [List.mem_range, Dataset.lt_reportCount_iff] at hk
  have hfirst := toNat_chunkStart hk
  rw [Function.comp_apply, toNat_percent (by omega) (by omega), hfirst]

/-! ### Several workers -/

/-- For each chunk the caller was called or a worker has yet to call it, unless the generation was
stopped. -/
def Asked (count : UInt32) (team : List Worker) (stopped : Bool) (m : Record σ) : Prop :=
  stopped = false → ∀ first, StartsChunk count first →
    first ∈ m.calls.map Prod.fst ∨ ∃ w ∈ team, w.Fresh ∧ w.next = first

section

variable {team others : List Worker} {stopped stopped' : Bool} {m m' : Record σ} {w : Worker}
  {left : Option Worker}

theorem Asked.perm (h : Asked count team stopped m) {team' : List Worker} (hp : team.Perm team') :
    Asked count team' stopped m := by
  intro hstopped first hfirst
  simpa only [hp.mem_iff] using h hstopped first hfirst

/-- A step of one worker: no call is forgotten, and the worker does not leave without its own. -/
theorem Asked.step (h : Asked count (w :: others) stopped m)
    (hstopped : stopped' = false → stopped = false) (hcalls : m.calls ⊆ m'.calls)
    (hw : stopped' = false → w.Fresh →
      w.next ∈ m'.calls.map Prod.fst ∨ ∃ v ∈ left, v.Fresh ∧ v.next = w.next) :
    Asked count (left.toList ++ others) stopped' m' := by
  intro hgoing first hfirst
  rcases h (hstopped hgoing) first hfirst with hmem | ⟨v, hv, hfresh, rfl⟩
  · exact .inl (List.map_subset Prod.fst hcalls hmem)
  rcases List.mem_cons.mp hv with rfl | hv
  · refine (hw hgoing hfresh).imp_right ?_
    rintro ⟨v', hv', h⟩
    exact ⟨v', mem_left_or.mpr (.inl hv'), h⟩
  · exact .inr ⟨v, mem_left_or.mpr (.inr hv), hfresh, rfl⟩

variable (H c put) in
theorem Asked.advance (h : Asked count (w :: others) stopped m) :
    Keeps (Record.noting put w.next) (fun _ _ => True)
      (fun x m' => Asked count (x.1.toList ++ others) x.2 m') (w.advance H c count stopped) m := by
  rw [Worker.advance]
  split
  case h_1 hw =>
    refine h.step (fun hgoing => hgoing) (fun _ hcall => hcall) fun hgoing _ => .inr ?_
    obtain rfl : stopped = false := hgoing
    exact ⟨_, rfl, .inr rfl, rfl⟩
  case h_2 hw =>
    refine ⟨trivial, ?_⟩
    rintro verdict _ rfl
    have hcalled : w.next ∈ ((w.next, verdict) :: m.calls).map Prod.fst := List.mem_cons_self
    cases verdict with
    | goOn => exact h.step (fun hgoing => hgoing) (List.subset_cons_self ..) fun _ _ => .inl hcalled
    | stop => exact h.step (fun hgoing => hgoing) (List.subset_cons_self ..) fun _ _ => .inl hcalled
  case h_3 hw => exact fun hgoing => by contradiction
  case h_4 hw =>
    refine h.step (fun hgoing => hgoing) (fun _ hcall => hcall) fun _ hfresh => ?_
    rcases hfresh with hf | hf <;> rw [hw] at hf <;> contradiction
  case h_5 hw =>
    have hnot : ¬w.Fresh := by
      rintro (hf | hf) <;> rw [hw] at hf <;> contradiction
    refine ⟨trivial, ?_⟩
    rintro _ _ rfl
    show Keeps _ _ _ (if w.remaining ≤ 1 then .done (none, stopped)
      else .done (some (Worker.mk .checking (w.next + 1) (w.remaining - 1)), stopped)) _
    split
    · exact h.step (fun hgoing => hgoing) (fun _ hcall => hcall) fun _ hfresh => absurd hfresh hnot
    · exact h.step (fun hgoing => hgoing) (fun _ hcall => hcall) fun _ hfresh => absurd hfresh hnot

end

theorem asked_start :
    Asked count (workers count (Dataset.reportStep count)) false (.start memory) := by
  intro _ first hfirst
  obtain ⟨k, hk, rfl⟩ : ∃ k, k * stride count.toNat < count.toNat ∧
      (k * stride count.toNat).toUInt32 = first := by
    have hmem := mem_chunkStarts.mpr hfirst
    simpa only [chunkStarts, List.mem_map, List.mem_range, Dataset.lt_reportCount_iff] using hmem
  rw [← toNat_reportStep_eq] at hk ⊢
  exact .inr ⟨chunkWorker count k, mem_workers.mpr ⟨k, hk, rfl⟩, .inl rfl, rfl⟩

theorem Crew.Reachable.asked {crew : Crew σ} (h : Reachable H c count put memory crew) :
    Asked count crew.team crew.stopped crew.record := by
  induction h with
  | start => exact asked_start
  | step _ hstep ih =>
    obtain ⟨w, others, left, hteam, hteam', he⟩ := hstep.worker
    exact (((ih.perm hteam).advance H c put).ends he).perm hteam'.symm

/-- When all workers have left and none was stopped, each chunk had its call. -/
theorem Crew.Reachable.calls_perm {m : Record σ} (h : Reachable H c count put memory ⟨[], false, m⟩) :
    (m.calls.map Prod.fst).Perm (chunkStarts count) := by
  rw [List.perm_ext_iff_of_nodup h.holds.heard.calledOnce (nodup_chunkStarts count)]
  intro first
  rw [mem_chunkStarts]
  constructor
  · intro hmem
    obtain ⟨call, hcall, rfl⟩ := List.mem_map.mp hmem
    exact h.holds.heard.calledAtStart call hcall
  · intro hfirst
    rcases h.asked rfl first hfirst with hmem | ⟨w, hw, -⟩
    · exact hmem
    · cases hw

/-! ### One worker -/

theorem map_fst_firstCalls (step k : Nat) :
    ((firstCalls step k).map Prod.fst).reverse =
      (List.range k).map fun i => (i * step).toUInt32 := by
  induction k with
  | zero => rfl
  | succ k ih =>
    rw [firstCalls, List.map_cons, List.reverse_cons, ih, List.range_succ, List.map_append]
    rfl

theorem Record.ComeTo.calls_eq_chunkStarts {m : Record ByteArray}
    (h : m.ComeTo (Dataset.reportStep count).toNat count.toNat) :
    (m.calls.map Prod.fst).reverse = chunkStarts count := by
  rw [h.calls_eq (reportStep_pos count), map_fst_firstCalls, toNat_reportStep_eq]
  rfl

/-! ### What the caller hears -/

section

variable {memory : ByteArray} {inParallel : Bool} {percents : List Nat}

/-- The percentages that the caller hears, in their order, in a generation that it never stops. -/
def Reported (H : Hasher) (c : Cache) (inParallel : Bool) (memory : ByteArray)
    (percents : List Nat) : Prop :=
  ∃ x heard, Ends hearing (Dataset.fill H c inParallel memory) [] x heard ∧
    (∀ call ∈ heard, call.2 = .goOn) ∧ percents = (heard.map fun call => call.1.toNat).reverse

/-- A computation comes to its end when its caller never stops it. -/
theorem exists_ends_hearing {α : Type} (p : Program Caller α) {heard : List (UInt32 × Verdict)}
    (hall : ∀ call ∈ heard, call.2 = .goOn) :
    ∃ a heard', Ends hearing p heard a heard' ∧ ∀ call ∈ heard', call.2 = .goOn := by
  induction p generalizing heard with
  | done a => exact ⟨a, heard, .refl _ _, hall⟩
  | ask r next ih =>
    cases r with
    | report percent =>
      have hmore : ∀ call ∈ (percent, Verdict.goOn) :: heard, call.2 = .goOn :=
        List.forall_mem_cons.mpr ⟨rfl, hall⟩
      obtain ⟨a, heard', he, hall'⟩ := ih .goOn hmore
      exact ⟨a, heard', .ask rfl he, hall'⟩
    | log event =>
      obtain ⟨a, heard', he, hall'⟩ := ih () hall
      exact ⟨a, heard', .ask rfl he, hall'⟩
    | pick others =>
      obtain ⟨a, heard', he, hall'⟩ := ih 0 hall
      exact ⟨a, heard', .ask rfl he, hall'⟩

theorem exists_reported (H : Hasher) (c : Cache) (inParallel : Bool) (memory : ByteArray) :
    ∃ percents, Reported H c inParallel memory percents := by
  obtain ⟨x, heard, he, hall⟩ :=
    exists_ends_hearing (Dataset.fill H c inParallel memory) (List.forall_mem_nil _)
  exact ⟨_, x, heard, he, hall, rfl⟩

theorem map_toNat_heard (count : UInt32) (m : Record ByteArray) :
    (m.heard count).map (fun call => call.1.toNat) =
      (m.calls.map Prod.fst).map fun first => (Dataset.percent first count).toNat := by
  rw [Record.heard, List.map_map, List.map_map]
  rfl

theorem Reported.eq (hcount : Dataset.nodeCount memory.size = .ok count)
    (h : Reported H c false memory percents) : percents = reports count.toNat := by
  obtain ⟨x, heard, he, hall, rfl⟩ := h
  obtain ⟨m, outcome, rfl, -, horder, -⟩ := ends_fill_sequential hcount he
  cases horder with
  | finished hcome =>
    rw [map_toNat_heard, ← List.map_reverse, hcome.calls_eq_chunkStarts, map_percent_chunkStarts]
  | cancelled k hk hwritten hcalls =>
    have := hall (Dataset.percent (k * (Dataset.reportStep count).toNat).toUInt32 count, .stop)
      (by rw [Record.heard, hcalls]; exact List.mem_cons_self)
    contradiction

/-- The order of steps only shows in the order of the percentages. -/
theorem Reported.perm (hcount : Dataset.nodeCount memory.size = .ok count)
    (h : Reported H c inParallel memory percents) : percents.Perm (reports count.toNat) := by
  cases inParallel with
  | false => exact .of_eq (h.eq hcount)
  | true =>
    obtain ⟨⟨answer, memory'⟩, heard, he, hall, rfl⟩ := h
    obtain ⟨⟨team, stopped, m⟩, hcrew, rfl, -, -, rfl⟩ := (ends_fill_iff hcount).mp he
    have hgoOn : ∀ call ∈ m.calls, call.2 = .goOn := fun call hcall =>
      hall (Dataset.percent call.1 count, call.2) (List.mem_map.mpr ⟨call, hcall, rfl⟩)
    obtain rfl : stopped = false :=
      Crew.answer_eq_ok.mp ((hcrew.settled hcount rfl).answer_ok.mpr hgoOn)
    rw [map_toNat_heard, ← map_percent_chunkStarts]
    exact (List.reverse_perm _).trans (hcrew.calls_perm.map _)

end

end ProofOfWork.Generation
