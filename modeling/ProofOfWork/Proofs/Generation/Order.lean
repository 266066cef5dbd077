import ProofOfWork.Proofs.Generation.Record

/-! One worker goes through the nodes in order. The node that it is at tells what it has done: which
nodes it has written, and before which of them it has asked its caller. -/

namespace ProofOfWork.Generation

open Program Caller

theorem toNat_reportStep (count : UInt32) :
    (Dataset.reportStep count).toNat = max (count.toNat / 100) 1 := by
  have hdiv : (count / 100).toNat = count.toNat / 100 := UInt32.toNat_div ..
  show (if count / 100 ≤ 1 then 1 else count / 100).toNat = _
  simp only [UInt32.le_iff_toNat_le, hdiv, UInt32.reduceToNat]
  split
  · exact (Nat.max_eq_right (by assumption)).symm
  · rw [hdiv]
    omega

theorem reportStep_pos (count : UInt32) : 0 < (Dataset.reportStep count).toNat := by
  rw [toNat_reportStep]
  omega

/-- The first `n` nodes, the last of them first. -/
def firstNodes : (n : Nat) → List UInt32
  | 0 => []
  | n + 1 => n.toUInt32 :: firstNodes n

/-- The first `k` calls of one worker, the last of them first, if no answer stops it. -/
def firstCalls (step : Nat) : (k : Nat) → List (UInt32 × Verdict)
  | 0 => []
  | k + 1 => ((k * step).toUInt32, .goOn) :: firstCalls step k

theorem mem_firstNodes {n : Nat} {index : UInt32} (h : index.toNat < n) : index ∈ firstNodes n := by
  induction n with
  | zero => omega
  | succ n ih =>
    rcases Nat.lt_or_eq_of_le (Nat.le_of_lt_succ h) with hlt | rfl
    · exact List.mem_cons_of_mem _ (ih hlt)
    · simp [firstNodes]

theorem verdict_of_mem_firstCalls {step k : Nat} {call : UInt32 × Verdict}
    (h : call ∈ firstCalls step k) : call.2 = .goOn := by
  induction k with
  | zero => cases h
  | succ k ih =>
    rcases List.mem_cons.mp h with rfl | h
    · rfl
    · exact ih h

@[simp] theorem length_firstCalls (step k : Nat) : (firstCalls step k).length = k := by
  induction k with
  | zero => rfl
  | succ k ih => simp [firstCalls, ih]

variable {σ τ : Type} {H : Hasher} {c : Cache} {count : UInt32} {put : σ → UInt32 → Node → σ}
  {W : Serving Generation τ} {P : Generation.Request → τ → Prop} {Match : Record σ → τ → Prop}

/-- One worker has come to node `n`: it has written all nodes before it, and called for each multiple
of `step` among them. -/
structure Record.ComeTo (step n : Nat) (m : Record σ) : Prop where
  written : m.written = firstNodes n
  calls : ∃ k, m.calls = firstCalls step k ∧ n ≤ k * step ∧ k * step < n + step

/-- How one worker ends: past the last of `count` nodes, or when its caller stops it, before the node
of that call. -/
inductive Record.InOrder (step count : Nat) (m : Record σ) : Outcome → Prop
  | finished (hall : m.ComeTo step count) : m.InOrder step count .finished
  | cancelled (k : Nat) (hk : k * step < count) (hwritten : m.written = firstNodes (k * step))
      (hcalls : m.calls = ((k * step).toUInt32, .stop) :: firstCalls step k) :
      m.InOrder step count .cancelled

theorem Record.comeTo_start {step : Nat} (hstep : 0 < step) (memory : σ) :
    (Record.start memory).ComeTo step 0 := ⟨rfl, 0, rfl, by omega, by omega⟩

/-- The calls of a worker that is at a multiple of `step`, before it calls for that one. -/
theorem Record.ComeTo.calls_mul {step k : Nat} {m : Record σ} (hstep : 0 < step)
    (h : m.ComeTo step (k * step)) : m.calls = firstCalls step k := by
  obtain ⟨k', hcalls, hle, hlt⟩ := h.calls
  rw [← Nat.succ_mul] at hlt
  have hk : k ≤ k' := Nat.le_of_mul_le_mul_right hle hstep
  have hk' : k' < k + 1 := Nat.lt_of_mul_lt_mul_right hlt
  obtain rfl : k' = k := by omega
  exact hcalls

/-- A node that is no multiple of `step` is written without a call. -/
theorem Record.ComeTo.write {step n : Nat} {m : Record σ} (h : m.ComeTo step n) (hn : n % step ≠ 0)
    (memory : σ) :
    Record.ComeTo step (n + 1) { m with memory, written := n.toUInt32 :: m.written } := by
  obtain ⟨k, hcalls, hle, hlt⟩ := h.calls
  have hne : n ≠ k * step := fun heq => hn (heq ▸ Nat.mul_mod_left k step)
  exact ⟨congrArg (n.toUInt32 :: ·) h.written, k, hcalls, by omega, by omega⟩

/-- The node of a call is written after the call. -/
theorem Record.ComeTo.call_write {step k : Nat} {m : Record σ} (hstep : 0 < step)
    (h : m.ComeTo step (k * step)) (memory : σ) :
    Record.ComeTo step (k * step + 1)
      ⟨memory, ((k * step).toUInt32, .goOn) :: m.calls, (k * step).toUInt32 :: m.written⟩ := by
  refine ⟨congrArg (_ :: ·) h.written, k + 1, congrArg (_ :: ·) (h.calls_mul hstep), ?_, ?_⟩
  · rw [Nat.succ_mul]
    omega
  · rw [Nat.succ_mul]
    omega

theorem Record.InOrder.tells {step : Nat} {m : Record σ} {outcome : Outcome}
    (h : m.InOrder step count.toNat outcome) : m.Tells count outcome := by
  cases h with
  | finished hall =>
    obtain ⟨k, hcalls, -, -⟩ := hall.calls
    refine ⟨⟨fun hfalse => by contradiction, ?_⟩, fun _ index hindex => ?_⟩
    · rintro ⟨node, hnode⟩
      rw [hcalls] at hnode
      have := verdict_of_mem_firstCalls hnode
      contradiction
    · rw [hall.written]
      exact mem_firstNodes (UInt32.lt_iff_toNat_lt.mp hindex)
  | cancelled k hk hwritten hcalls =>
    refine ⟨⟨fun _ => ⟨(k * step).toUInt32, ?_⟩, fun _ => rfl⟩, fun h => by contradiction⟩
    rw [hcalls]
    exact List.mem_cons_self

/-- The loop of one worker, from node `n` on. -/
theorem keeps_fillFrom (F : Follows H c count put W P Match) {step : UInt32} (hstep : 0 < step.toNat)
    (remaining : Nat) (n : UInt32) (hn : n.toNat + remaining = count.toNat) {m : Record σ} {s : τ}
    (hm : Match m s) (hcome : m.ComeTo step.toNat n.toNat) :
    Keeps W P (fun outcome s' => ∃ m', Match m' s' ∧ m'.InOrder step.toNat count.toNat outcome)
      (fillFrom H c count step remaining n) s := by
  induction remaining generalizing n m s with
  | zero =>
    rw [Nat.add_zero] at hn
    exact ⟨m, hm, .finished (hn ▸ hcome)⟩
  | succ remaining ih =>
    have hlt : n < count := by rw [UInt32.lt_iff_toNat_lt]; omega
    have hsucc := toNat_succ (n := n) (k := count) (by omega)
    have hself : n.toNat.toUInt32 = n := UInt32.ofNat_toNat
    -- the node is written, whatever was asked before it
    have hstore {m : Record σ} {s : τ} (hm : Match m s)
        (hcome : ∀ memory : σ,
          Record.ComeTo step.toNat (n.toNat + 1) ⟨memory, m.calls, n :: m.written⟩) :
        Keeps W P
          (fun outcome s' => ∃ m', Match m' s' ∧ m'.InOrder step.toNat count.toNat outcome)
          (store n (Dataset.item H c n) >>= fun _ => fillFrom H c count step remaining (n + 1))
          s := by
      obtain ⟨hP, hW⟩ := F n (.store n (Dataset.item H c n)) m s ⟨hlt, rfl⟩ hm
      exact ⟨hP, fun a s' hs => ih (n + 1) (by omega) (hW a s' hs) (hsucc ▸ hcome _)⟩
    have hmod : n % step = 0 ↔ n.toNat % step.toNat = 0 := by
      rw [← UInt32.toNat_inj, UInt32.toNat_mod]
      rfl
    rw [fillFrom]
    split
    case isTrue hcall =>
      -- the node is the `k`-th for which there is a call
      obtain ⟨k, hk⟩ := Nat.dvd_of_mod_eq_zero (hmod.mp hcall)
      rw [Nat.mul_comm] at hk
      obtain ⟨hP, hW⟩ := F n (.caller (.log (.progress (Dataset.percent n count)))) m s trivial hm
      refine ⟨hP, fun _ s' hs => ?_⟩
      have hm := hW _ s' hs
      obtain ⟨hP, hW⟩ := F n (.caller (.report (Dataset.percent n count))) m s' rfl hm
      refine ⟨hP, fun verdict s'' hs => ?_⟩
      have hm := hW verdict s'' hs
      rw [hk] at hcome hself
      cases verdict with
      | goOn =>
        refine hstore hm fun memory => ?_
        have hnext := hcome.call_write hstep memory
        rw [hself] at hnext
        rw [hk]
        exact hnext
      | stop =>
        obtain ⟨hP, hW⟩ := F n (.caller (.log (.cancelledAt n))) _ s'' trivial hm
        refine ⟨hP, fun _ s3 hs => ⟨_, hW _ s3 hs, .cancelled k (by omega) hcome.written ?_⟩⟩
        rw [hself]
        exact congrArg (_ :: ·) (hcome.calls_mul hstep)
    case isFalse hcall =>
      refine hstore hm fun memory => ?_
      have hnext := hcome.write (mt hmod.mpr hcall) memory
      rw [hself] at hnext
      exact hnext

theorem keeps_sequential (F : Follows H c count put W P Match) (memory : σ) (s : τ)
    (hm : Match (.start memory) s) :
    Keeps W P
      (fun outcome s' => ∃ m', Match m' s' ∧
        m'.InOrder (Dataset.reportStep count).toNat count.toNat outcome)
      (sequential H c count) s :=
  keeps_fillFrom F (reportStep_pos count) count.toNat 0 (Nat.zero_add _) hm
    (Record.comeTo_start (reportStep_pos count) memory)

end ProofOfWork.Generation
