import ProofOfWork.Proofs.Generation.Schedule

/-! Generations by one worker into a memory. At any time the worker has written the start of the
dataset over the start of the memory, and a caller that stops it finds the rest as it was. -/

namespace ProofOfWork

namespace Dataset

variable {H : Hasher} {c : Cache} {n : Nat} {memory : ByteArray}

/-- A node that is written behind the nodes in front of it. -/
theorem setNode_append {front rest : ByteArray} {index : UInt32} (node : Node)
    (hfront : front.size = 64 * index.toNat) (hrest : 64 ≤ rest.size) :
    setNode (front ++ rest) index node =
      front ++ node.bytes.bytes ++ rest.extract 64 rest.size := by
  have hnode : node.bytes.bytes.size = 64 := node.bytes.size_bytes
  have hsize : (front ++ rest).size = front.size + rest.size := ByteArray.size_append
  have hwhole : node.bytes.bytes.extract 0 (0 + 64) = node.bytes.bytes := by
    have hextract := ByteArray.extract_zero_size (b := node.bytes.bytes)
    rwa [hnode] at hextract
  have hend : front.size + min 64 (node.bytes.bytes.data.size - 0) = front.size + 64 := by
    rw [ByteArray.size_data]
    omega
  rw [setNode_eq, if_pos (by omega), ByteArray.copySlice_eq_append, ← hfront, hend, hwhole,
    ByteArray.size_data, hsize, ByteArray.extract_append_size_add,
    ByteArray.extract_append_eq_left rfl]

/-- A memory with the first `n` nodes of the dataset over its start. -/
def overwritten (H : Hasher) (c : Cache) (n : Nat) (memory : ByteArray) : ByteArray :=
  bytes H c n ++ memory.extract (64 * n) memory.size

theorem overwritten_zero : overwritten H c 0 memory = memory := by
  rw [overwritten, bytes, Nat.mul_zero, ByteArray.extract_zero_size, ByteArray.empty_append]

theorem overwritten_all (h : memory.size = 64 * n) : overwritten H c n memory = bytes H c n := by
  rw [overwritten, h, ByteArray.extract_same, ByteArray.append_empty]

theorem setNode_overwritten (h : 64 * (n + 1) ≤ memory.size) (hn : n < 2 ^ 32) :
    setNode (overwritten H c n memory) n.toUInt32 (item H c n.toUInt32) =
      overwritten H c (n + 1) memory := by
  have hindex : n.toUInt32.toNat = n := UInt32.toNat_ofNat_of_lt' hn
  have hrest : (memory.extract (64 * n) memory.size).size = memory.size - 64 * n := by
    rw [ByteArray.size_extract, Nat.min_self]
  rw [overwritten, setNode_append _ (by rw [size_bytes, hindex]) (by omega),
    ByteArray.extract_extract, hrest, overwritten, bytes]
  congr 2
  omega

theorem foldr_firstNodes (h : 64 * n ≤ memory.size) (hn : n ≤ 2 ^ 32) :
    (Generation.firstNodes n).foldr
      (fun index memory => setNode memory index (item H c index)) memory =
        overwritten H c n memory := by
  induction n with
  | zero => exact overwritten_zero.symm
  | succ n ih =>
    rw [Generation.firstNodes, List.foldr_cons, ih (by omega) (by omega),
      setNode_overwritten h (by omega)]

end Dataset

namespace Generation

open Program

variable {H : Hasher} {c : Cache} {count : UInt32} {memory : ByteArray}

theorem Record.Made.memory_eq_overwritten {m : Record ByteArray}
    (hm : m.Made H c count Dataset.setNode memory) (hsize : memory.size = 64 * count.toNat) {n : Nat}
    (hn : n ≤ count.toNat) (hwritten : m.written = firstNodes n) :
    m.memory = Dataset.overwritten H c n memory := by
  have hlt := count.toNat_lt
  rw [hm.memory_eq, hwritten, Dataset.foldr_firstNodes (by omega) (by omega)]

theorem Record.ComeTo.calls_eq {step n : Nat} {m : Record ByteArray} (hstep : 0 < step)
    (h : m.ComeTo step n) : m.calls = firstCalls step ((n + step - 1) / step) := by
  obtain ⟨k, hcalls, hle, hlt⟩ := h.calls
  have hk : (n + step - 1) / step = k := by
    apply Nat.div_eq_of_lt_le
    · omega
    · rw [Nat.succ_mul]
      omega
  rw [hcalls, hk]

/-! ### What the caller hears -/

/-- Calls that all went on, but for a last one. -/
theorem getElem?_concat_stop {front : List (UInt32 × Verdict)}
    (hfront : ∀ call ∈ front, call.2 = .goOn) {k : Nat} {percent percent' : UInt32}
    (h : (front ++ [(percent, .stop)])[k]? = some (percent', .stop)) : k = front.length := by
  rw [List.getElem?_append] at h
  split at h
  case isTrue hlt =>
    have := hfront _ (List.mem_of_getElem? h)
    contradiction
  case isFalse hge =>
    have hlt := (List.getElem?_eq_some_iff.mp h).1
    rw [List.length_singleton] at hlt
    omega

/-- The reports of the first `k` calls with the answers, in their order. -/
def firstHeard (count : UInt32) (step k : Nat) : List (UInt32 × Verdict) :=
  ((firstCalls step k).map fun call => (Dataset.percent call.1 count, call.2)).reverse

@[simp] theorem length_firstHeard (count : UInt32) (step k : Nat) :
    (firstHeard count step k).length = k := by
  simp [firstHeard]

theorem verdict_of_mem_firstHeard {step k : Nat} {call : UInt32 × Verdict}
    (h : call ∈ firstHeard count step k) : call.2 = .goOn := by
  rw [firstHeard, List.mem_reverse, List.mem_map] at h
  obtain ⟨first, hfirst, rfl⟩ := h
  show first.2 = .goOn
  exact verdict_of_mem_firstCalls hfirst

section

variable {step : Nat} {m : Record ByteArray} {outcome : Outcome} {heard : List (UInt32 × Verdict)}

theorem Record.ComeTo.heard_eq (hstep : 0 < step) {n : Nat} (h : m.ComeTo step n)
    (hheard : heard = (m.heard count).reverse) :
    heard = firstHeard count step ((n + step - 1) / step) := by
  rw [hheard, Record.heard, h.calls_eq hstep]
  rfl

theorem heard_concat {k : Nat} {node : UInt32} {verdict : Verdict}
    (hcalls : m.calls = (node, verdict) :: firstCalls step k)
    (hheard : heard = (m.heard count).reverse) :
    heard = firstHeard count step k ++ [(Dataset.percent node count, verdict)] := by
  rw [hheard, Record.heard, hcalls, List.map_cons, List.reverse_cons]
  rfl

theorem Record.InOrder.of_stop (hstep : 0 < step) (h : m.InOrder step count.toNat outcome)
    (hheard : heard = (m.heard count).reverse) {k : Nat} {percent : UInt32}
    (hstop : heard[k]? = some (percent, .stop)) :
    outcome = .cancelled ∧ heard.length = k + 1 ∧ k * step < count.toNat ∧
      m.written = firstNodes (k * step) := by
  cases h with
  | finished hall =>
    rw [hall.heard_eq hstep hheard] at hstop
    have := verdict_of_mem_firstHeard (List.mem_of_getElem? hstop)
    contradiction
  | cancelled j hj hwritten hcalls =>
    have hheard := heard_concat hcalls hheard
    rw [hheard] at hstop
    have hk := getElem?_concat_stop (fun _ => verdict_of_mem_firstHeard) hstop
    rw [length_firstHeard] at hk
    subst hk
    exact ⟨rfl, by simp [hheard], hj, hwritten⟩

theorem Record.InOrder.of_goOn (hstep : 0 < step) (h : m.InOrder step count.toNat outcome)
    (hheard : heard = (m.heard count).reverse) (hall : ∀ call ∈ heard, call.2 = .goOn) :
    outcome = .finished ∧ heard.length = (count.toNat + step - 1) / step ∧
      m.written = firstNodes count.toNat := by
  cases h with
  | finished hcome => exact ⟨rfl, by simp [hcome.heard_eq hstep hheard], hcome.written⟩
  | cancelled j hj hwritten hcalls =>
    rw [heard_concat hcalls hheard] at hall
    have := hall _ List.mem_concat_self
    contradiction

end

/-- How a memory is filled by one worker, with the calls that its caller hears, the latest first. -/
theorem ends_fill_sequential (hcount : Dataset.nodeCount memory.size = .ok count)
    {x : Except Error Unit × ByteArray} {heard : List (UInt32 × Verdict)}
    (he : Ends hearing (Dataset.fill H c false memory) [] x heard) :
    ∃ (m : Record ByteArray) (outcome : Outcome), heard = m.heard count ∧
      m.Made H c count Dataset.setNode memory ∧
      m.InOrder (Dataset.reportStep count).toNat count.toNat outcome ∧
      x = (match outcome with | .finished => .ok () | .cancelled => .error .cancelled, m.memory) := by
  rw [fill_eq hcount] at he
  have F :=
    (follows_keeping (H := H) (c := c) (hears_hearing count) (views_setNode count)).made memory
  have hkeeps := keeps_keepBy (keeps_sequential F memory (memory, []) ⟨⟨rfl, rfl⟩, .start memory⟩)
  obtain ⟨⟨outcome, kept⟩, s, hnodes, hlast⟩ := Reaches.of_bind he
  obtain ⟨m, ⟨⟨rfl, rfl⟩, hmade⟩, horder⟩ := hkeeps.ends hnodes
  refine ⟨m, outcome, ?_⟩
  cases outcome with
  | finished => cases hlast with | refl => exact ⟨rfl, hmade, horder, rfl⟩
  | cancelled => cases hlast with | refl => exact ⟨rfl, hmade, horder, rfl⟩

/-- Serves the requests to a caller whose answers are those of `callback`, which may remember what it
likes. The reports are noted with the answers, in their order. -/
def listening {ρ : Type} (callback : UInt32 → StateM ρ Verdict) :
    (r : Caller.Request) → StateM (ρ × List (UInt32 × Verdict)) (Caller.Answer r)
  | .report percent => fun (s, heard) =>
    let (verdict, s) := callback percent s
    (verdict, s, heard ++ [(percent, verdict)])
  | .log _ => pure ()
  | .pick others => pure ⟨0, Nat.succ_pos others⟩

theorem hearing_listening {ρ : Type} (callback : UInt32 → StateM ρ Verdict) (r : Caller.Request)
    (s : ρ × List (UInt32 × Verdict)) :
    hearing r s.2.reverse (listening callback r s).1 (listening callback r s).2.2.reverse := by
  cases r with
  | report percent => exact List.reverse_concat ..
  | log event => rfl
  | pick others => rfl

theorem run_fill_of_error {cause : Invalid} (hcause : Dataset.nodeCount memory.size = .error cause)
    (inParallel : Bool) {τ : Type} (serve : (r : Caller.Request) → StateM τ (Caller.Answer r))
    (s : τ) :
    (Dataset.fill H c inParallel memory).run serve s = ((.error (.invalid cause), memory), s) := by
  rw [Dataset.fill, hcause]
  rfl

/-- Whatever the callback answers, one worker fills a memory up to the node before which it is first
told to stop. -/
theorem sequential_fill_exact (H : Hasher) (c : Cache) (memory : ByteArray) {ρ : Type}
    (callback : UInt32 → StateM ρ Verdict) (s : ρ) :
    let x := (Dataset.fill H c false memory).run (listening callback) (s, [])
    let heard := x.2.2
    (∀ cause, Dataset.nodeCount memory.size = .error cause →
      x = ((.error (.invalid cause), memory), (s, []))) ∧
    ∀ count, Dataset.nodeCount memory.size = .ok count →
      let step := max (count.toNat / 100) 1
      (∀ k percent, heard[k]? = some (percent, .stop) →
        heard.length = k + 1 ∧ k * step < count.toNat ∧
          x.1 = (.error .cancelled, Dataset.bytes H c (k * step) ++
            memory.extract (64 * (k * step)) memory.size)) ∧
      ((∀ call ∈ heard, call.2 = .goOn) →
        heard.length = (count.toNat + step - 1) / step ∧
          x.1 = (.ok (), Dataset.bytes H c count.toNat)) := by
  intro x heard
  refine ⟨fun cause hcause => run_fill_of_error hcause false _ _, ?_⟩
  intro count hcount step
  have hsize := (Dataset.nodeCount_eq_ok hcount).1
  have hstep : 0 < step := by omega
  obtain ⟨m, outcome, hheard, hmade, horder, hx⟩ := ends_fill_sequential hcount
    (ends_view (fun s => s.2.reverse) (hearing_listening callback) _ (s, []))
  have hheard : heard = (m.heard count).reverse := List.reverse_eq_iff.mp hheard
  rw [toNat_reportStep] at horder
  constructor
  · intro k percent hstop
    obtain ⟨rfl, hlength, hk, hwritten⟩ := horder.of_stop hstep hheard hstop
    refine ⟨hlength, hk, hx.trans ?_⟩
    rw [hmade.memory_eq_overwritten hsize (Nat.le_of_lt hk) hwritten]
    rfl
  · intro hall
    obtain ⟨rfl, hlength, hwritten⟩ := horder.of_goOn hstep hheard hall
    refine ⟨hlength, hx.trans ?_⟩
    rw [hmade.memory_eq_overwritten hsize (Nat.le_refl _) hwritten, Dataset.overwritten_all hsize]

end Generation

end ProofOfWork
