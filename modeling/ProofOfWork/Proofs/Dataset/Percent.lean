import ProofOfWork.Dataset.Size

/-! The percentages at which one worker reports. The nodes between two reports are a hundredth of all
nodes, rounded down, while the percentage is rounded up: there may be more than a hundred reports, and
yet none but the last can be one of 100. -/

namespace ProofOfWork.Dataset

/-- `percent` on numbers. -/
def percentOf (n count : Nat) : Nat := (n * 100 + count - 1) / count

/-- The nodes between two reports, `reportStep` on numbers. -/
def stride (count : Nat) : Nat := max (count / 100) 1

/-- The number of reports. -/
def reportCount (count : Nat) : Nat := (count + stride count - 1) / stride count

/-- The percentages of one worker that is not stopped, in their order. -/
def reports (count : Nat) : List Nat :=
  (List.range (reportCount count)).map fun k => percentOf (k * stride count) count

variable {n m count p k : Nat}

/-! ### One percentage -/

theorem percentOf_le_iff (hcount : 0 < count) : percentOf n count ≤ p ↔ n * 100 ≤ p * count := by
  rw [percentOf, Nat.div_le_iff_le_mul_add_pred hcount, Nat.mul_comm p]
  omega

theorem lt_percentOf_iff (hcount : 0 < count) : p < percentOf n count ↔ p * count < n * 100 := by
  rw [← Nat.not_le, percentOf_le_iff hcount, Nat.not_le]

theorem percentOf_zero (hcount : 0 < count) : percentOf 0 count = 0 := by
  rw [← Nat.le_zero, percentOf_le_iff hcount]
  omega

theorem percentOf_mono (hcount : 0 < count) (h : n ≤ m) : percentOf n count ≤ percentOf m count := by
  rw [percentOf_le_iff hcount]
  calc n * 100 ≤ m * 100 := Nat.mul_le_mul_right 100 h
    _ ≤ percentOf m count * count := (percentOf_le_iff hcount).mp (Nat.le_refl _)

theorem percentOf_le_hundred (hcount : 0 < count) (h : n ≤ count) : percentOf n count ≤ 100 := by
  rw [percentOf_le_iff hcount]
  omega

/-- A hundredth of the nodes is at most one percent. -/
theorem percentOf_add_le (hcount : 0 < count) (h : m * 100 ≤ count) :
    percentOf (n + m) count ≤ percentOf n count + 1 := by
  have hn := (percentOf_le_iff hcount).mp (Nat.le_refl (percentOf n count))
  rw [percentOf_le_iff hcount, Nat.add_mul, Nat.add_mul, Nat.one_mul]
  omega

theorem toNat_percent {n count : UInt32} (hcount : 0 < count.toNat) (h : n.toNat ≤ count.toNat) :
    (percent n count).toNat = percentOf n.toNat count.toNat := by
  refine UInt32.toNat_ofNat_of_lt' ?_
  have hle := percentOf_le_hundred hcount h
  exact Nat.lt_of_le_of_lt hle (by decide)

/-! ### The reports of one worker -/

theorem stride_pos (count : Nat) : 0 < stride count := by
  unfold stride
  omega

theorem stride_mul_le (h : 100 ≤ count) : stride count * 100 ≤ count := by
  unfold stride
  omega

/-- A node is the start of a chunk of `step` nodes when it is within the dataset. -/
theorem lt_chunks_iff {i n step : Nat} (h : 0 < step) :
    i < (n + step - 1) / step ↔ i * step < n := by
  rw [← Nat.succ_le_iff, Nat.le_div_iff_mul_le h, Nat.succ_mul]
  omega

theorem lt_reportCount_iff : k < reportCount count ↔ k * stride count < count :=
  lt_chunks_iff (stride_pos count)

/-- After the last report there is no stride left. -/
theorem exists_last_report (hcount : 0 < count) : ∃ m, reportCount count = m + 1 ∧
    m * stride count < count ∧ count ≤ (m + 1) * stride count := by
  have hpos : 0 < reportCount count := by
    rw [lt_reportCount_iff, Nat.zero_mul]
    exact hcount
  obtain ⟨m, hm⟩ := Nat.exists_eq_succ_of_ne_zero (Nat.ne_of_gt hpos)
  refine ⟨m, hm, ?_, ?_⟩
  · rw [← lt_reportCount_iff]
    omega
  · rw [← Nat.not_lt, ← lt_reportCount_iff]
    omega

theorem getElem_reports (h : k < (reports count).length) :
    (reports count)[k] = percentOf (k * stride count) count := by
  simp [reports]

theorem mem_reports : p ∈ reports count ↔
    ∃ k, k * stride count < count ∧ percentOf (k * stride count) count = p := by
  simp only [reports, List.mem_map, List.mem_range, lt_reportCount_iff]

theorem head?_reports (hcount : 0 < count) : (reports count).head? = some 0 := by
  obtain ⟨m, hm, -, -⟩ := exists_last_report hcount
  rw [reports, hm, List.range_succ_eq_map, List.map_cons, List.head?_cons, Nat.zero_mul,
    percentOf_zero hcount]

theorem pairwise_reports (hcount : 0 < count) : (reports count).Pairwise (· ≤ ·) := by
  rw [reports, List.pairwise_map]
  refine List.pairwise_lt_range.imp fun {i j} hij => ?_
  exact percentOf_mono hcount (Nat.mul_le_mul_right _ (Nat.le_of_lt hij))

theorem le_hundred_of_mem_reports (h : p ∈ reports count) : p ≤ 100 := by
  obtain ⟨k, hk, rfl⟩ := mem_reports.mp h
  exact percentOf_le_hundred (by omega) (Nat.le_of_lt hk)

theorem reports_succ_le (h : 100 ≤ count) (hk : k + 1 < (reports count).length) :
    (reports count)[k + 1] ≤ (reports count)[k] + 1 := by
  rw [getElem_reports, getElem_reports, Nat.succ_mul]
  exact percentOf_add_le (by omega) (stride_mul_le h)

/-- A sequence that starts at zero and never rises by more than one misses no value. -/
theorem exists_eq_of_steps {f : Nat → Nat} (hzero : f 0 = 0) (hstep : ∀ k, f (k + 1) ≤ f k + 1)
    (hp : p ≤ f m) : ∃ k ≤ m, f k = p := by
  induction m with
  | zero => exact ⟨0, Nat.le_refl 0, by omega⟩
  | succ m ih =>
    by_cases hle : p ≤ f m
    · obtain ⟨k, hk, hf⟩ := ih hle
      exact ⟨k, Nat.le_succ_of_le hk, hf⟩
    · have := hstep m
      exact ⟨m + 1, Nat.le_refl _, by omega⟩

theorem mem_reports_of_lt_hundred (h : 100 ≤ count) (hp : p < 100) : p ∈ reports count := by
  have hcount : 0 < count := by omega
  have hstride := stride_mul_le h
  obtain ⟨m, -, hm, hend⟩ := exists_last_report hcount
  rw [Nat.succ_mul] at hend
  have hlast : 98 < percentOf (m * stride count) count := by
    rw [lt_percentOf_iff hcount]
    omega
  have hsteps (k : Nat) : percentOf ((k + 1) * stride count) count ≤
      percentOf (k * stride count) count + 1 := by
    rw [Nat.succ_mul]
    exact percentOf_add_le hcount hstride
  have hzero : percentOf (0 * stride count) count = 0 := by
    rw [Nat.zero_mul, percentOf_zero hcount]
  obtain ⟨k, hk, rfl⟩ := exists_eq_of_steps (f := fun k => percentOf (k * stride count) count) hzero
    hsteps (Nat.le_trans (Nat.le_of_lt_succ hp) hlast)
  exact mem_reports.mpr ⟨k, Nat.lt_of_le_of_lt (Nat.mul_le_mul_right _ hk) hm, rfl⟩

/-! ### The report of 100 -/

/-- Only the last report can be one of 100, and it is if the strides do not fill the whole. -/
theorem percentOf_eq_hundred_iff (hk : k * stride count < count) :
    percentOf (k * stride count) count = 100 ↔
      (100 ≤ count ∧ count % 100 ≠ 0) ∧ count ≤ (k + 1) * stride count := by
  have hcount : 0 < count := by omega
  have hle := percentOf_le_hundred hcount (Nat.le_of_lt hk)
  have heq : percentOf (k * stride count) count = 100 ↔ 99 * count < k * stride count * 100 := by
    rw [← lt_percentOf_iff hcount]
    omega
  rw [heq, Nat.succ_mul k]
  by_cases hlarge : 100 ≤ count
  · have hstride : stride count = count / 100 := by
      unfold stride
      omega
    rw [hstride] at hk ⊢
    by_cases hwhole : count % 100 = 0
    · -- a hundred strides are the whole, and the last of them starts at 99 percent
      have hmul : count = 100 * (count / 100) := by omega
      have hk' : k < 100 := by
        refine Nat.lt_of_mul_lt_mul_right (a := count / 100) ?_
        omega
      have := Nat.mul_le_mul_right (count / 100) (Nat.le_of_lt_succ hk')
      omega
    · omega
  · have hstride : stride count = 1 := by
      unfold stride
      omega
    rw [hstride] at hk ⊢
    omega

theorem count_hundred_reports (hcount : 0 < count) :
    (reports count).count 100 = if 100 ≤ count ∧ count % 100 ≠ 0 then 1 else 0 := by
  obtain ⟨m, hm, hlast, hend⟩ := exists_last_report hcount
  have hbefore : 100 ∉ (List.range m).map fun k => percentOf (k * stride count) count := by
    simp only [List.mem_map, List.mem_range, not_exists, not_and]
    intro k hk heq
    have hle := Nat.mul_le_mul_right (stride count) (show k + 1 ≤ m from hk)
    have hlt : k * stride count < count := by
      rw [Nat.succ_mul] at hle
      omega
    have := ((percentOf_eq_hundred_iff hlt).mp heq).2
    omega
  have hiff := percentOf_eq_hundred_iff hlast
  rw [reports, hm, List.range_succ, List.map_append, List.count_append,
    List.count_eq_zero_of_not_mem hbefore, Nat.zero_add, List.map_singleton, List.count_singleton]
  simp only [beq_iff_eq, hiff, hend, and_true]

end ProofOfWork.Dataset
