import Mathlib.Order.Bounds.Defs
import ProofOfWork.Cache
import ProofOfWork.Epoch
import ProofOfWork.Proofs.Cache
import ProofOfWork.Proofs.Dataset.Bytes
import ProofOfWork.Proofs.Prime

/-! The sizes of caches and datasets, epoch by epoch. Every size is one that caches and datasets can
have, and sizes never shrink from a block to a later one. -/

namespace ProofOfWork

open Params

theorem Dataset.exists_nodeCount_eq_ok {size : Nat} (hpos : 0 < size) (hpages : size % 128 = 0)
    (hlt : size / 64 < 2 ^ 32) : ∃ count, nodeCount size = .ok count := by
  rw [nodeCount_eq, if_neg (by omega), if_neg (by omega)]
  exact ⟨_, rfl⟩

namespace Epoch

open ProofOfWork.Prime

variable {block block' : UInt64}

/-! ### Epochs as they count -/

theorem toNat_ofBlock (block : UInt64) : (ofBlock block).toNat = block.toNat / 30000 :=
  UInt64.toNat_div ..

theorem clamped_le (block : UInt64) : clamped block ≤ 32640 := Nat.min_le_right ..

theorem clamped_mono (h : block ≤ block') : clamped block ≤ clamped block' := by
  rw [UInt64.le_iff_toNat_le] at h
  have hdiv : (ofBlock block).toNat ≤ (ofBlock block').toNat := by
    rw [toNat_ofBlock, toNat_ofBlock]
    exact Nat.div_le_div_right h
  unfold clamped
  omega

theorem clamped_eq_of_maxEpoch_le (h : maxEpoch ≤ (ofBlock block).toNat) :
    clamped block = maxEpoch := Nat.min_eq_right h

theorem exists_check_eq_error_iff :
    (∃ cause, check block = .error cause) ↔ maxEpoch < (ofBlock block).toNat := by
  by_cases h : maxEpoch < (ofBlock block).toNat <;> simp [check, h]

theorem exists_ofBlock?_eq_error_iff (H : Hasher) :
    (∃ cause, EpochInfo.ofBlock? H block = .error cause) ↔ ∃ cause, check block = .error cause := by
  unfold EpochInfo.ofBlock?
  cases check block with
  | ok epoch => simp [bind, Except.bind, pure, Except.pure]
  | error cause => simp [bind, Except.bind]

/-! ### Sizes below a limit -/

/-- The units of a size that stays below `2 * k` units. -/
def unitsBelow (k : Nat) : Nat := searchDown (2 * k - 1)

section

variable {k k' : Nat}

theorem unitsBelow_lt (hk : 0 < k) : unitsBelow k < 2 * k := by
  have hle := searchDown_le (2 * k - 1)
  unfold unitsBelow
  omega

theorem isPrime_unitsBelow (hk : 2 ≤ k) : isPrime (unitsBelow k) = true := by
  apply isPrime_searchDown <;> omega

theorem isGreatest_unitsBelow (hk : 2 ≤ k) :
    IsGreatest {p : Nat | p.Prime ∧ p < 2 * k} (unitsBelow k) := by
  refine ⟨⟨isPrime_iff.mp (isPrime_unitsBelow hk), unitsBelow_lt (by omega)⟩, ?_⟩
  rintro p ⟨hprime, hlt⟩
  rcases hprime.eq_two_or_odd with rfl | hodd
  · exact two_le_of_isPrime (isPrime_unitsBelow hk)
  · -- the search passes every odd number below the limit
    calc p = searchDown p := (searchDown_eq_self (isPrime_iff.mpr hprime)).symm
      _ ≤ searchDown (2 * k - 1) := searchDown_mono (by omega) (by omega)

theorem unitsBelow_mono (hk : 0 < k) (hle : k ≤ k') : unitsBelow k ≤ unitsBelow k' := by
  apply searchDown_mono <;> omega

/-- Below a limit of an even number of units, the search starts at an odd one. -/
theorem toNat_primeSize {limit unit : Nat} (hunit : 0 < unit) (hlimit : limit = 2 * k * unit)
    (hk : 0 < k) (hlt : limit < 2 ^ 64) :
    (primeSize limit unit).toUInt64.toNat = unit * unitsBelow k := by
  have hle : unit * unitsBelow k ≤ limit := by
    rw [hlimit, Nat.mul_comm]
    exact Nat.mul_le_mul_right unit (Nat.le_of_lt (unitsBelow_lt hk))
  have hsize : primeSize limit unit = unit * unitsBelow k := by
    rw [primeSize, hlimit, Nat.mul_div_cancel _ hunit, unitsBelow]
  rw [hsize, Nat.toUInt64_eq, UInt64.toNat_ofNat', Nat.mod_eq_of_lt (by omega)]

end

/-- Half of the units below the limit for a cache. -/
def cacheHalf (block : UInt64) : Nat := 2 ^ 23 + 2 ^ 10 * clamped block

/-- Half of the units below the limit for a dataset. -/
def datasetHalf (block : UInt64) : Nat := 2 ^ 22 + 2 ^ 15 * clamped block

theorem cacheLimit_eq (block : UInt64) :
    cacheBytesInit + cacheBytesGrowth * clamped block = 2 * cacheHalf block * nodeBytes := by
  simp only [cacheBytesInit, cacheBytesGrowth, nodeBytes, cacheHalf]
  omega

theorem datasetLimit_eq (block : UInt64) :
    datasetBytesInit + datasetBytesGrowth * clamped block = 2 * datasetHalf block * mixBytes := by
  simp only [datasetBytesInit, datasetBytesGrowth, mixBytes, datasetHalf]
  omega

theorem toNat_cacheSize (block : UInt64) :
    (cacheSize block).toNat = 64 * unitsBelow (cacheHalf block) := by
  have hle := clamped_le block
  apply toNat_primeSize
  · decide
  · exact cacheLimit_eq block
  · simp only [cacheHalf]
    omega
  · simp only [cacheBytesInit, cacheBytesGrowth]
    omega

theorem toNat_datasetSize (block : UInt64) :
    (datasetSize block).toNat = 128 * unitsBelow (datasetHalf block) := by
  have hle := clamped_le block
  apply toNat_primeSize
  · decide
  · exact datasetLimit_eq block
  · simp only [datasetHalf]
    omega
  · simp only [datasetBytesInit, datasetBytesGrowth]
    omega

theorem cacheHalf_bounds (block : UInt64) : 2 ≤ cacheHalf block ∧ cacheHalf block < 2 ^ 26 := by
  have hle := clamped_le block
  simp only [cacheHalf]
  omega

/-- The last epoch still has fewer dataset nodes than there are indices of 32 bits. -/
theorem datasetHalf_bounds (block : UInt64) :
    2 ≤ datasetHalf block ∧ datasetHalf block ≤ 2 ^ 30 := by
  have hle := clamped_le block
  simp only [datasetHalf]
  omega

theorem isPrime_cacheSize_div (block : UInt64) :
    isPrime ((cacheSize block).toNat / 64) = true := by
  rw [toNat_cacheSize, Nat.mul_div_cancel_left _ (by decide)]
  exact isPrime_unitsBelow (cacheHalf_bounds block).1

theorem isPrime_datasetSize_div (block : UInt64) :
    isPrime ((datasetSize block).toNat / 128) = true := by
  rw [toNat_datasetSize, Nat.mul_div_cancel_left _ (by decide)]
  exact isPrime_unitsBelow (datasetHalf_bounds block).1

theorem cacheSize_bounds (block : UInt64) :
    0 < (cacheSize block).toNat ∧ (cacheSize block).toNat % 64 = 0 ∧
      (cacheSize block).toNat < 2 ^ 33 := by
  obtain ⟨htwo, hlt⟩ := cacheHalf_bounds block
  have hprime := two_le_of_isPrime (isPrime_unitsBelow htwo)
  have hunits := unitsBelow_lt (k := cacheHalf block) (by omega)
  rw [toNat_cacheSize]
  omega

theorem datasetSize_bounds (block : UInt64) :
    0 < (datasetSize block).toNat ∧ (datasetSize block).toNat % 128 = 0 ∧
      (datasetSize block).toNat < 2 ^ 38 := by
  obtain ⟨htwo, hle⟩ := datasetHalf_bounds block
  have hprime := two_le_of_isPrime (isPrime_unitsBelow htwo)
  have hunits := unitsBelow_lt (k := datasetHalf block) (by omega)
  rw [toNat_datasetSize]
  omega

theorem exists_nodeCount_cacheSize (block : UInt64) :
    ∃ n, Cache.nodeCount (cacheSize block).toNat = .ok n := by
  obtain ⟨hpos, hnodes, hlt⟩ := cacheSize_bounds block
  exact Cache.exists_nodeCount_eq_ok hpos hnodes (by omega)

theorem exists_nodeCount_datasetSize (block : UInt64) :
    ∃ count, Dataset.nodeCount (datasetSize block).toNat = .ok count := by
  obtain ⟨hpos, hpages, hlt⟩ := datasetSize_bounds block
  exact Dataset.exists_nodeCount_eq_ok hpos hpages (by omega)

theorem cacheSize_mono (h : block ≤ block') : cacheSize block ≤ cacheSize block' := by
  have hclamped := clamped_mono h
  rw [UInt64.le_iff_toNat_le, toNat_cacheSize, toNat_cacheSize]
  apply Nat.mul_le_mul_left
  apply unitsBelow_mono
  · exact Nat.lt_of_succ_lt (cacheHalf_bounds block).1
  · simp only [cacheHalf]
    omega

theorem datasetSize_mono (h : block ≤ block') : datasetSize block ≤ datasetSize block' := by
  have hclamped := clamped_mono h
  rw [UInt64.le_iff_toNat_le, toNat_datasetSize, toNat_datasetSize]
  apply Nat.mul_le_mul_left
  apply unitsBelow_mono
  · exact Nat.lt_of_succ_lt (datasetHalf_bounds block).1
  · simp only [datasetHalf]
    omega

/-- What the blocks of an epoch have in common, and those past the last epoch with the blocks of it. -/
theorem sizes_congr (h : clamped block = clamped block') :
    cacheSize block = cacheSize block' ∧ datasetSize block = datasetSize block' ∧
      ∀ H, seed H block = seed H block' := by
  unfold cacheSize datasetSize seed
  rw [h]
  exact ⟨rfl, rfl, fun _ => rfl⟩

end Epoch

end ProofOfWork
