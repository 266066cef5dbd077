import ProofOfWork.Proofs.Epoch

/-! The sizes as words of 64 bits compute them. An operation here has no result where it would leave
the words, and so has a loop that comes to such an operation, which a loop without an end always
does. The sizes of all blocks come out nevertheless, and they are the greatest prime numbers of units
below their limits. -/

namespace ProofOfWork

namespace Words

def add (a b : UInt64) : Option UInt64 :=
  if a.toNat + b.toNat < UInt64.size then some (a + b) else none

def sub (a b : UInt64) : Option UInt64 := if b ≤ a then some (a - b) else none

def mul (a b : UInt64) : Option UInt64 :=
  if a.toNat * b.toNat < UInt64.size then some (a * b) else none

def div (a b : UInt64) : Option UInt64 := if b = 0 then none else some (a / b)

def mod (a b : UInt64) : Option UInt64 := if b = 0 then none else some (a % b)

theorem lt_of_add_two {d next : UInt64} (h : add d 2 = some next) : d < next := by
  obtain ⟨hfits, ⟨⟩⟩ := Option.ite_none_right_eq_some.mp h
  rw [UInt64.lt_iff_toNat_lt, UInt64.toNat_add, Nat.mod_eq_of_lt hfits]
  exact Nat.lt_add_of_pos_right (by decide)

/-- Whether none of `d`, `d + 2`, `d + 4`, … up to the square root of `n` divides `n`. -/
def noOddDivisorFrom (n d : UInt64) : Option Bool := do
  if (← mul d d) ≤ n then
    if (← mod n d) = 0 then return false
    else (add d 2).pbind fun next _ => noOddDivisorFrom n next
  else return true
termination_by UInt64.size - d.toNat
decreasing_by
  have := UInt64.lt_iff_toNat_lt.mp (lt_of_add_two ‹_›)
  have := next.toNat_lt_size
  omega

theorem noOddDivisorFrom_eq (n d : UInt64) :
    noOddDivisorFrom n d = (do
      if (← mul d d) ≤ n then
        if (← mod n d) = 0 then return false
        else noOddDivisorFrom n (← add d 2)
      else return true) := by
  rw [noOddDivisorFrom]
  simp only [Option.pbind_eq_bind, Option.bind_eq_bind]

def isPrime (n : UInt64) : Option Bool :=
  if n < 2 then some false
  else if n % 2 = 0 then some (n = 2)
  else noOddDivisorFrom n 3

def stepDown (unit size : UInt64) : Option UInt64 := do sub size (← mul 2 unit)

theorem stepDown_lt {unit size units next : UInt64} (hunits : div size unit = some units)
    (hnext : stepDown unit size = some next) : next < size := by
  obtain ⟨hunit, -⟩ := Option.ite_none_left_eq_some.mp hunits
  obtain ⟨double, hdouble, hsub⟩ := Option.bind_eq_some_iff.mp hnext
  obtain ⟨hfits, ⟨⟩⟩ := Option.ite_none_right_eq_some.mp hdouble
  obtain ⟨hle, ⟨⟩⟩ := Option.ite_none_right_eq_some.mp hsub
  have hdouble : (2 * unit).toNat = 2 * unit.toNat := by
    rw [UInt64.toNat_mul, Nat.mod_eq_of_lt hfits]
    rfl
  have hpos : 0 < unit.toNat := Nat.pos_of_ne_zero (mt (UInt64.toNat_inj (b := 0)).mp hunit)
  have hle' := UInt64.le_iff_toNat_le.mp hle
  rw [UInt64.lt_iff_toNat_lt, UInt64.toNat_sub_of_le _ _ hle]
  omega

/-- The first of `size`, `size - 2 * unit`, `size - 4 * unit`, … that is a prime number of units. -/
def searchDown (unit size : UInt64) : Option UInt64 :=
  (div size unit).pbind fun units _ => do
    if (← isPrime units) then return size
    else (stepDown unit size).pbind fun next _ => searchDown unit next
termination_by size.toNat
decreasing_by exact UInt64.lt_iff_toNat_lt.mp (stepDown_lt ‹_› ‹_›)

theorem searchDown_eq (unit size : UInt64) :
    searchDown unit size = (do
      if (← isPrime (← div size unit)) then return size
      else searchDown unit (← sub size (← mul 2 unit))) := by
  rw [searchDown]
  simp only [Option.pbind_eq_bind, Option.bind_eq_bind, stepDown, Option.bind_assoc]

/-- The size in an epoch that counts at most as the last one. -/
def primeSize (init growth unit epoch : UInt64) : Option UInt64 := do
  let limit ← add init (← mul growth (min epoch Params.maxEpoch.toUInt64))
  searchDown unit (← sub limit unit)

def cacheSize (block : UInt64) : Option UInt64 :=
  primeSize Params.cacheBytesInit.toUInt64 Params.cacheBytesGrowth.toUInt64
    Params.nodeBytes.toUInt64 (Epoch.ofBlock block)

def datasetSize (block : UInt64) : Option UInt64 :=
  primeSize Params.datasetBytesInit.toUInt64 Params.datasetBytesGrowth.toUInt64
    Params.mixBytes.toUInt64 (Epoch.ofBlock block)

/-! ### Operations on numbers that are words -/

section

variable {a b : Nat}

theorem add_ofNat (h : a + b < 2 ^ 64) : add (.ofNat a) (.ofNat b) = some (.ofNat (a + b)) := by
  have hfits : (UInt64.ofNat a).toNat + (UInt64.ofNat b).toNat < UInt64.size := by
    rw [UInt64.toNat_ofNat_of_lt' (by change a < 2 ^ 64; omega),
      UInt64.toNat_ofNat_of_lt' (by change b < 2 ^ 64; omega)]
    exact h
  rw [add, if_pos hfits, UInt64.ofNat_add]

theorem sub_ofNat (ha : a < 2 ^ 64) (h : b ≤ a) :
    sub (.ofNat a) (.ofNat b) = some (.ofNat (a - b)) := by
  have hle : UInt64.ofNat b ≤ UInt64.ofNat a :=
    (UInt64.ofNat_le_iff_le (Nat.lt_of_le_of_lt h ha) ha).mpr h
  rw [sub, if_pos hle, UInt64.ofNat_sub h]

theorem mul_ofNat (h : a * b < 2 ^ 64) : mul (.ofNat a) (.ofNat b) = some (.ofNat (a * b)) := by
  have hfits : (UInt64.ofNat a).toNat * (UInt64.ofNat b).toNat < UInt64.size := by
    rw [UInt64.toNat_ofNat', UInt64.toNat_ofNat']
    exact Nat.lt_of_le_of_lt (Nat.mul_le_mul (Nat.mod_le ..) (Nat.mod_le ..)) h
  rw [mul, if_pos hfits, UInt64.ofNat_mul]

theorem ofNat_eq_zero_iff (ha : a < 2 ^ 64) : UInt64.ofNat a = 0 ↔ a = 0 := by
  rw [UInt64.ofNat_eq_iff_mod_eq_toNat, Nat.mod_eq_of_lt ha]
  rfl

theorem div_ofNat (ha : a < 2 ^ 64) (hb : b < 2 ^ 64) (hpos : 0 < b) :
    div (.ofNat a) (.ofNat b) = some (.ofNat (a / b)) := by
  rw [div, if_neg (mt (ofNat_eq_zero_iff hb).mp (by omega)), UInt64.ofNat_div ha hb]

theorem mod_ofNat (ha : a < 2 ^ 64) (hb : b < 2 ^ 64) (hpos : 0 < b) :
    mod (.ofNat a) (.ofNat b) = some (.ofNat (a % b)) := by
  rw [mod, if_neg (mt (ofNat_eq_zero_iff hb).mp (by omega)), UInt64.ofNat_mod ha hb]

end

/-! ### Loops on numbers that are words -/

section

variable {n d unit : Nat}

theorem noOddDivisorFrom_step (hn : n < 2 ^ 62) (hpos : 0 < d) (hd : d < 2 ^ 32) :
    noOddDivisorFrom (.ofNat n) (.ofNat d) =
      if d * d ≤ n then
        if n % d = 0 then some false else noOddDivisorFrom (.ofNat n) (.ofNat (d + 2))
      else some true := by
  have hn' : n < 2 ^ 64 := by omega
  have hsq : d * d < 2 ^ 64 := Nat.mul_self_lt_mul_self hd
  have hmod : n % d < 2 ^ 64 := Nat.lt_of_le_of_lt (Nat.mod_le n d) hn'
  have htwo : add (.ofNat d) 2 = some (.ofNat (d + 2)) := add_ofNat (b := 2) (by omega)
  rw [noOddDivisorFrom_eq, mul_ofNat hsq, mod_ofNat hn' (by omega) hpos, htwo]
  simp only [Option.bind_eq_bind, Option.bind_some, UInt64.ofNat_le_iff_le hsq hn',
    ofNat_eq_zero_iff hmod, Option.pure_def]

theorem noOddDivisorFrom_ofNat (hn : n < 2 ^ 62) (hpos : 0 < d) (hd : d < 2 ^ 32) :
    noOddDivisorFrom (.ofNat n) (.ofNat d) = some (Prime.noOddDivisorFrom n d) := by
  fun_induction Prime.noOddDivisorFrom n d with
  | case1 d hle hdvd => rw [noOddDivisorFrom_step hn hpos hd, if_pos hle, if_pos hdvd]
  | case2 d hle hndvd ih =>
    -- the next divisor is a word of 32 bits as long as the square of this one is at most `n`
    have hd' : d < 2 ^ 31 := by
      by_contra hge
      have := Nat.mul_self_le_mul_self (Nat.not_lt.mp hge)
      omega
    rw [noOddDivisorFrom_step hn hpos hd, if_pos hle, if_neg hndvd, ih (by omega) (by omega)]
  | case3 d hgt => rw [noOddDivisorFrom_step hn hpos hd, if_neg hgt]

theorem isPrime_ofNat (hn : n < 2 ^ 62) : isPrime (.ofNat n) = some (Prime.isPrime n) := by
  have hn' : n < 2 ^ 64 := by omega
  have hlt : UInt64.ofNat n < 2 ↔ n < 2 := UInt64.ofNat_lt_iff_lt hn' (by decide)
  have hmod : UInt64.ofNat n % 2 = 0 ↔ n % 2 = 0 := by
    have hrem : UInt64.ofNat (n % 2) = UInt64.ofNat n % 2 := UInt64.ofNat_mod hn' (by decide)
    rw [← hrem, ofNat_eq_zero_iff (by omega)]
  have htwo : UInt64.ofNat n = 2 ↔ n = 2 := by
    rw [UInt64.ofNat_eq_iff_mod_eq_toNat, Nat.mod_eq_of_lt hn']
    rfl
  have hthree : noOddDivisorFrom (.ofNat n) 3 = some (Prime.noOddDivisorFrom n 3) :=
    noOddDivisorFrom_ofNat hn (by decide) (by decide)
  unfold isPrime Prime.isPrime
  simp only [hlt, hmod, htwo, hthree]
  split
  · rfl
  split <;> rfl

theorem searchDown_step (hunit : 0 < unit) (hn : 2 ≤ n) (hsize : unit * n < 2 ^ 62) :
    searchDown (.ofNat unit) (.ofNat (unit * n)) =
      if Prime.isPrime n then some (.ofNat (unit * n))
      else searchDown (.ofNat unit) (.ofNat (unit * (n - 2))) := by
  have hn' : n ≤ unit * n := Nat.le_mul_of_pos_left n hunit
  have htwo : unit * 2 ≤ unit * n := Nat.mul_le_mul_left unit hn
  have hdouble : mul 2 (.ofNat unit) = some (.ofNat (2 * unit)) := mul_ofNat (a := 2) (by omega)
  rw [searchDown_eq, div_ofNat (by omega) (by omega) hunit, Nat.mul_div_cancel_left n hunit,
    hdouble]
  simp only [Option.bind_eq_bind, Option.bind_some, isPrime_ofNat (show n < 2 ^ 62 by omega),
    sub_ofNat (show unit * n < 2 ^ 64 by omega) (show 2 * unit ≤ unit * n by omega), Option.pure_def,
    Nat.mul_sub, Nat.mul_comm unit 2]

/-- From an odd number of units the search ends before it would leave the words. -/
theorem searchDown_ofNat (hunit : 0 < unit) (hodd : n % 2 = 1) (hn : 3 ≤ n)
    (hsize : unit * n < 2 ^ 62) :
    searchDown (.ofNat unit) (.ofNat (unit * n)) = some (.ofNat (unit * Prime.searchDown n)) := by
  fun_induction Prime.searchDown n with
  | case1 n hprime => rw [searchDown_step hunit (by omega) hsize, if_pos hprime]
  | case2 n _ hlt => omega
  | case3 n hnot _ ih =>
    have hne : n ≠ 3 := by
      intro heq
      exact hnot (heq ▸ Prime.isPrime_three)
    have hless : unit * (n - 2) ≤ unit * n := Nat.mul_le_mul_left unit (Nat.sub_le n 2)
    rw [searchDown_step hunit (by omega) hsize, if_neg hnot, ih (by omega) (by omega) (by omega)]

end

/-! ### Sizes -/

open Epoch

variable (block : UInt64)

theorem min_maxEpoch :
    min (ofBlock block) Params.maxEpoch.toUInt64 = .ofNat (clamped block) := by
  have hlt : clamped block < 2 ^ 64 := Nat.lt_of_le_of_lt (clamped_le block) (by decide)
  apply UInt64.toNat_inj.mp
  rw [UInt64.toNat_min, UInt64.toNat_ofNat_of_lt' hlt]
  rfl

/-- Up to the limit and the first step down from it, nothing leaves the words either. -/
theorem primeSize_eq_some {init growth unit k : Nat} (hunit : 0 < unit) (hk : 2 ≤ k)
    (hlimit : init + growth * clamped block = 2 * k * unit) (hlt : 2 * k * unit < 2 ^ 62) :
    primeSize init.toUInt64 growth.toUInt64 unit.toUInt64 (ofBlock block) =
      some (.ofNat (unit * unitsBelow k)) := by
  have hstart : 2 * k * unit - unit = unit * (2 * k - 1) := by
    rw [Nat.mul_sub, Nat.mul_one, Nat.mul_comm unit]
  have hle : unit ≤ 2 * k * unit := Nat.le_mul_of_pos_left unit (by omega)
  have hgrown :
      mul growth.toUInt64 (.ofNat (clamped block)) = some (.ofNat (growth * clamped block)) :=
    mul_ofNat (by omega)
  have hsum :
      add init.toUInt64 (.ofNat (growth * clamped block)) = some (.ofNat (2 * k * unit)) := by
    rw [← hlimit]
    exact add_ofNat (by omega)
  have hstep : sub (.ofNat (2 * k * unit)) unit.toUInt64 = some (.ofNat (unit * (2 * k - 1))) := by
    rw [← hstart]
    exact sub_ofNat (by omega) hle
  rw [primeSize, min_maxEpoch, hgrown]
  simp only [Option.bind_eq_bind, Option.bind_some, hsum, hstep]
  exact searchDown_ofNat hunit (by omega) (by omega) (by omega)

theorem cacheSize_eq_some : cacheSize block = some (Epoch.cacheSize block) := by
  obtain ⟨htwo, hlt⟩ := cacheHalf_bounds block
  have hsome := primeSize_eq_some block (by decide) htwo (cacheLimit_eq block)
    (by simp only [Params.nodeBytes]; omega)
  rw [cacheSize, hsome, Params.nodeBytes, ← toNat_cacheSize, UInt64.ofNat_toNat]

theorem datasetSize_eq_some : datasetSize block = some (Epoch.datasetSize block) := by
  obtain ⟨htwo, hle⟩ := datasetHalf_bounds block
  have hsome := primeSize_eq_some block (by decide) htwo (datasetLimit_eq block)
    (by simp only [Params.mixBytes]; omega)
  rw [datasetSize, hsome, Params.mixBytes, ← toNat_datasetSize, UInt64.ofNat_toNat]

end Words

namespace Epoch

/-- The sizes of every block come out in words of 64 bits, and each is the greatest prime number of
units below what the limit for the epoch of the block comes to in units. -/
theorem sizes_greatest_primes (block : UInt64) :
    clamped block = min (block.toNat / 30000) Params.maxEpoch ∧
    (Words.cacheSize block = some (cacheSize block) ∧
      ∃ p, (cacheSize block).toNat = 64 * p ∧
        IsGreatest {p : Nat | p.Prime ∧ p < (2 ^ 30 + 2 ^ 17 * clamped block) / 64} p) ∧
    (Words.datasetSize block = some (datasetSize block) ∧
      ∃ q, (datasetSize block).toNat = 128 * q ∧
        IsGreatest {q : Nat | q.Prime ∧ q < (2 ^ 30 + 2 ^ 23 * clamped block) / 128} q) := by
  have hepoch : clamped block = min (block.toNat / 30000) Params.maxEpoch := by
    rw [clamped, toNat_ofBlock]
  have hcache : (2 ^ 30 + 2 ^ 17 * clamped block) / 64 = 2 * cacheHalf block := by
    rw [cacheHalf]
    omega
  have hdataset : (2 ^ 30 + 2 ^ 23 * clamped block) / 128 = 2 * datasetHalf block := by
    rw [datasetHalf]
    omega
  rw [hcache, hdataset]
  refine ⟨hepoch, ⟨Words.cacheSize_eq_some block, _, toNat_cacheSize block, ?_⟩,
    Words.datasetSize_eq_some block, _, toNat_datasetSize block, ?_⟩
  · exact isGreatest_unitsBelow (cacheHalf_bounds block).1
  · exact isGreatest_unitsBelow (datasetHalf_bounds block).1

end Epoch

end ProofOfWork
