import Mathlib.Data.Nat.Prime.Basic
import ProofOfWork.Prime

/-! Trial division by odd numbers finds the primes, and the search for one goes down by steps of two.
It keeps the parity of the number it starts from, so that from an odd number it comes to 3 at the
latest and passes no prime but 2, and a search from a greater number of the same parity never ends at
a smaller one. -/

namespace ProofOfWork.Prime

variable {n m : Nat}

/-! ### Trial division -/

theorem noOddDivisorFrom_eq_true_iff {d : Nat} : noOddDivisorFrom n d = true ↔
    ∀ k, d ≤ k → k % 2 = d % 2 → k * k ≤ n → ¬k ∣ n := by
  fun_induction noOddDivisorFrom n d with
  | case1 d hsq hdvd =>
    -- `d` itself divides
    simp only [Bool.false_eq_true, false_iff]
    intro hnone
    exact hnone d (Nat.le_refl d) rfl hsq (Nat.dvd_of_mod_eq_zero hdvd)
  | case2 d hsq hndvd ih =>
    rw [ih]
    constructor
    · intro hnone k hle hparity hk
      by_cases heq : k = d
      · rw [heq]
        exact fun hdvd => hndvd (Nat.mod_eq_zero_of_dvd hdvd)
      · exact hnone k (by omega) (by omega) hk
    · intro hnone k hle hparity
      exact hnone k (by omega) (by omega)
  | case3 d hsq =>
    -- from here on every square is past `n`
    refine iff_of_true rfl fun k hle _ hk => ?_
    have := Nat.mul_le_mul hle hle
    omega

theorem isPrime_iff : isPrime n = true ↔ n.Prime := by
  unfold isPrime
  split
  · rename_i hlt
    simp only [Bool.false_eq_true, false_iff]
    exact fun hprime => Nat.not_le_of_lt hlt hprime.two_le
  split
  · rename_i hge heven
    rw [decide_eq_true_iff]
    constructor
    · rintro rfl
      exact Nat.prime_two
    · intro hprime
      exact hprime.eq_two_or_odd.resolve_right (by omega)
  · rename_i hge hodd
    rw [noOddDivisorFrom_eq_true_iff, Nat.prime_def_le_sqrt]
    constructor
    · refine fun hnone => ⟨by omega, fun k htwo hk hdvd => ?_⟩
      -- a divisor of an odd number is odd, and not 1 it is 3 at least
      have hkodd : k % 2 = 1 := by
        by_contra heven
        exact hodd (Nat.mod_eq_zero_of_dvd (Nat.dvd_trans (Nat.dvd_of_mod_eq_zero (by omega)) hdvd))
      exact hnone k (by omega) hkodd (Nat.le_sqrt.mp hk) hdvd
    · rintro ⟨_, hnone⟩ k hle _ hk
      exact hnone k (by omega) (Nat.le_sqrt.mpr hk)

/-! ### The search -/

theorem searchDown_le (n : Nat) : searchDown n ≤ n := by
  fun_induction searchDown n with
  | case1 | case2 => omega
  | case3 n _ _ ih => omega

theorem isPrime_three : isPrime 3 = true := by simp [isPrime, noOddDivisorFrom]

theorem two_le_of_isPrime (h : isPrime n = true) : 2 ≤ n := by
  unfold isPrime at h
  split at h
  · contradiction
  · omega

theorem isPrime_searchDown (hodd : n % 2 = 1) (hn : 3 ≤ n) : isPrime (searchDown n) = true := by
  fun_induction searchDown n with
  | case1 n hprime => exact hprime
  | case2 n _ hlt => omega
  | case3 n hnot _ ih =>
    -- the search stops at 3 before it comes to 1
    have hne : n ≠ 3 := by
      intro heq
      exact hnot (heq ▸ isPrime_three)
    exact ih (by omega) (by omega)

theorem searchDown_mono (hle : n ≤ m) (hparity : n % 2 = m % 2) : searchDown n ≤ searchDown m := by
  -- the search from `m` comes to `n` unless it ends before
  fun_induction searchDown m with
  | case1 m _ => exact Nat.le_trans (searchDown_le n) hle
  | case2 m _ _ => exact Nat.le_trans (searchDown_le n) hle
  | case3 m hnot hge ih =>
    by_cases heq : n = m
    · have hstep : searchDown m = searchDown (m - 2) := by
        rw [searchDown, if_neg hnot, if_neg hge]
      rw [heq]
      exact Nat.le_of_eq hstep
    · exact ih (by omega) (by omega)

theorem searchDown_eq_self (hprime : isPrime n = true) : searchDown n = n := by
  rw [searchDown, if_pos hprime]

end ProofOfWork.Prime
