import ProofOfWork.Proofs.Hashimoto.Lookups
import ProofOfWork.Target

/-! Targets as numbers. A hash meets the boundary of a difficulty exactly when its number times the
difficulty is at most `2 ^ 256`, and the hash that a claimed mix digest leads to is the hash that the
digest came with. -/

namespace ProofOfWork

namespace Target

/-- The number that bytes stand for, the most significant byte first. -/
def bigEndian : List UInt8 → Nat
  | [] => 0
  | b :: bs => b.toNat * 256 ^ bs.length + bigEndian bs

theorem bigEndian_lt (bs : List UInt8) : bigEndian bs < 256 ^ bs.length := by
  induction bs with
  | nil => exact Nat.one_pos
  | cons b bs ih =>
    have hb : b.toNat + 1 ≤ 256 := b.toNat_lt
    have hmul : (b.toNat + 1) * 256 ^ bs.length ≤ 256 * 256 ^ bs.length := Nat.mul_le_mul_right _ hb
    rw [bigEndian, List.length_cons, Nat.pow_succ']
    rw [Nat.succ_mul] at hmul
    omega

/-- A greater first byte outweighs all bytes after it. -/
theorem bigEndian_cons_lt {a b : UInt8} {as bs : List UInt8} (hlength : as.length = bs.length)
    (h : a < b) : bigEndian (a :: as) < bigEndian (b :: bs) := by
  have hlt := bigEndian_lt as
  have hmul : (a.toNat + 1) * 256 ^ as.length ≤ b.toNat * 256 ^ as.length := by
    apply Nat.mul_le_mul_right
    exact UInt8.lt_iff_toNat_lt.mp h
  rw [Nat.succ_mul] at hmul
  rw [bigEndian, bigEndian, ← hlength]
  omega

theorem atMost_iff {as bs : List UInt8} (hlength : as.length = bs.length) :
    atMost as bs = true ↔ bigEndian as ≤ bigEndian bs := by
  induction as generalizing bs with
  | nil => simp [atMost, bigEndian]
  | cons a as ih =>
    cases bs with
    | nil => contradiction
    | cons b bs =>
      have hlength : as.length = bs.length := Nat.succ.inj hlength
      rw [atMost]
      by_cases heq : a = b
      · rw [if_pos heq, ih hlength, bigEndian, bigEndian, heq, hlength, Nat.add_le_add_iff_left]
      · rw [if_neg heq, decide_eq_true_iff]
        refine ⟨fun hlt => Nat.le_of_lt (bigEndian_cons_lt hlength hlt), fun hle => ?_⟩
        apply UInt8.lt_of_le_of_ne _ heq
        apply UInt8.not_lt.mp
        intro hgt
        have := bigEndian_cons_lt hlength.symm hgt
        omega

theorem meets_iff (hash boundary : Hash256) :
    meets hash boundary = true ↔ bigEndian hash.toList ≤ bigEndian boundary.toList := by
  apply atMost_iff
  rw [ByteVector.length_toList, ByteVector.length_toList]

/-! ### Long division -/

/-- What is left of a remainder after the division has given `n` digits. -/
def remainderAfter (divisor : Nat) : (n : Nat) → (remainder : Nat) → Nat
  | 0, remainder => remainder
  | n + 1, remainder => remainderAfter divisor n (remainder * 256 % divisor)

section

variable {divisor remainder : Nat}

theorem remainderAfter_lt (h : remainder < divisor) (n : Nat) :
    remainderAfter divisor n remainder < divisor := by
  induction n generalizing remainder with
  | zero => exact h
  | succ n ih => exact ih (Nat.mod_lt _ (by omega))

/-- The division never runs into a digit that is no byte, for its remainder is less than the
divisor. -/
theorem digit_lt (h : remainder < divisor) : remainder * 256 / divisor < 256 := by
  apply Nat.div_lt_of_lt_mul
  exact Nat.mul_lt_mul_of_pos_right h (by decide)

theorem toNat_digit (h : remainder < divisor) :
    (remainder * 256 / divisor).toUInt8.toNat = remainder * 256 / divisor :=
  UInt8.toNat_ofNat_of_lt' (digit_lt h)

theorem toNat_getElem_quotientBytes (h : remainder < divisor) {count i : Nat}
    (hi : i < (quotientBytes divisor count remainder).length) :
    (quotientBytes divisor count remainder)[i].toNat =
      remainderAfter divisor i remainder * 256 / divisor := by
  induction count generalizing remainder i with
  | zero => contradiction
  | succ count ih =>
    cases i with
    | zero => exact toNat_digit h
    | succ i => exact ih (Nat.mod_lt _ (by omega)) _

theorem bigEndian_quotientBytes (h : remainder < divisor) (count : Nat) :
    bigEndian (quotientBytes divisor count remainder) = remainder * 256 ^ count / divisor := by
  have hpos : 0 < divisor := by omega
  induction count generalizing remainder with
  | zero => simp [quotientBytes, bigEndian, Nat.div_eq_of_lt h]
  | succ count ih =>
    rw [quotientBytes, bigEndian, length_quotientBytes, toNat_digit h, ih (Nat.mod_lt _ hpos)]
    -- the digits so far and the remainder make up what was divided
    have hsplit : remainder * 256 ^ (count + 1) =
        divisor * (remainder * 256 / divisor * 256 ^ count) +
          remainder * 256 % divisor * 256 ^ count := by
      rw [← Nat.mul_assoc, ← Nat.add_mul, Nat.div_add_mod, Nat.pow_succ', Nat.mul_assoc]
    rw [hsplit, Nat.mul_add_div hpos]

end

/-! ### The boundary of a difficulty -/

section

variable {difficulty : UInt64}

theorem ofDifficulty_of_lt (h : 1 < difficulty) :
    ofDifficulty difficulty =
      ⟨⟨(quotientBytes difficulty.toNat 32 1).toArray⟩, length_quotientBytes ..⟩ := by
  apply if_neg
  exact UInt64.not_le.mpr h

theorem one_lt_toNat (h : 1 < difficulty) : 1 < difficulty.toNat := UInt64.lt_iff_toNat_lt.mp h

theorem bigEndian_ofDifficulty (h : 1 < difficulty) :
    bigEndian (ofDifficulty difficulty).toList = 2 ^ 256 / difficulty.toNat := by
  rw [ofDifficulty_of_lt h]
  exact bigEndian_quotientBytes (one_lt_toNat h) 32

theorem bigEndian_ofDifficulty_of_le (h : difficulty ≤ 1) :
    bigEndian (ofDifficulty difficulty).toList = 2 ^ 256 - 1 := by
  rw [ofDifficulty, if_pos h]
  decide +kernel

theorem toNat_getElem_ofDifficulty (h : 1 < difficulty) {i : Nat} (hi : i < 32) :
    (ofDifficulty difficulty)[i].toNat =
      remainderAfter difficulty.toNat i 1 * 256 / difficulty.toNat := by
  simp only [ofDifficulty_of_lt h]
  exact toNat_getElem_quotientBytes (one_lt_toNat h) (by rwa [length_quotientBytes])

theorem meets_ofDifficulty_iff (hash : Hash256) (difficulty : UInt64) :
    meets hash (ofDifficulty difficulty) = true ↔
      bigEndian hash.toList * difficulty.toNat ≤ 2 ^ 256 := by
  rw [meets_iff]
  by_cases h : difficulty ≤ 1
  · have hlt := bigEndian_lt hash.toList
    rw [ByteVector.length_toList] at hlt
    have hmul : bigEndian hash.toList * difficulty.toNat ≤ bigEndian hash.toList * 1 :=
      Nat.mul_le_mul_left _ (UInt64.le_iff_toNat_le.mp h)
    rw [bigEndian_ofDifficulty_of_le h]
    omega
  · have h : 1 < difficulty := UInt64.not_le.mp h
    have hpos : 0 < difficulty.toNat := Nat.lt_of_succ_lt (one_lt_toNat h)
    rw [bigEndian_ofDifficulty h, Nat.le_div_iff_mul_le hpos]

end

end Target

/-! ### Claimed mix digests -/

namespace Hashimoto

open Program

/-- Wherever the nodes come from, the result is the last hash of the mix digest beside it. -/
theorem keeps_overNodes_result {H : Hasher} {σ : Type} {W : Serving NodeLookup σ} (count : UInt32)
    (header : Hash256) (nonce : UInt64) (s : σ) :
    Keeps W (fun _ _ => True) (fun out _ => Target.quickHash H header nonce out.mixHash = out.result)
      (overNodes H count header nonce) s := by
  apply Keeps.bind (keeps_trivial _ _)
  intro mix s _
  rfl

end Hashimoto

namespace Target

open Hashimoto Program

/-- A hash meets the boundary of a difficulty exactly when its number times the difficulty is at
most `2 ^ 256`. From difficulty 2 on the boundary is `2 ^ 256` divided by the difficulty: each digit
of the long division fits in a byte, and what is divided fits in 128 bits. The check of a claimed mix
digest decides as the check of the hash that the digest came with, wherever the nodes of the dataset
came from. -/
theorem acceptance_exact (H : Hasher) :
    (∀ (difficulty : UInt64) (hash : Hash256), meets hash (ofDifficulty difficulty) = true ↔
      bigEndian hash.toList * difficulty.toNat ≤ 2 ^ 256) ∧
    (∀ difficulty : UInt64, 1 < difficulty →
      bigEndian (ofDifficulty difficulty).toList = 2 ^ 256 / difficulty.toNat ∧
      ∀ (i : Nat) (_ : i < 32),
        remainderAfter difficulty.toNat i 1 * 256 < 2 ^ 128 ∧
        (ofDifficulty difficulty)[i].toNat =
          remainderAfter difficulty.toNat i 1 * 256 / difficulty.toNat) ∧
    ∀ (size : Nat) (count : UInt32), Dataset.nodeCount size = .ok count →
      ∀ (header : Hash256) (nonce : UInt64), ∃ p, program H size header nonce = .ok p ∧
        (∀ nodes, compute H size nodes header nonce = .ok (p.eval (I := NodeLookup) nodes)) ∧
        ∀ (σ : Type) (W : Serving NodeLookup σ) (s s' : σ) (out : PowHash), Ends W p s out s' →
          ∀ boundary,
            quickMeets H header nonce out.mixHash boundary = meets out.result boundary := by
  refine ⟨fun difficulty hash => meets_ofDifficulty_iff hash difficulty, ?_, ?_⟩
  · intro difficulty h
    refine ⟨bigEndian_ofDifficulty h, fun i hi => ⟨?_, toNat_getElem_ofDifficulty h hi⟩⟩
    have hlt := remainderAfter_lt (one_lt_toNat h) i
    have hword := difficulty.toNat_lt
    omega
  · intro size count hcount header nonce
    refine ⟨_, program_eq_ok hcount header nonce, compute_eq_ok hcount header nonce, ?_⟩
    intro σ W s s' out h boundary
    rw [quickMeets, (keeps_overNodes_result count header nonce s).ends h]

theorem acceptance_exact_five :
    meets (.replicate 0x33) (ofDifficulty 5) = true ∧
    1 < (5 : UInt64) ∧ bigEndian (ofDifficulty 5).toList = 2 ^ 256 / 5 ∧
    Dataset.nodeCount 128 = .ok 2 ∧
    ∃ out, compute .keccak 128 (fun _ => .zero) .zero 0 = .ok out ∧
      quickMeets .keccak .zero 0 out.mixHash (ofDifficulty 5) =
        meets out.result (ofDifficulty 5) := by
  obtain ⟨hmeets, hboundary, hquick⟩ := acceptance_exact .keccak
  refine ⟨(hmeets 5 (.replicate 0x33)).mpr (by decide +kernel), by decide,
    (hboundary 5 (by decide)).1, rfl, ?_⟩
  obtain ⟨p, -, hcompute, hends⟩ := hquick 128 2 rfl .zero 0
  exact ⟨_, hcompute fun _ => .zero, hends _ _ _ _ _ (ends_eval p) (ofDifficulty 5)⟩

end Target

end ProofOfWork
