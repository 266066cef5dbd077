import Mathlib.Data.Nat.Digits.Defs
import Mathlib.Tactic.Ring
import ProofOfWork.Proofs.Text.Hex
import ProofOfWork.Text.Numeral

/-! Whole numbers are read exactly: a text is taken if its digits stand for a number of 64 bits, and then
as that number. -/

namespace ProofOfWork.Numeral

namespace Base

theorem one_lt_radix (b : Base) : 1 < b.radix := by cases b <;> decide

theorem radix_le (b : Base) : b.radix ≤ 16 := by cases b <;> decide

theorem digitValue?_eq_some_iff {b : Base} {c : Char} {v : Nat} :
    b.digitValue? c = some v ↔ v < b.radix ∧ c.toLower = v.digitChar := by
  have hle := b.radix_le
  simp only [digitValue?, Option.filter_eq_some_iff, Hex.digitValue?_eq_some_iff, decide_eq_true_eq]
  constructor
  · rintro ⟨⟨-, hc⟩, hv⟩
    exact ⟨hv, hc⟩
  · rintro ⟨hv, hc⟩
    exact ⟨⟨by omega, hc⟩, hv⟩

end Base

/-- The digits of a text, in either case and with the most significant first, stand for `n`. -/
def Denotes (b : Base) (text : List Char) (n : Nat) : Prop :=
  ∃ digits : List Nat, digits ≠ [] ∧ (∀ d ∈ digits, d < b.radix) ∧
    text.map Char.toLower = digits.map Nat.digitChar ∧ n = Nat.ofDigits b.radix digits.reverse

variable {b : Base}

theorem readDigits_of_digit {c : Char} {text : List Char} {value d : Nat}
    (hc : b.digitValue? c = some d) :
    readDigits b value (c :: text) =
      if value * b.radix + d < 2 ^ 64 then readDigits b (value * b.radix + d) text
      else .error .tooLarge := by
  rw [readDigits, hc]
  rfl

theorem ofDigits_concat (radix value d : Nat) (digits : List Nat) :
    value * radix ^ (d :: digits).length + Nat.ofDigits radix (d :: digits).reverse =
      (value * radix + d) * radix ^ digits.length + Nat.ofDigits radix digits.reverse := by
  rw [List.reverse_cons, Nat.ofDigits_append, Nat.ofDigits_singleton, List.length_reverse,
    List.length_cons]
  ring

/-- The number so far never falls, so that it is too large at some digit exactly if it is at the last. -/
theorem readDigits_eq_ok_iff {text : List Char} {value n : Nat} (hvalue : value < 2 ^ 64) :
    readDigits b value text = .ok n ↔ n < 2 ^ 64 ∧ ∃ digits : List Nat,
      (∀ d ∈ digits, d < b.radix) ∧ text.map Char.toLower = digits.map Nat.digitChar ∧
      n = value * b.radix ^ digits.length + Nat.ofDigits b.radix digits.reverse := by
  induction text generalizing value with
  | nil =>
    constructor
    · intro h
      obtain rfl := Except.ok.inj h
      exact ⟨hvalue, [], by simp⟩
    · rintro ⟨-, digits, -, hmap, rfl⟩
      obtain rfl : digits = [] := by simpa using hmap.symm
      simp [readDigits]
  | cons c text ih =>
    constructor
    · intro h
      cases hc : b.digitValue? c with
      | none =>
        rw [readDigits, hc] at h
        contradiction
      | some d =>
        rw [readDigits_of_digit hc] at h
        split at h
        · rename_i hlt
          obtain ⟨hn, digits, hdigits, hmap, heq⟩ := (ih hlt).mp h
          obtain ⟨hd, hlower⟩ := Base.digitValue?_eq_some_iff.mp hc
          refine ⟨hn, d :: digits, by simpa using ⟨hd, hdigits⟩, by simp [hmap, hlower], ?_⟩
          rw [heq, ofDigits_concat]
        · contradiction
    · rintro ⟨hn, digits, hdigits, hmap, heq⟩
      cases digits with
      | nil => simp at hmap
      | cons d digits =>
        obtain ⟨hd, hdigits⟩ := List.forall_mem_cons.mp hdigits
        obtain ⟨hlower, hmap⟩ := List.cons.inj hmap
        have hpos : 0 < b.radix ^ digits.length := Nat.pow_pos (by have := b.one_lt_radix; omega)
        have hle := Nat.le_mul_of_pos_right (value * b.radix + d) hpos
        rw [ofDigits_concat] at heq
        rw [readDigits_of_digit (Base.digitValue?_eq_some_iff.mpr ⟨hd, hlower⟩), if_pos (by omega)]
        exact (ih (by omega)).mpr ⟨hn, digits, hdigits, hmap, heq⟩

theorem readDigits_zero_eq_ok_iff {text : List Char} {n : Nat} (h : text ≠ []) :
    readDigits b 0 text = .ok n ↔ n < 2 ^ 64 ∧ Denotes b text n := by
  rw [readDigits_eq_ok_iff (by decide)]
  simp only [Nat.zero_mul, Nat.zero_add]
  refine and_congr_right fun _ => exists_congr fun digits => ?_
  rw [iff_and_self]
  rintro ⟨-, hmap, -⟩ rfl
  exact h (by simpa using hmap)

theorem Denotes.ne_nil {text : List Char} {n : Nat} (h : Denotes b text n) : text ≠ [] := by
  rintro rfl
  obtain ⟨digits, hne, -, hmap, -⟩ := h
  exact hne (by simpa using hmap.symm)

theorem Denotes.exists_digit {text : List Char} {n : Nat} (h : Denotes b text n) {c : Char}
    (hc : c ∈ text) : ∃ d < 16, d.digitChar = c.toLower := by
  obtain ⟨digits, -, hdigits, hmap, -⟩ := h
  have hmem : c.toLower ∈ digits.map Nat.digitChar := hmap ▸ List.mem_map_of_mem hc
  obtain ⟨d, hd, heq⟩ := List.mem_map.mp hmem
  exact ⟨d, Nat.lt_of_lt_of_le (hdigits d hd) b.radix_le, heq⟩

theorem not_denotes_plus {text : List Char} {n : Nat} : ¬Denotes b ('+' :: text) n := by
  intro h
  have hplus : ∀ d < 16, d.digitChar ≠ '+'.toLower := by decide
  obtain ⟨d, hd, heq⟩ := h.exists_digit List.mem_cons_self
  exact hplus d hd heq

theorem map_digitValue? {text : List Char} {digits : List Nat} (hdigits : ∀ d ∈ digits, d < b.radix)
    (hmap : text.map Char.toLower = digits.map Nat.digitChar) :
    text.map b.digitValue? = digits.map some := by
  induction text generalizing digits with
  | nil => cases digits <;> simp_all
  | cons c text ih =>
    cases digits with
    | nil => simp at hmap
    | cons d digits =>
      obtain ⟨hd, hdigits⟩ := List.forall_mem_cons.mp hdigits
      obtain ⟨hlower, hmap⟩ := List.cons.inj hmap
      simp [Base.digitValue?_eq_some_iff.mpr ⟨hd, hlower⟩, ih hdigits hmap]

theorem Denotes.unique {text : List Char} {n n' : Nat} (h : Denotes b text n)
    (h' : Denotes b text n') : n = n' := by
  obtain ⟨digits, -, hdigits, hmap, rfl⟩ := h
  obtain ⟨digits', -, hdigits', hmap', rfl⟩ := h'
  have heq := (map_digitValue? hdigits hmap).symm.trans (map_digitValue? hdigits' hmap')
  rw [(List.map_inj_right fun _ _ => Option.some.inj).mp heq]

theorem map_toUInt64_eq_ok_iff {text : List Char} {v : UInt64} (h : text ≠ []) :
    (readDigits b 0 text).map Nat.toUInt64 = .ok v ↔ Denotes b text v.toNat := by
  have hiff : readDigits b 0 text = .ok v.toNat ↔ Denotes b text v.toNat := by
    rw [readDigits_zero_eq_ok_iff h, and_iff_right v.toNat_lt]
  rw [← hiff]
  cases hread : readDigits b 0 text with
  | error e => exact iff_of_false nofun nofun
  | ok n =>
    have hn := ((readDigits_zero_eq_ok_iff h).mp hread).1
    show Except.ok n.toUInt64 = Except.ok v ↔ _
    rw [Except.ok.injEq, Except.ok.injEq, Nat.toUInt64_eq, ← UInt64.toNat_inj,
      UInt64.toNat_ofNat_of_lt' hn]

/-- A plus sign may stand before the digits. -/
theorem read_eq_ok_iff {text : List Char} {v : UInt64} :
    read b text = .ok v ↔
      ∃ digits, (text = digits ∨ text = '+' :: digits) ∧ Denotes b digits v.toNat := by
  unfold read
  split
  · refine iff_of_false nofun ?_
    rintro ⟨digits, rfl | h, hdigits⟩
    · exact hdigits.ne_nil rfl
    · contradiction
  · refine iff_of_false nofun ?_
    rintro ⟨digits, rfl | h, hdigits⟩
    · exact not_denotes_plus hdigits
    · exact hdigits.ne_nil (List.cons.inj h).2.symm
  · rename_i digits hne
    rw [map_toUInt64_eq_ok_iff (by simpa using hne)]
    refine ⟨fun h => ⟨digits, .inr rfl, h⟩, ?_⟩
    rintro ⟨digits, rfl | h, hdigits⟩
    · exact (not_denotes_plus hdigits).elim
    · rwa [(List.cons.inj h).2]
  · rename_i hne _ hplus
    rw [map_toUInt64_eq_ok_iff hne]
    refine ⟨fun h => ⟨text, .inl rfl, h⟩, ?_⟩
    rintro ⟨digits, rfl | rfl, hdigits⟩
    · exact hdigits
    · exact (hplus digits rfl).elim

/-! ### Written numbers -/

theorem Denotes.digit {n : Nat} (h : n < b.radix) : Denotes b [n.digitChar] n := by
  have hlower := Hex.toLower_digitChar (Nat.lt_of_lt_of_le h b.radix_le)
  exact ⟨[n], by simp, by simpa using h, by simp [hlower], by simp⟩

theorem Denotes.concat {text : List Char} {n d : Nat} (h : Denotes b text n) (hd : d < b.radix) :
    Denotes b (text ++ [d.digitChar]) (b.radix * n + d) := by
  obtain ⟨digits, -, hdigits, hmap, rfl⟩ := h
  have hlower := Hex.toLower_digitChar (Nat.lt_of_lt_of_le hd b.radix_le)
  refine ⟨digits ++ [d], by simp, ?_, by simp [hmap, hlower], ?_⟩
  · intro x hx
    rcases List.mem_append.mp hx with hx | hx
    · exact hdigits x hx
    · rwa [List.mem_singleton.mp hx]
  · rw [List.reverse_append, List.reverse_singleton, List.singleton_append, Nat.ofDigits_cons]
    exact Nat.add_comm _ _

theorem Denotes.zero_cons {text : List Char} {n : Nat} (h : Denotes b text n) :
    Denotes b ('0' :: text) n := by
  obtain ⟨digits, -, hdigits, hmap, rfl⟩ := h
  have hpos : 0 < b.radix := Nat.lt_of_succ_lt b.one_lt_radix
  refine ⟨0 :: digits, by simp, by simpa using ⟨hpos, hdigits⟩, by simp [hmap], ?_⟩
  rw [List.reverse_cons, Nat.ofDigits_append_zero]

theorem Denotes.zeros {text : List Char} {n : Nat} (h : Denotes b text n) (zeros : Nat) :
    Denotes b (List.replicate zeros '0' ++ text) n := by
  induction zeros with
  | zero => exact h
  | succ zeros ih => exact ih.zero_cons

theorem denotes_toDigits (b : Base) (n : Nat) : Denotes b (Nat.toDigits b.radix n) n := by
  have hradix := b.one_lt_radix
  induction n using Nat.strongRecOn with
  | ind n ih =>
    rw [Nat.toDigits_eq_if hradix]
    split
    · rename_i hlt
      exact .digit hlt
    · have hdiv := ih (n / b.radix) (Nat.div_lt_self (by omega) hradix)
      have hmod := Nat.mod_lt n (show b.radix > 0 by omega)
      have h := hdiv.concat hmod
      rwa [Nat.div_add_mod] at h

/-- However many zeros stand before a number, it is read as what it is, or not at all. -/
theorem read_toDigits_eq_ok_iff {zeros n : Nat} {v : UInt64} :
    read b (List.replicate zeros '0' ++ Nat.toDigits b.radix n) = .ok v ↔ v.toNat = n := by
  have hwritten := (denotes_toDigits b n).zeros zeros
  rw [read_eq_ok_iff]
  constructor
  · rintro ⟨digits, rfl | h, hdigits⟩
    · exact hdigits.unique hwritten
    · rw [h] at hwritten
      exact (not_denotes_plus hwritten).elim
  · rintro rfl
    exact ⟨_, .inl rfl, hwritten⟩

end ProofOfWork.Numeral
