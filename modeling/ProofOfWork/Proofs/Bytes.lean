import Mathlib.Algebra.Group.Nat.Defs
import ProofOfWork.Bytes.LittleEndian
import ProofOfWork.Bytes.Vector

/-! Byte strings read byte by byte, where a byte past the end is zero, and the numbers that bytes hold
in little-endian order. -/

namespace ProofOfWork.Bytes

theorem ext {a b : ByteArray} (hsize : a.size = b.size) (h : ∀ i < a.size, a[i]! = b[i]!) :
    a = b := by
  refine ByteArray.ext_getElem hsize fun i ha hb => ?_
  have := h i ha
  rwa [getElem!_pos a i ha, getElem!_pos b i hb] at this

theorem getElem!_of_size_le {b : ByteArray} {i : Nat} (h : b.size ≤ i) : b[i]! = 0 :=
  getElem!_neg b i (by omega)

theorem getElem!_append (a b : ByteArray) (i : Nat) :
    (a ++ b)[i]! = if i < a.size then a[i]! else b[i - a.size]! := by
  have hsize : (a ++ b).size = a.size + b.size := ByteArray.size_append
  by_cases ha : i < a.size
  · rw [if_pos ha, getElem!_pos _ i (by omega), getElem!_pos a i ha,
      ByteArray.getElem_append_left ha]
  · rw [if_neg ha]
    by_cases hb : i < (a ++ b).size
    · rw [getElem!_pos _ i hb, getElem!_pos b _ (by omega),
        ByteArray.getElem_append_right (by omega)]
    · rw [getElem!_of_size_le (by omega), getElem!_of_size_le (by omega)]

theorem getElem!_extract (b : ByteArray) (start stop i : Nat) :
    (b.extract start stop)[i]! = if start + i < stop then b[start + i]! else 0 := by
  have hsize : (b.extract start stop).size = min stop b.size - start := ByteArray.size_extract
  by_cases h : i < (b.extract start stop).size
  · rw [if_pos (by omega), getElem!_pos _ i h, getElem!_pos b _ (by omega),
      ByteArray.getElem_extract h]
  · rw [getElem!_of_size_le (by omega)]
    split
    · rw [getElem!_of_size_le (by omega)]
    · rfl

section

variable (src dest : ByteArray) (srcOff destOff len : Nat) (exact : Bool)

theorem size_copySlice (h : destOff ≤ dest.size) (hlen : srcOff + len ≤ src.size) :
    (src.copySlice srcOff dest destOff len exact).size = max dest.size (destOff + len) := by
  rw [ByteArray.copySlice_eq_append]
  simp only [ByteArray.size_append, ByteArray.size_extract, ByteArray.size_data]
  omega

/-- The bytes after a copy: those that were copied, and all others as they were. -/
theorem getElem!_copySlice (h : destOff ≤ dest.size) (hlen : srcOff + len ≤ src.size) (i : Nat) :
    (src.copySlice srcOff dest destOff len exact)[i]! =
      if destOff ≤ i ∧ i < destOff + len then src[srcOff + (i - destOff)]! else dest[i]! := by
  have hbefore : (dest.extract 0 destOff).size = destOff := by
    rw [ByteArray.size_extract]; omega
  have hcopied : (src.extract srcOff (srcOff + len)).size = len := by
    rw [ByteArray.size_extract]; omega
  have hmin : min len (src.data.size - srcOff) = len := by
    rw [ByteArray.size_data]; omega
  rw [ByteArray.copySlice_eq_append, hmin, ByteArray.size_data]
  simp only [getElem!_append, getElem!_extract, ByteArray.size_append, hbefore, hcopied,
    Nat.zero_add]
  by_cases hb : i < destOff
  · rw [if_pos (by omega), if_pos hb, if_pos hb, if_neg (by omega)]
  by_cases hc : i < destOff + len
  · rw [if_pos hc, if_neg hb, if_pos (by omega), if_pos (by omega)]
  · rw [if_neg hc, if_neg (show ¬(destOff ≤ i ∧ i < destOff + len) by omega),
      show destOff + len + (i - (destOff + len)) = i by omega]
    split
    · rfl
    · rw [getElem!_of_size_le (by omega)]

end

theorem getElem_eq {n : Nat} (v : ByteVector n) (i : Nat) (h : i < n) : v[i] = v.bytes[i]! :=
  (getElem!_pos v.bytes i (by rw [v.size_bytes]; exact h)).symm

theorem eq_of_bytes_eq {n : Nat} {v w : ByteVector n} (h : v.bytes = w.bytes) : v = w := by
  cases v
  cases w
  cases h
  rfl

theorem slice?_eq_some {n : Nat} {b : ByteArray} {start : Nat} {v : ByteVector n}
    (h : start + n ≤ b.size) (hv : ∀ i < n, v.bytes[i]! = b[start + i]!) :
    ByteVector.slice? b start = some v := by
  rw [ByteVector.slice?, dif_pos h]
  refine congrArg some (ByteVector.ext fun i hi => ?_)
  rw [getElem_eq, getElem_eq, hv i hi]
  refine (getElem!_extract b start (start + n) i).trans ?_
  rw [if_pos (by omega)]

theorem slice?_eq_some_iff {n : Nat} {b : ByteArray} {start : Nat} {v : ByteVector n} :
    ByteVector.slice? b start = some v ↔
      start + n ≤ b.size ∧ ∀ i < n, v.bytes[i]! = b[start + i]! := by
  refine ⟨fun h => ?_, fun h => slice?_eq_some h.1 h.2⟩
  by_cases hle : start + n ≤ b.size
  · rw [ByteVector.slice?, dif_pos hle, Option.some.injEq] at h
    subst h
    refine ⟨hle, fun i hi => ?_⟩
    refine (getElem!_extract b start (start + n) i).trans ?_
    rw [if_pos (by omega)]
  · rw [ByteVector.slice?, dif_neg hle] at h
    contradiction

/-! ### Little-endian numbers -/

/-- A byte above the bits of a number adds to it. -/
theorem or_shiftLeft_byte {a b k width : Nat} (hk : k + 8 ≤ width) (ha : a < 2 ^ k) (hb : b < 256) :
    a ||| (b <<< k) % 2 ^ width = a + b * 2 ^ k ∧ a + b * 2 ^ k < 2 ^ (k + 8) := by
  have hle : b * 2 ^ k ≤ 255 * 2 ^ k := Nat.mul_le_mul_right _ (by omega)
  have hpow : 2 ^ (k + 8) = 256 * 2 ^ k := by rw [Nat.pow_add]; omega
  have hfits : 2 ^ (k + 8) ≤ 2 ^ width := Nat.pow_le_pow_right (by decide) hk
  refine ⟨?_, by omega⟩
  rw [Nat.shiftLeft_eq, Nat.mod_eq_of_lt (by omega), Nat.or_comm, ← Nat.shiftLeft_eq,
    ← Nat.shiftLeft_add_eq_or_of_lt ha, Nat.shiftLeft_eq, Nat.add_comm]

theorem toNat_or_byte64 {a : UInt64} {b : UInt8} {n : UInt64} {k : Nat} (hs : n.toNat = k)
    (hk : k + 8 ≤ 64) (ha : a.toNat < 2 ^ k) :
    (a ||| b.toUInt64 <<< n).toNat = a.toNat + b.toNat * 2 ^ k ∧
      a.toNat + b.toNat * 2 ^ k < 2 ^ (k + 8) := by
  rw [UInt64.toNat_or, UInt64.toNat_shiftLeft, hs, Nat.mod_eq_of_lt (show k < 64 by omega),
    UInt8.toNat_toUInt64]
  exact or_shiftLeft_byte hk ha b.toNat_lt

theorem toNat_or_byte32 {a : UInt32} {b : UInt8} {n : UInt32} {k : Nat} (hs : n.toNat = k)
    (hk : k + 8 ≤ 32) (ha : a.toNat < 2 ^ k) :
    (a ||| b.toUInt32 <<< n).toNat = a.toNat + b.toNat * 2 ^ k ∧
      a.toNat + b.toNat * 2 ^ k < 2 ^ (k + 8) := by
  rw [UInt32.toNat_or, UInt32.toNat_shiftLeft, hs, Nat.mod_eq_of_lt (show k < 32 by omega),
    UInt8.toNat_toUInt32]
  exact or_shiftLeft_byte hk ha b.toNat_lt

/-- The low byte of a number comes first, and the rest counts 256 times. -/
theorem toNat_word64 (b0 b1 b2 b3 b4 b5 b6 b7 : UInt8) :
    (LittleEndian.word64 b0 b1 b2 b3 b4 b5 b6 b7).toNat =
      b0.toNat + 256 * (b1.toNat + 256 * (b2.toNat + 256 * (b3.toNat + 256 * (b4.toNat +
        256 * (b5.toNat + 256 * (b6.toNat + 256 * b7.toNat)))))) := by
  have h0 : b0.toUInt64.toNat = b0.toNat := UInt8.toNat_toUInt64 b0
  obtain ⟨h1, l1⟩ := toNat_or_byte64 (a := b0.toUInt64) (b := b1) (n := 8) (k := 8) rfl
    (by decide) (by have := b0.toNat_lt; omega)
  obtain ⟨h2, l2⟩ := toNat_or_byte64 (b := b2) (n := 16) (k := 16) rfl (by decide) (h1 ▸ l1)
  obtain ⟨h3, l3⟩ := toNat_or_byte64 (b := b3) (n := 24) (k := 24) rfl (by decide) (h2 ▸ l2)
  obtain ⟨h4, l4⟩ := toNat_or_byte64 (b := b4) (n := 32) (k := 32) rfl (by decide) (h3 ▸ l3)
  obtain ⟨h5, l5⟩ := toNat_or_byte64 (b := b5) (n := 40) (k := 40) rfl (by decide) (h4 ▸ l4)
  obtain ⟨h6, l6⟩ := toNat_or_byte64 (b := b6) (n := 48) (k := 48) rfl (by decide) (h5 ▸ l5)
  obtain ⟨h7, -⟩ := toNat_or_byte64 (b := b7) (n := 56) (k := 56) rfl (by decide) (h6 ▸ l6)
  rw [LittleEndian.word64, h7, h6, h5, h4, h3, h2, h1, h0]
  omega

theorem toNat_word32 (b0 b1 b2 b3 : UInt8) :
    (LittleEndian.word32 b0 b1 b2 b3).toNat =
      b0.toNat + 256 * (b1.toNat + 256 * (b2.toNat + 256 * b3.toNat)) := by
  have h0 : b0.toUInt32.toNat = b0.toNat := UInt8.toNat_toUInt32 b0
  obtain ⟨h1, l1⟩ := toNat_or_byte32 (a := b0.toUInt32) (b := b1) (n := 8) (k := 8) rfl
    (by decide) (by have := b0.toNat_lt; omega)
  obtain ⟨h2, l2⟩ := toNat_or_byte32 (b := b2) (n := 16) (k := 16) rfl (by decide) (h1 ▸ l1)
  obtain ⟨h3, -⟩ := toNat_or_byte32 (b := b3) (n := 24) (k := 24) rfl (by decide) (h2 ▸ l2)
  rw [LittleEndian.word32, h3, h2, h1, h0]
  omega

theorem toNat_byte32 (w : UInt32) {k : Nat} (hk : k < 4) :
    (LittleEndian.byte32 w k).toNat = w.toNat / 256 ^ k % 256 := by
  have hshift : (8 * k).toUInt32.toNat % 32 = 8 * k := by
    rw [Nat.toUInt32_eq, UInt32.toNat_ofNat']
    omega
  rw [LittleEndian.byte32, UInt32.toNat_toUInt8, UInt32.toNat_shiftRight, hshift,
    Nat.shiftRight_eq_div_pow, Nat.pow_mul]

theorem toNat_byte64 (w : UInt64) {k : Nat} (hk : k < 8) :
    (LittleEndian.byte64 w k).toNat = w.toNat / 256 ^ k % 256 := by
  have hshift : (8 * k).toUInt64.toNat % 64 = 8 * k := by
    rw [Nat.toUInt64_eq, UInt64.toNat_ofNat']
    omega
  rw [LittleEndian.byte64, UInt64.toNat_toUInt8, UInt64.toNat_shiftRight, hshift,
    Nat.shiftRight_eq_div_pow, Nat.pow_mul]

/-- The bytes of a word that was put together from four bytes are these four. -/
theorem byte32_word32 (b : Nat → UInt8) {k : Nat} (hk : k < 4) :
    LittleEndian.byte32 (LittleEndian.word32 (b 0) (b 1) (b 2) (b 3)) k = b k := by
  have h0 := (b 0).toNat_lt
  have h1 := (b 1).toNat_lt
  have h2 := (b 2).toNat_lt
  have h3 := (b 3).toNat_lt
  apply UInt8.toNat_inj.mp
  rw [toNat_byte32 _ hk, toNat_word32]
  obtain rfl | rfl | rfl | rfl : k = 0 ∨ k = 1 ∨ k = 2 ∨ k = 3 := by omega
  all_goals omega

/-- A word is put together again from its four bytes. -/
theorem word32_byte32 (w : UInt32) :
    LittleEndian.word32 (LittleEndian.byte32 w 0) (LittleEndian.byte32 w 1)
      (LittleEndian.byte32 w 2) (LittleEndian.byte32 w 3) = w := by
  have hlt := w.toNat_lt
  apply UInt32.toNat_inj.mp
  rw [toNat_word32, toNat_byte32 w (by decide), toNat_byte32 w (by decide),
    toNat_byte32 w (by decide), toNat_byte32 w (by decide)]
  omega

theorem byte32_xor (w x : UInt32) (k : Nat) :
    LittleEndian.byte32 (w ^^^ x) k = LittleEndian.byte32 w k ^^^ LittleEndian.byte32 x k := by
  rw [LittleEndian.byte32, UInt32.shiftRight_xor, UInt32.toUInt8_xor]
  rfl

theorem low_byte_eq {a b : UInt8} {m n : Nat} (h : a.toNat + 256 * m = b.toNat + 256 * n) :
    a = b ∧ m = n := by
  have ha := a.toNat_lt
  have hb := b.toNat_lt
  refine ⟨UInt8.toNat_inj.mp ?_, ?_⟩ <;> omega

end ProofOfWork.Bytes
