import ProofOfWork.Node
import ProofOfWork.Proofs.Bytes

/-! The views of a node. Its words are its bytes taken four at a time, the low byte first, so either
view determines the other. A word that is set shows in its own four bytes and nowhere else, a word of
64 bits is two of 32 with the low one first, and nodes combined byte by byte are combined word by
word. -/

namespace ProofOfWork.Node

variable {n m : Node} {i : Nat}

/-! ### Bytes of words -/

/-- A word of a node is `w` exactly if its four bytes are those of `w`. What a change to the bytes of a
node does to its words is read off from here. -/
theorem word_eq_iff {hi : i < 16} {w : UInt32} :
    n.word i hi = w ↔ ∀ k (hk : k < 4), n.bytes[4 * i + k] = LittleEndian.byte32 w k := by
  constructor
  · rintro rfl k hk
    rw [word]
    simp only [Bytes.getElem_eq]
    exact (Bytes.byte32_word32 (fun k => n.bytes.bytes[4 * i + k]!) hk).symm
  · intro h
    have h0 : n.bytes[4 * i] = LittleEndian.byte32 w 0 := h 0 (by decide)
    rw [word, h0, h 1 (by decide), h 2 (by decide), h 3 (by decide)]
    exact Bytes.word32_byte32 w

theorem byte32_word (n : Node) (hi : i < 16) {k : Nat} (hk : k < 4) :
    LittleEndian.byte32 (n.word i hi) k = n.bytes[4 * i + k] :=
  (word_eq_iff.mp rfl k hk).symm

/-- Byte `k` of a word is its digit of weight `256 ^ k`. -/
theorem toNat_byte_eq (n : Node) (hi : i < 16) {k : Nat} (hk : k < 4) :
    n.bytes[4 * i + k].toNat = (n.word i hi).toNat / 256 ^ k % 256 := by
  rw [← byte32_word n hi hk, Bytes.toNat_byte32 _ hk]

/-- A node is determined by its words. -/
theorem ext_words (h : ∀ i (hi : i < 16), n.word i hi = m.word i hi) : n = m := by
  obtain ⟨a⟩ := n
  obtain ⟨b⟩ := m
  refine congrArg mk (ByteVector.ext fun j hj => ?_)
  have hbyte := byte32_word ⟨a⟩ (i := j / 4) (by omega) (k := j % 4) (by omega)
  rw [h, byte32_word ⟨b⟩ (by omega) (by omega)] at hbyte
  simp only [Nat.div_add_mod] at hbyte
  exact hbyte.symm

/-! ### All words at once -/

@[simp] theorem getElem_words (n : Node) (hi : i < 16) : n.words[i] = n.word i hi :=
  Vector.getElem_ofFn ..

@[simp] theorem word_ofWords (w : Vector UInt32 16) (hi : i < 16) : (ofWords w).word i hi = w[i] := by
  refine word_eq_iff.mpr fun k hk => ?_
  have hword : (4 * i + k) / 4 = i := by omega
  have hbyte : (4 * i + k) % 4 = k := by omega
  simp only [ofWords, ByteVector.getElem_ofFn, hword, hbyte]

theorem ofWords_words (n : Node) : ofWords n.words = n :=
  ext_words fun i hi => by rw [word_ofWords, getElem_words]

theorem words_ofWords (w : Vector UInt32 16) : (ofWords w).words = w :=
  Vector.ext fun i hi => by rw [getElem_words, word_ofWords]

/-! ### One word -/

theorem getElem_setWord (n : Node) (i : Nat) (w : UInt32) {j : Nat} (hj : j < 64) :
    (n.setWord i w).bytes[j] =
      if j / 4 = i then LittleEndian.byte32 w (j % 4) else n.bytes[j] := by
  simp [setWord]

theorem word_setWord (n : Node) (i : Nat) (w : UInt32) {j : Nat} (hj : j < 16) :
    (n.setWord i w).word j hj = if j = i then w else n.word j hj := by
  refine word_eq_iff.mpr fun k hk => ?_
  rw [getElem_setWord, show (4 * j + k) / 4 = j by omega, show (4 * j + k) % 4 = k by omega]
  split
  · rfl
  · exact (byte32_word n hj hk).symm

theorem toNat_doubleWord (n : Node) {j : Nat} (hj : j < 8) :
    (n.doubleWord j hj).toNat = (n.word (2 * j)).toNat + 2 ^ 32 * (n.word (2 * j + 1)).toNat := by
  rw [doubleWord, Bytes.toNat_word64, word, word, Bytes.toNat_word32, Bytes.toNat_word32]
  simp only [Bytes.getElem_eq, show 4 * (2 * j) = 8 * j by omega,
    show 4 * (2 * j + 1) = 8 * j + 4 by omega, Nat.add_assoc, Nat.reduceAdd]
  omega

theorem word_xor (n m : Node) (hi : i < 16) :
    (n.xor m).word i hi = n.word i hi ^^^ m.word i hi := by
  refine word_eq_iff.mpr fun k hk => ?_
  rw [Bytes.byte32_xor, byte32_word n hi hk, byte32_word m hi hk]
  exact ByteVector.getElem_xor ..

/-- The bytes and the words of a node are two views of one thing, and all that reads or changes a node
by its words agrees with them. -/
theorem views_agree (n m : Node) (w : Vector UInt32 16) (v : UInt32) :
    ofWords n.words = n ∧ (ofWords w).words = w ∧
    (∀ i (hi : i < 16),
      n.words[i] = n.word i ∧
      (∀ k (hk : k < 4), n.bytes[4 * i + k].toNat = (n.word i).toNat / 256 ^ k % 256) ∧
      (n.setWord i v).word i = v ∧
      (∀ j (hj : j < 16), j ≠ i → (n.setWord i v).word j = n.word j) ∧
      (∀ j (hj : j < 64), j < 4 * i ∨ 4 * i + 3 < j → (n.setWord i v).bytes[j] = n.bytes[j]) ∧
      (n.xor m).word i = n.word i ^^^ m.word i) ∧
    ∀ j (hj : j < 8),
      (n.doubleWord j).toNat = (n.word (2 * j)).toNat + 2 ^ 32 * (n.word (2 * j + 1)).toNat := by
  refine ⟨ofWords_words n, words_ofWords w, fun i hi => ?_, fun j hj => toNat_doubleWord n hj⟩
  refine ⟨getElem_words n hi, fun k hk => toNat_byte_eq n hi hk, ?_, fun j hj hne => ?_,
    fun j hj hout => ?_, word_xor n m hi⟩
  · rw [word_setWord, if_pos rfl]
  · rw [word_setWord, if_neg hne]
  · rw [getElem_setWord, if_neg (by omega)]

/-- The node whose byte `k` is `k`. -/
def counted : Node := ⟨.ofFn fun k => k.val.toUInt8⟩

theorem views_agree_counted :
    (∃ h : 3 < 16, (counted.setWord 3 7).word 3 h = 7 ∧
      (counted.xor ⟨.replicate 0xff⟩).word 3 h = 0xf0f1f2f3 ∧
      2 < 4 ∧ (counted.word 3 h).toNat / 256 ^ 2 % 256 = 14) ∧
    (∃ h : 2 < 16, 2 ≠ 3 ∧ (counted.setWord 3 7).word 2 h = 0x0b0a0908) ∧
    (∃ h : 11 < 64, 11 < 4 * 3 ∧ (counted.setWord 3 7).bytes[11] = 11) ∧
    (∃ h : 16 < 64, 4 * 3 + 3 < 16 ∧ (counted.setWord 3 7).bytes[16] = 16) ∧
    ∃ h : 1 < 8, (counted.doubleWord 1 h).toNat = 0x0f0e0d0c0b0a0908 := by
  obtain ⟨-, -, hwords, hdouble⟩ := views_agree counted ⟨.replicate 0xff⟩ (.replicate 16 0) 7
  obtain ⟨-, hdigits, hset, hothers, houtside, hxor⟩ := hwords 3 (by decide)
  refine ⟨⟨by decide, hset, hxor.trans (by decide), by decide, ?_⟩, ⟨by decide, by decide, ?_⟩,
    ⟨by decide, by decide, ?_⟩, ⟨by decide, by decide, ?_⟩, by decide, ?_⟩
  · exact (hdigits 2 (by decide)).symm.trans (by decide)
  · exact (hothers 2 (by decide) (by decide)).trans (by decide)
  · exact (houtside 11 (by decide) (.inl (by decide))).trans (by decide)
  · exact (houtside 16 (by decide) (.inr (by decide))).trans (by decide)
  · exact (hdouble 1 (by decide)).trans (by decide)

end ProofOfWork.Node
