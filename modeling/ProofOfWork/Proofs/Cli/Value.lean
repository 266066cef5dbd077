import ProofOfWork.Cli.Value
import ProofOfWork.Proofs.Text.Numeral

/-! Hashes and nonces of the command line. A text is taken for a hash if it has 64 hexadecimal digits
after the marks at its start, and for a nonce if it stands for a number of 64 bits. -/

namespace ProofOfWork.Cli

theorem toList_mark_append (text : String) : ("0x" ++ text).toList = '0' :: 'x' :: text.toList :=
  String.toList_append

/-! ### Hashes -/

/-- A text with a number of marks before it. -/
def marked : Nat → List Char → List Char
  | 0, text => text
  | marks + 1, text => '0' :: 'x' :: marked marks text

theorem dropMarks_marked (marks : Nat) (text : List Char) :
    dropMarks (marked marks text) = dropMarks text := by
  induction marks with
  | zero => rfl
  | succ marks ih => rw [marked, dropMarks, ih]

theorem exists_marked (text : List Char) : ∃ marks, text = marked marks (dropMarks text) := by
  fun_induction dropMarks text with
  | case1 rest ih =>
    obtain ⟨marks, h⟩ := ih
    exact ⟨marks + 1, congrArg (fun text => '0' :: 'x' :: text) h⟩
  | case2 text => exact ⟨0, rfl⟩

theorem dropMarks_of_digits {text : List Char}
    (h : ∀ c ∈ text, ∃ v < 16, c.toLower = v.digitChar) : dropMarks text = text := by
  fun_cases dropMarks text with
  | case1 rest =>
    have hx : ∀ v < 16, 'x'.toLower ≠ v.digitChar := by decide
    obtain ⟨v, hv, heq⟩ := h 'x' (by simp)
    exact (hx v hv heq).elim
  | case2 => rfl

theorem ofByteArray?_eq_some_iff {n : Nat} {bytes : List UInt8} {v : ByteVector n} :
    ByteVector.ofByteArray? ⟨bytes.toArray⟩ = some v ↔ bytes = v.toList := by
  constructor
  · intro h
    unfold ByteVector.ofByteArray? at h
    split at h
    · obtain rfl := Option.some.inj h
      rfl
    · contradiction
  · rintro rfl
    exact ByteVector.ofByteArray?_bytes v

theorem readHash_eq_ok_iff {text : String} {hash : Hash256} :
    readHash text = .ok hash ↔ Hex.decode (dropMarks text.toList) = .ok hash.toList := by
  unfold readHash
  cases hdecode : Hex.decode (dropMarks text.toList) with
  | error e => exact iff_of_false nofun nofun
  | ok bytes =>
    rw [Except.ok.injEq, ← ofByteArray?_eq_some_iff]
    dsimp only
    cases ByteVector.ofByteArray? ⟨bytes.toArray⟩ with
    | some v => simp
    | none => simp

theorem readHash_marked_eq_ok_iff {text : String} {hash : Hash256} :
    readHash text = .ok hash ↔
      ∃ marks digits, text.toList = marked marks digits ∧
        digits.map Char.toLower = Hex.digits hash.toList := by
  rw [readHash_eq_ok_iff, Hex.decode_eq_ok_iff]
  constructor
  · intro h
    obtain ⟨marks, heq⟩ := exists_marked text.toList
    exact ⟨marks, _, heq, h⟩
  · rintro ⟨marks, digits, heq, h⟩
    have hdigits : ∀ c ∈ digits, ∃ v < 16, c.toLower = v.digitChar := fun c hc =>
      Hex.exists_of_mem_digits (h ▸ List.mem_map_of_mem hc)
    rwa [heq, dropMarks_marked, dropMarks_of_digits hdigits]

/-- A text is taken for a hash exactly if it has 64 digits after any number of marks. -/
theorem exists_readHash_eq_ok_iff {text : String} :
    (∃ hash, readHash text = .ok hash) ↔
      ∃ marks digits, text.toList = marked marks digits ∧ digits.length = 64 ∧
        ∀ c ∈ digits, ∃ v < 16, c.toLower = v.digitChar := by
  constructor
  · rintro ⟨hash, h⟩
    obtain ⟨marks, digits, heq, hmap⟩ := readHash_marked_eq_ok_iff.mp h
    have hlength := congrArg List.length hmap
    rw [List.length_map, Hex.length_digits, ByteVector.length_toList] at hlength
    exact ⟨marks, digits, heq, hlength, fun c hc =>
      Hex.exists_of_mem_digits (hmap ▸ List.mem_map_of_mem hc)⟩
  · rintro ⟨marks, digits, heq, hlength, hdigits⟩
    obtain ⟨bytes, hbytes⟩ := Hex.exists_decode_eq_ok_iff.mpr ⟨by omega, hdigits⟩
    have hmap := Hex.decode_eq_ok_iff.mp hbytes
    have hsize := congrArg List.length hmap
    rw [List.length_map, Hex.length_digits, hlength] at hsize
    refine ⟨⟨⟨bytes.toArray⟩, ?_⟩, readHash_marked_eq_ok_iff.mpr ⟨marks, digits, heq, hmap⟩⟩
    show bytes.toArray.size = 32
    rw [List.size_toArray]
    omega

theorem readHash_of_one_mark {text : String} {hash : Hash256}
    (h : ∀ rest, text.toList ≠ marked 2 rest) :
    readHash text = .ok hash ↔
      ∃ digits, (text.toList = digits ∨ text.toList = '0' :: 'x' :: digits) ∧
        digits.map Char.toLower = Hex.digits hash.toList := by
  rw [readHash_marked_eq_ok_iff]
  constructor
  · rintro ⟨marks, digits, heq, hmap⟩
    match marks with
    | 0 => exact ⟨digits, .inl heq, hmap⟩
    | 1 => exact ⟨digits, .inr heq, hmap⟩
    | marks + 2 => exact (h (marked marks digits) heq).elim
  · rintro ⟨digits, heq | heq, hmap⟩
    · exact ⟨0, digits, heq, hmap⟩
    · exact ⟨1, digits, heq, hmap⟩

theorem digits_eq_flatMap (bytes : List UInt8) :
    Hex.digits bytes =
      bytes.flatMap fun b => [(b.toNat / 16).digitChar, (b.toNat % 16).digitChar] := by
  rw [Hex.digits_eq, Hex.halves, List.map_flatMap]
  rfl

/-- A text is taken for a hash exactly if it has 64 digits of either case after the marks at its start,
however many marks there are, and the hash has the bytes of these digits, two a byte in order. Of the
texts that do not start with two marks those with one mark or none are taken. What is written for a hash
is read back, with a mark before it or without. -/
theorem readHash_exact (text : String) (hash : Hash256) :
    (readHash text = .ok hash ↔
      ∃ marks digits, text.toList = marked marks digits ∧
        digits.map Char.toLower =
          hash.toList.flatMap fun b => [(b.toNat / 16).digitChar, (b.toNat % 16).digitChar]) ∧
    ((∃ hash, readHash text = .ok hash) ↔
      ∃ marks digits, text.toList = marked marks digits ∧ digits.length = 64 ∧
        ∀ c ∈ digits, ∃ v < 16, c.toLower = v.digitChar) ∧
    ((∀ rest, text.toList ≠ marked 2 rest) → (readHash text = .ok hash ↔
      ∃ digits, (text.toList = digits ∨ text.toList = '0' :: 'x' :: digits) ∧
        digits.map Char.toLower =
          hash.toList.flatMap fun b => [(b.toNat / 16).digitChar, (b.toNat % 16).digitChar])) ∧
    ((∃ bytes, Hex.decode text.toList = .ok bytes) ↔
      text.toList.length % 2 = 0 ∧ ∀ c ∈ text.toList, ∃ v < 16, c.toLower = v.digitChar) ∧
    readHash hash.toHex = .ok hash ∧ readHash ("0x" ++ hash.toHex) = .ok hash := by
  have hmap := Hex.map_toLower_digits hash.toList
  refine ⟨?_, exists_readHash_eq_ok_iff, fun h => ?_, Hex.exists_decode_eq_ok_iff, ?_, ?_⟩
  · rw [readHash_marked_eq_ok_iff, digits_eq_flatMap]
  · rw [readHash_of_one_mark h, digits_eq_flatMap]
  · exact readHash_marked_eq_ok_iff.mpr ⟨0, _, hash.toList_toHex, hmap⟩
  · refine readHash_marked_eq_ok_iff.mpr ⟨1, _, ?_, hmap⟩
    rw [toList_mark_append, hash.toList_toHex, marked, marked]

/-- A hash is also read after two marks. -/
theorem readHash_repeated_mark :
    ¬∀ text, (∃ hash, readHash text = .ok hash) ↔
      ∃ digits, (text.toList = digits ∨ text.toList = '0' :: 'x' :: digits) ∧
        digits.length = 64 ∧ ∀ c ∈ digits, ∃ v < 16, c.toLower = v.digitChar := by
  intro h
  obtain ⟨hash⟩ : Nonempty Hash256 := ⟨.zero⟩
  have htext : ("0x" ++ ("0x" ++ hash.toHex)).toList = marked 2 (Hex.digits hash.toList) := by
    rw [toList_mark_append, toList_mark_append, hash.toList_toHex, marked, marked, marked]
  have hread : readHash ("0x" ++ ("0x" ++ hash.toHex)) = .ok hash :=
    readHash_marked_eq_ok_iff.mpr ⟨2, _, htext, Hex.map_toLower_digits hash.toList⟩
  obtain ⟨digits, heq, hlength, -⟩ := (h _).mp ⟨hash, hread⟩
  have hsize : (marked 2 (Hex.digits hash.toList)).length = 68 := by simp [marked]
  rw [← htext] at hsize
  rcases heq with heq | heq
  · rw [heq] at hsize
    omega
  · rw [heq, List.length_cons, List.length_cons] at hsize
    omega

/-! ### Nonces -/

theorem mapError_eq_ok_iff {ε ε' α : Type} {f : ε → ε'} {x : Except ε α} {a : α} :
    x.mapError f = .ok a ↔ x = .ok a := by
  cases x <;> simp [Except.mapError]

theorem readNonce_of_mark {text : String} {digits : List Char}
    (h : text.toList = '0' :: 'x' :: digits) {v : UInt64} :
    readNonce text = .ok v ↔ Numeral.read .hexadecimal digits = .ok v := by
  rw [readNonce, h]
  exact mapError_eq_ok_iff

theorem readNonce_of_no_mark {text : String} (h : ∀ digits, text.toList ≠ '0' :: 'x' :: digits)
    {v : UInt64} : readNonce text = .ok v ↔ Numeral.read .decimal text.toList = .ok v := by
  unfold readNonce
  split
  · rename_i digits heq
    exact (h digits heq).elim
  · exact mapError_eq_ok_iff

theorem ne_mark_of_denotes {b : Numeral.Base} {text : List Char} {n : Nat}
    (h : Numeral.Denotes b text n) (digits : List Char) : text ≠ '0' :: 'x' :: digits := by
  rintro rfl
  have hx : ∀ d < 16, d.digitChar ≠ 'x'.toLower := by decide
  obtain ⟨d, hd, heq⟩ := h.exists_digit (c := 'x') (by simp)
  exact hx d hd heq

theorem readNonce_decimal_eq_ok_iff {zeros n : Nat} {v : UInt64} :
    readNonce (String.ofList (List.replicate zeros '0' ++ Nat.toDigits 10 n)) = .ok v ↔
      v.toNat = n := by
  have hwritten := (Numeral.denotes_toDigits .decimal n).zeros zeros
  rw [readNonce_of_no_mark, String.toList_ofList]
  · exact Numeral.read_toDigits_eq_ok_iff (b := .decimal)
  · intro digits
    rw [String.toList_ofList]
    exact ne_mark_of_denotes hwritten digits

theorem readNonce_hexadecimal_eq_ok_iff {zeros n : Nat} {v : UInt64} :
    readNonce ("0x" ++ String.ofList (List.replicate zeros '0' ++ Nat.toDigits 16 n)) = .ok v ↔
      v.toNat = n := by
  rw [readNonce_of_mark (toList_mark_append _), String.toList_ofList]
  exact Numeral.read_toDigits_eq_ok_iff (b := .hexadecimal)

/-- A text is taken for a nonce exactly if it is a number of 64 bits: in hexadecimal digits of either
case after `0x`, and in decimal digits otherwise, with or without a plus sign before the digits. The
nonce is then that number, and a number is taken only as itself, however many zeros stand before it. -/
theorem readNonce_exact :
    (∀ text v, readNonce text = .ok v ↔
      (∃ rest, text.toList = '0' :: 'x' :: rest ∧
        ∃ digits, (rest = digits ∨ rest = '+' :: digits) ∧
          Numeral.Denotes .hexadecimal digits v.toNat) ∨
      (∀ rest, text.toList ≠ '0' :: 'x' :: rest) ∧
        ∃ digits, (text.toList = digits ∨ text.toList = '+' :: digits) ∧
          Numeral.Denotes .decimal digits v.toNat) ∧
    (∀ (zeros n : Nat) v,
      (readNonce (String.ofList (List.replicate zeros '0' ++ Nat.toDigits 10 n)) = .ok v ↔
        v.toNat = n) ∧
      (readNonce ("0x" ++ String.ofList (List.replicate zeros '0' ++ Nat.toDigits 16 n)) = .ok v ↔
        v.toNat = n)) ∧
    ∀ n : UInt64, readNonce (toString n.toNat) = .ok n ∧
      readNonce ("0x" ++ String.ofList (Nat.toDigits 16 n.toNat)) = .ok n := by
  refine ⟨fun text v => ?_, fun zeros n v => ?_, fun n => ⟨?_, ?_⟩⟩
  · by_cases h : ∃ rest, text.toList = '0' :: 'x' :: rest
    · obtain ⟨rest, h⟩ := h
      rw [readNonce_of_mark h, Numeral.read_eq_ok_iff]
      simp [h]
    · have hno : ∀ rest, text.toList ≠ '0' :: 'x' :: rest := not_exists.mp h
      rw [readNonce_of_no_mark hno, Numeral.read_eq_ok_iff]
      simp [hno]
  · exact ⟨readNonce_decimal_eq_ok_iff, readNonce_hexadecimal_eq_ok_iff⟩
  · have h : readNonce (String.ofList (List.replicate 0 '0' ++ Nat.toDigits 10 n.toNat)) = .ok n :=
      readNonce_decimal_eq_ok_iff.mpr rfl
    exact h
  · have h : readNonce ("0x" ++ String.ofList (List.replicate 0 '0' ++ Nat.toDigits 16 n.toNat)) =
        .ok n :=
      readNonce_hexadecimal_eq_ok_iff.mpr rfl
    exact h

end ProofOfWork.Cli
