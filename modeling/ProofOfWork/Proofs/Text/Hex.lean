import ProofOfWork.Text.Hex

/-! Hexadecimal text. A text is read as the bytes whose digits it has, in either case, and so what is
written for bytes is read back as these bytes. -/

namespace ProofOfWork

namespace Text

theorem utf8Size_of_toNat_lt {c : Char} (h : c.toNat < 128) : c.utf8Size = 1 := by
  refine if_pos (UInt32.le_iff_toNat_le.mpr ?_)
  rw [Char.toNat_val]
  exact Nat.le_of_lt_succ h

theorem utf8Size_of_isAlphanum {c : Char} (h : c.isAlphanum = true) : c.utf8Size = 1 := by
  delta Char.isAlphanum Char.isAlpha Char.isUpper Char.isLower Char.isDigit at h
  simp only [Bool.or_eq_true, Bool.and_eq_true, decide_eq_true_eq, UInt32.le_iff_toNat_le,
    ge_iff_le] at h
  have hupper : 'Z'.val.toNat = 90 := rfl
  have hlower : 'z'.val.toNat = 122 := rfl
  have hdigit : '9'.val.toNat = 57 := rfl
  apply utf8Size_of_toNat_lt
  rw [← Char.toNat_val]
  omega

theorem utf8ByteSize_ofList {l : List Char} (h : ∀ c ∈ l, c.utf8Size = 1) :
    (String.ofList l).utf8ByteSize = l.length := by
  induction l with
  | nil => rfl
  | cons c l ih =>
    obtain ⟨hc, hl⟩ := List.forall_mem_cons.mp h
    rw [String.ofList_cons, String.utf8ByteSize_append, String.utf8ByteSize_singleton, hc, ih hl,
      List.length_cons, Nat.add_comm]

theorem toLower_of_le_toNat {c : Char} (h : 128 ≤ c.toNat) : c.toLower = c := by
  have hupper : 'Z'.val.toNat = 90 := rfl
  refine dif_neg fun hle => ?_
  have hz := UInt32.le_iff_toNat_le.mp hle.2
  rw [Char.toNat_val] at hz
  omega

end Text

namespace Hex

/-! ### Digits -/

theorem high_lt (b : UInt8) : b.toNat / 16 < 16 := by
  have hlt := b.toNat_lt
  omega

theorem low_lt (b : UInt8) : b.toNat % 16 < 16 := Nat.mod_lt _ (by decide)

theorem digit_eq {n : Nat} (h : n < 16) : digit n = n.digitChar := by
  revert n
  decide

theorem toLower_digitChar {n : Nat} (h : n < 16) : n.digitChar.toLower = n.digitChar := by
  revert n
  decide

theorem isAlphanum_digitChar {n : Nat} (h : n < 16) : n.digitChar.isAlphanum = true := by
  revert n
  decide

theorem digitValue?_of_toNat_lt :
    ∀ n < 128, (∀ v ∈ digitValue? (Char.ofNat n), v < 16) ∧
      ∀ v < 16, digitValue? (Char.ofNat n) = some v ↔ (Char.ofNat n).toLower = v.digitChar := by
  decide +kernel

theorem digitValue?_of_le_toNat {c : Char} (h : 128 ≤ c.toNat) : digitValue? c = none := by
  have hnine : '9'.toNat = 57 := rfl
  have hlower : 'f'.toNat = 102 := rfl
  have hupper : 'F'.toNat = 70 := rfl
  simp only [digitValue?, Char.le_def, UInt32.le_iff_toNat_le, Char.toNat_val]
  rw [if_neg (by omega), if_neg (by omega), if_neg (by omega)]

theorem digitValue?_eq_some_iff {c : Char} {v : Nat} :
    digitValue? c = some v ↔ v < 16 ∧ c.toLower = v.digitChar := by
  by_cases h : c.toNat < 128
  · obtain ⟨hlt, hiff⟩ := digitValue?_of_toNat_lt c.toNat h
    rw [Char.ofNat_toNat] at hlt hiff
    exact ⟨fun hv => ⟨hlt v hv, (hiff v (hlt v hv)).mp hv⟩, fun hv => (hiff v hv.1).mpr hv.2⟩
  · have hdigit : ∀ v < 16, v.digitChar.toNat < 128 := by decide
    rw [digitValue?_of_le_toNat (by omega), Text.toLower_of_le_toNat (by omega)]
    refine iff_of_false nofun ?_
    rintro ⟨hv, rfl⟩
    exact h (hdigit v hv)

theorem utf8Size_of_digitValue? {c : Char} {v : Nat} (h : digitValue? c = some v) :
    c.utf8Size = 1 := by
  rcases Nat.lt_or_ge c.toNat 128 with hlt | hle
  · exact Text.utf8Size_of_toNat_lt hlt
  · rw [digitValue?_of_le_toNat hle] at h
    contradiction

/-! ### The digits of bytes -/

def halves (bytes : List UInt8) : List Nat := bytes.flatMap fun b => [b.toNat / 16, b.toNat % 16]

@[simp] theorem halves_cons (b : UInt8) (bytes : List UInt8) :
    halves (b :: bytes) = b.toNat / 16 :: b.toNat % 16 :: halves bytes := rfl

@[simp] theorem length_halves (bytes : List UInt8) : (halves bytes).length = 2 * bytes.length := by
  induction bytes with
  | nil => rfl
  | cons b bytes ih => simp [ih]; omega

theorem lt_of_mem_halves {bytes : List UInt8} : ∀ v ∈ halves bytes, v < 16 := by
  induction bytes with
  | nil => exact List.forall_mem_nil _
  | cons b bytes ih => simpa [high_lt, low_lt] using ih

theorem digits_eq (bytes : List UInt8) : digits bytes = (halves bytes).map Nat.digitChar := by
  induction bytes with
  | nil => rfl
  | cons b bytes ih =>
    show digit (b.toNat / 16) :: digit (b.toNat % 16) :: digits bytes = _
    simp [digit_eq (high_lt b), digit_eq (low_lt b), ih]

@[simp] theorem length_digits (bytes : List UInt8) : (digits bytes).length = 2 * bytes.length := by
  rw [digits_eq, List.length_map, length_halves]

theorem exists_of_mem_digits {bytes : List UInt8} {c : Char} (h : c ∈ digits bytes) :
    ∃ v < 16, c = v.digitChar := by
  rw [digits_eq] at h
  obtain ⟨v, hv, rfl⟩ := List.mem_map.mp h
  exact ⟨v, lt_of_mem_halves v hv, rfl⟩

theorem isAlphanum_of_mem_digits {bytes : List UInt8} {c : Char} (h : c ∈ digits bytes) :
    c.isAlphanum = true := by
  obtain ⟨v, hv, rfl⟩ := exists_of_mem_digits h
  exact isAlphanum_digitChar hv

theorem map_toLower_digits (bytes : List UInt8) :
    (digits bytes).map Char.toLower = digits bytes := by
  rw [digits_eq, List.map_map]
  exact List.map_congr_left fun v hv => toLower_digitChar (lt_of_mem_halves v hv)

/-! ### Reading -/

theorem digitValues_cons_eq_ok_iff {c : Char} {text : List Char} {values : List Nat}
    {position : Nat} :
    digitValues position (c :: text) = .ok values ↔ ∃ v rest, digitValue? c = some v ∧
      digitValues (position + 1) text = .ok rest ∧ values = v :: rest := by
  rw [digitValues]
  cases hc : digitValue? c with
  | none => exact iff_of_false nofun (by rintro ⟨_, _, h, -⟩; contradiction)
  | some v =>
    cases hrest : digitValues (position + 1) text with
    | error e => exact iff_of_false nofun (by rintro ⟨_, _, -, h, -⟩; contradiction)
    | ok rest => simp [eq_comm, bind, Except.bind, pure, Except.pure]

theorem digitValues_eq_ok_iff {text : List Char} {values : List Nat} {position : Nat} :
    digitValues position text = .ok values ↔
      text.map Char.toLower = values.map Nat.digitChar ∧ ∀ v ∈ values, v < 16 := by
  induction text generalizing position values with
  | nil => cases values <;> simp [digitValues]
  | cons c text ih =>
    simp only [digitValues_cons_eq_ok_iff, digitValue?_eq_some_iff, ih]
    cases values with
    | nil => simp
    | cons v values =>
      simp only [List.map_cons, List.cons.injEq, List.forall_mem_cons]
      grind

theorem exists_digitValues {text : List Char} (h : ∀ c ∈ text, ∃ v < 16, c.toLower = v.digitChar)
    (position : Nat) : ∃ values, digitValues position text = .ok values := by
  induction text generalizing position with
  | nil => exact ⟨[], rfl⟩
  | cons c text ih =>
    obtain ⟨⟨v, hc⟩, htext⟩ := List.forall_mem_cons.mp h
    obtain ⟨values, hvalues⟩ := ih htext (position + 1)
    exact ⟨_, digitValues_cons_eq_ok_iff.mpr
      ⟨v, values, digitValue?_eq_some_iff.mpr hc, hvalues, rfl⟩⟩

/-- Digits take up one byte each, so that the length which is checked is their number. -/
theorem byteCount_of_digitValues {text : List Char} {values : List Nat} {position : Nat}
    (h : digitValues position text = .ok values) : byteCount text = values.length := by
  induction text generalizing position values with
  | nil =>
    obtain rfl := Except.ok.inj h
    rfl
  | cons c text ih =>
    obtain ⟨v, rest, hc, hrest, rfl⟩ := digitValues_cons_eq_ok_iff.mp h
    rw [byteCount, utf8Size_of_digitValue? hc, ih hrest, List.length_cons, Nat.add_comm]

theorem pairs_halves (bytes : List UInt8) : pairs (halves bytes) = bytes := by
  induction bytes with
  | nil => rfl
  | cons b bytes ih => rw [halves_cons, pairs, ih, Nat.div_add_mod, UInt8.ofNat_toNat]

theorem halves_pairs {values : List Nat} (hlength : values.length % 2 = 0)
    (hvalues : ∀ v ∈ values, v < 16) : halves (pairs values) = values := by
  fun_induction pairs values with
  | case1 high low rest ih =>
    have hhigh : high < 16 := hvalues high (by simp)
    have hlow : low < 16 := hvalues low (by simp)
    have heven : rest.length % 2 = 0 := by simpa [Nat.add_assoc] using hlength
    have hbyte : 16 * high + low < 256 := by omega
    rw [halves_cons, ih heven fun v hv => hvalues v (by simp [hv]), UInt8.toNat_ofNat_of_lt' hbyte,
      show (16 * high + low) / 16 = high by omega, show (16 * high + low) % 16 = low by omega]
  | case2 values h =>
    match values with
    | [] => rfl
    | [_] => simp at hlength
    | high :: low :: rest => exact (h high low rest rfl).elim

theorem decode_of_digitValues {text : List Char} {values : List Nat}
    (h : digitValues 0 text = .ok values) :
    decode text = if values.length % 2 = 1 then .error .oddLength else .ok (pairs values) := by
  rw [decode, h, byteCount_of_digitValues h]
  split <;> rfl

theorem exists_digitValues_of_decode {text : List Char} {bytes : List UInt8}
    (h : decode text = .ok bytes) : ∃ values, digitValues 0 text = .ok values := by
  cases hvalues : digitValues 0 text with
  | ok values => exact ⟨values, rfl⟩
  | error e =>
    rw [decode, hvalues] at h
    split at h <;> contradiction

theorem decode_eq_ok_iff {text : List Char} {bytes : List UInt8} :
    decode text = .ok bytes ↔ text.map Char.toLower = digits bytes := by
  rw [digits_eq]
  constructor
  · intro h
    obtain ⟨values, hvalues⟩ := exists_digitValues_of_decode h
    obtain ⟨hmap, hlt⟩ := digitValues_eq_ok_iff.mp hvalues
    rw [decode_of_digitValues hvalues] at h
    split at h
    · contradiction
    · obtain rfl := Except.ok.inj h
      rw [hmap, halves_pairs (by omega) hlt]
  · intro h
    have hvalues : digitValues 0 text = .ok (halves bytes) :=
      digitValues_eq_ok_iff.mpr ⟨h, lt_of_mem_halves⟩
    rw [decode_of_digitValues hvalues, length_halves, if_neg (by omega), pairs_halves]

/-- Every even number of digits stands for bytes. -/
theorem exists_decode_eq_ok_iff {text : List Char} :
    (∃ bytes, decode text = .ok bytes) ↔
      text.length % 2 = 0 ∧ ∀ c ∈ text, ∃ v < 16, c.toLower = v.digitChar := by
  constructor
  · rintro ⟨bytes, h⟩
    have hmap := decode_eq_ok_iff.mp h
    refine ⟨?_, fun c hc => exists_of_mem_digits (hmap ▸ List.mem_map_of_mem hc)⟩
    have hlength := congrArg List.length hmap
    rw [List.length_map, length_digits] at hlength
    omega
  · rintro ⟨heven, hdigits⟩
    obtain ⟨values, hvalues⟩ := exists_digitValues hdigits 0
    have hlength := congrArg List.length (digitValues_eq_ok_iff.mp hvalues).1
    rw [List.length_map, List.length_map] at hlength
    exact ⟨pairs values, by rw [decode_of_digitValues hvalues, if_neg (by omega)]⟩

theorem decode_digits (bytes : List UInt8) : decode (digits bytes) = .ok bytes :=
  decode_eq_ok_iff.mpr (map_toLower_digits bytes)

theorem digits_injective {bytes bytes' : List UInt8} (h : digits bytes = digits bytes') :
    bytes = bytes' :=
  Except.ok.inj ((decode_digits bytes).symm.trans ((congrArg decode h).trans (decode_digits bytes')))

end Hex

namespace ByteVector

variable {n : Nat}

theorem toList_toHex (v : ByteVector n) : v.toHex.toList = Hex.digits v.toList :=
  String.toList_ofList

theorem toList_injective {v w : ByteVector n} (h : v.toList = w.toList) : v = w := by
  obtain ⟨⟨v⟩, hv⟩ := v
  obtain ⟨⟨w⟩, hw⟩ := w
  obtain rfl := Array.toList_inj.mp h
  rfl

end ByteVector

end ProofOfWork
