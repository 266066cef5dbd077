/-! Byte strings whose length is part of their type: hashes of 32 bytes and nodes of 64. -/

namespace ProofOfWork

/-- A byte string of exactly `n` bytes. -/
structure ByteVector (n : Nat) where
  bytes : ByteArray
  size_bytes : bytes.size = n

namespace ByteVector

variable {n : Nat}

instance : GetElem (ByteVector n) Nat UInt8 fun _ i => i < n where
  getElem v i h := v.bytes.get i (by rw [v.size_bytes]; exact h)

/-- The bytes `f 0`, `f 1`, …, `f (n - 1)`. -/
def ofFn (f : Fin n → UInt8) : ByteVector n := ⟨⟨Array.ofFn f⟩, Array.size_ofFn⟩

@[simp] theorem getElem_ofFn (f : Fin n → UInt8) (i : Nat) (h : i < n) : (ofFn f)[i] = f ⟨i, h⟩ :=
  Array.getElem_ofFn ..

/-- Two byte strings of one length are equal when their bytes are. -/
@[ext] theorem ext {v w : ByteVector n} (h : ∀ (i : Nat) (hi : i < n), v[i] = w[i]) : v = w := by
  obtain ⟨v, hv⟩ := v
  obtain ⟨w, hw⟩ := w
  have : v = w := ByteArray.ext_getElem (hv.trans hw.symm) fun i hi _ => h i (hv ▸ hi)
  subst this
  rfl

instance : DecidableEq (ByteVector n) := fun v w =>
  if h : v.bytes.data = w.bytes.data then
    isTrue (by
      obtain ⟨⟨v⟩, hv⟩ := v
      obtain ⟨⟨w⟩, hw⟩ := w
      subst h
      rfl)
  else isFalse fun e => h (by rw [e])

/-- All bytes are zero. -/
def zero : ByteVector n := ofFn fun _ => 0

/-- All bytes are `b`. -/
def replicate (b : UInt8) : ByteVector n := ofFn fun _ => b

/-- The bytes of `b`, if there are exactly `n` of them. -/
def ofByteArray? (b : ByteArray) : Option (ByteVector n) :=
  if h : b.size = n then some ⟨b, h⟩ else none

@[simp] theorem ofByteArray?_bytes (v : ByteVector n) : ofByteArray? v.bytes = some v := by
  simp [ofByteArray?, v.size_bytes]

/-- The `n` bytes of `b` from `start` on, where `b` is long enough. -/
def slice (b : ByteArray) (start : Nat) (h : start + n ≤ b.size) : ByteVector n :=
  ⟨b.extract start (start + n), by rw [ByteArray.size_extract]; omega⟩

/-- The `n` bytes of `b` from `start` on, if `b` is long enough. -/
def slice? (b : ByteArray) (start : Nat) : Option (ByteVector n) :=
  if h : start + n ≤ b.size then some (slice b start h) else none

/-- Byte by byte exclusive or. -/
def xor (v w : ByteVector n) : ByteVector n := ofFn fun i => v[i] ^^^ w[i]

@[simp] theorem getElem_xor (v w : ByteVector n) (i : Nat) (h : i < n) :
    (v.xor w)[i] = v[i] ^^^ w[i] := by
  simp [xor]

/-- The bytes in order. -/
def toList (v : ByteVector n) : List UInt8 := v.bytes.data.toList

@[simp] theorem length_toList (v : ByteVector n) : v.toList.length = n := v.size_bytes

end ByteVector

end ProofOfWork
