import ProofOfWork.Disk.Contents
import ProofOfWork.Proofs.Bytes

/-! The bytes of a file one by one: what `read`, `write` and `resize` come to for each of them. -/

namespace ProofOfWork

theorem getElem!_zeroHalves (depth n i : Nat) : (zeroHalves depth n)[i]! = 0 := by
  have hreplicate (m j : Nat) : (ByteArray.mk (Array.replicate m 0))[j]! = 0 := by
    by_cases h : j < (ByteArray.mk (Array.replicate m 0)).size
    · rw [getElem!_pos _ j h, ByteArray.getElem_eq_getElem_data, Array.getElem_replicate]
    · exact getElem!_neg _ j h
  induction depth generalizing n i with
  | zero => exact hreplicate n i
  | succ depth ih =>
    simp only [zeroHalves, Bytes.getElem!_append, ih, hreplicate, ite_self]

theorem getElem!_zeroBytes (n i : Nat) : (zeroBytes n)[i]! = 0 := getElem!_zeroHalves _ n i

namespace Run

variable (r : Run) (start : Nat) (window : ByteArray)

theorem stop_eq : r.stop = r.start + r.bytes.size := rfl

theorem size_copyInto : (r.copyInto start window).size = window.size := by
  have hstop := r.stop_eq
  unfold copyInto
  dsimp only
  split
  · rw [Bytes.size_copySlice _ _ _ _ _ _ (by omega) (by omega)]
    omega
  · rfl

theorem getElem!_copyInto (i : Nat) :
    (r.copyInto start window)[i]! =
      if i < window.size ∧ r.start ≤ start + i ∧ start + i < r.stop then
        r.bytes[start + i - r.start]!
      else window[i]! := by
  have hstop := r.stop_eq
  by_cases hi : i < window.size
  · unfold copyInto
    dsimp only
    by_cases hr : r.start ≤ start + i ∧ start + i < r.stop
    · rw [if_pos (show max r.start start < min r.stop (start + window.size) by omega),
        Bytes.getElem!_copySlice _ _ _ _ _ _ (by omega) (by omega), if_pos (by omega),
        if_pos ⟨hi, hr⟩]
      congr 1
      omega
    · rw [if_neg (show ¬(i < window.size ∧ r.start ≤ start + i ∧ start + i < r.stop) by omega)]
      split
      · rw [Bytes.getElem!_copySlice _ _ _ _ _ _ (by omega) (by omega), if_neg (by omega)]
      · rfl
  · rw [if_neg fun h => hi h.1, Bytes.getElem!_of_size_le (by rw [size_copyInto]; omega),
      Bytes.getElem!_of_size_le (by omega)]

end Run

namespace Contents

/-- The byte at position `i` that runs leave, the first of them in front. -/
def byteOf : List Run → Nat → UInt8
  | [], _ => 0
  | r :: rest, i => if r.start ≤ i ∧ i < r.stop then r.bytes[i - r.start]! else byteOf rest i

/-- The byte at position `i` of a file. -/
def byte (c : Contents) (i : Nat) : UInt8 := byteOf c.runs i

variable (c : Contents)

@[simp] theorem size_read (start count : Nat) : (c.read start count).size = count := by
  unfold read
  induction c.runs with
  | nil => exact size_zeroBytes count
  | cons r rest ih => rw [List.foldr_cons, Run.size_copyInto, ih]

theorem getElem!_read (start count i : Nat) :
    (c.read start count)[i]! = if i < count then c.byte (start + i) else 0 := by
  by_cases hi : i < count
  · rw [if_pos hi]
    have hsize (runs : List Run) :
        (runs.foldr (Run.copyInto start) (zeroBytes count)).size = count :=
      size_read ⟨0, runs⟩ start count
    unfold read byte
    induction c.runs with
    | nil => exact getElem!_zeroBytes count i
    | cons r rest ih =>
      rw [List.foldr_cons, Run.getElem!_copyInto, hsize, byteOf, ih]
      simp only [hi, true_and]
  · rw [if_neg hi]
    exact Bytes.getElem!_of_size_le (by rw [size_read]; omega)

theorem read_eq_read {c c' : Contents} {start start' count : Nat}
    (h : ∀ i < count, c.byte (start + i) = c'.byte (start' + i)) :
    c.read start count = c'.read start' count := by
  refine Bytes.ext (by simp) fun i hi => ?_
  rw [size_read] at hi
  rw [getElem!_read, getElem!_read, if_pos hi, if_pos hi, h i hi]

/-- All bytes of a file. -/
def bytes : ByteArray := c.read 0 c.size

@[simp] theorem size_bytes : c.bytes.size = c.size := c.size_read 0 c.size

theorem getElem!_bytes {i : Nat} (h : i < c.size) : c.bytes[i]! = c.byte i := by
  rw [bytes, getElem!_read, if_pos h, Nat.zero_add]

theorem extract_bytes {start stop : Nat} (h : stop ≤ c.size) :
    c.bytes.extract start stop = c.read start (stop - start) := by
  refine Bytes.ext (by simp; omega) fun i hi => ?_
  rw [ByteArray.size_extract, size_bytes] at hi
  rw [Bytes.getElem!_extract, if_pos (by omega), c.getElem!_bytes (by omega), getElem!_read,
    if_pos (by omega)]

theorem bytes_eq_append {start n : Nat} (h : c.size = start + n) :
    c.bytes = c.read 0 start ++ c.read start n := by
  refine Bytes.ext (by simp [h]) fun i hi => ?_
  rw [size_bytes] at hi
  rw [c.getElem!_bytes hi, Bytes.getElem!_append, size_read, getElem!_read, getElem!_read]
  by_cases hstart : i < start
  · rw [if_pos hstart, if_pos hstart, Nat.zero_add]
  · rw [if_neg hstart, if_pos (by omega)]
    congr 1
    omega

@[simp] theorem bytes_ofBytes (b : ByteArray) : (ofBytes b).bytes = b := by
  have hbyte (i : Nat) (hi : i < b.size) : (ofBytes b).byte i = b[i]! :=
    if_pos ⟨Nat.zero_le i, by rw [Run.stop_eq, Nat.zero_add]; exact hi⟩
  refine Bytes.ext (size_bytes _) fun i hi => ?_
  rw [size_bytes] at hi
  rw [getElem!_bytes _ hi, hbyte i hi]

@[simp] theorem size_empty : empty.size = 0 := rfl

@[simp] theorem byte_empty (i : Nat) : empty.byte i = 0 := rfl

@[simp] theorem size_resize (n : Nat) : (c.resize n).size = n := rfl

theorem byteOf_cons {r : Run} {start stop : Nat} (hstart : r.start = start) (hstop : r.stop = stop)
    (rest : List Run) (i : Nat) :
    byteOf (r :: rest) i =
      if start ≤ i ∧ i < stop then r.bytes[i - start]! else byteOf rest i := by
  subst hstart hstop
  rfl

/-- Runs cut at `n` have zeros from there on. -/
theorem byteOf_before (n : Nat) (runs : List Run) (i : Nat) :
    byteOf (runs.filterMap (Run.before? n)) i = if i < n then byteOf runs i else 0 := by
  induction runs with
  | nil => simp [byteOf]
  | cons r rest ih =>
    have hstop := r.stop_eq
    by_cases hle : r.stop ≤ n
    · rw [List.filterMap_cons_some (show Run.before? n r = some r from if_pos hle)]
      simp only [byteOf, ih]
      split <;> split <;> first | rfl | omega
    by_cases hlt : r.start < n
    · let cut : Run := ⟨r.start, r.bytes.extract 0 (n - r.start)⟩
      have hcut : cut.stop = n := by
        show r.start + (r.bytes.extract 0 (n - r.start)).size = n
        rw [ByteArray.size_extract]
        omega
      have hbefore : Run.before? n r = some cut := by
        rw [Run.before?, if_neg hle, if_pos hlt]
      rw [List.filterMap_cons_some hbefore, byteOf_cons rfl hcut, ih, byteOf]
      show (if r.start ≤ i ∧ i < n then (r.bytes.extract 0 (n - r.start))[i - r.start]! else _) = _
      by_cases hi : r.start ≤ i ∧ i < n
      · rw [if_pos hi, if_pos hi.2, if_pos (show r.start ≤ i ∧ i < r.stop by omega),
          Bytes.getElem!_extract, if_pos (by omega), Nat.zero_add]
      · rw [if_neg hi]
        by_cases hn : i < n
        · rw [if_pos hn, if_pos hn, if_neg (by omega)]
        · rw [if_neg hn, if_neg hn]
    · have hbefore : Run.before? n r = none := by
        rw [Run.before?, if_neg hle, if_neg hlt]
      rw [List.filterMap_cons_none hbefore, ih, byteOf]
      by_cases hn : i < n
      · rw [if_pos hn, if_pos hn, if_neg (by omega)]
      · rw [if_neg hn, if_neg hn]

theorem byte_resize (n i : Nat) : (c.resize n).byte i = if i < n then c.byte i else 0 :=
  byteOf_before n c.runs i

theorem size_write (offset : Nat) (data : ByteArray) :
    (c.write offset data).size =
      if data.size = 0 then c.size else max c.size (offset + data.size) := by
  unfold write
  split <;> rfl

/-- A write in a run or right after it, seen from the runs behind it. -/
theorem byteOf_run_write {r : Run} {offset : Nat} (hr : r.start ≤ offset ∧ offset ≤ r.stop)
    (data : ByteArray) (rest : List Run) (i : Nat) :
    byteOf (r.write offset data :: rest) i =
      if offset ≤ i ∧ i < offset + data.size then data[i - offset]! else byteOf (r :: rest) i := by
  have hstop := r.stop_eq
  have hoff : offset - r.start ≤ r.bytes.size := by omega
  have hdata : 0 + data.size ≤ data.size := by omega
  have hstop' : (r.write offset data).stop = max r.stop (offset + data.size) := by
    show r.start + (data.copySlice 0 r.bytes (offset - r.start) data.size false).size = _
    rw [Bytes.size_copySlice _ _ _ _ _ _ hoff hdata]
    omega
  rw [byteOf_cons (show (r.write offset data).start = r.start from rfl) hstop', byteOf]
  show (if r.start ≤ i ∧ _ then
    (data.copySlice 0 r.bytes (offset - r.start) data.size false)[i - r.start]! else _) = _
  rw [Bytes.getElem!_copySlice _ _ _ _ _ _ hoff hdata]
  by_cases hi : offset ≤ i ∧ i < offset + data.size
  · rw [if_pos hi, if_pos (show r.start ≤ i ∧ i < max r.stop (offset + data.size) by omega),
      if_pos (by omega)]
    congr 1
    omega
  · rw [if_neg hi]
    by_cases hs : r.start ≤ i ∧ i < r.stop
    · rw [if_pos hs, if_pos (show r.start ≤ i ∧ i < max r.stop (offset + data.size) by omega),
        if_neg (by omega)]
    · rw [if_neg hs, if_neg (show ¬(r.start ≤ i ∧ i < max r.stop (offset + data.size)) by omega)]

/-- The bytes after a write: the data, and all others as they were. -/
theorem byte_write (offset : Nat) (data : ByteArray) (i : Nat) :
    (c.write offset data).byte i =
      if offset ≤ i ∧ i < offset + data.size then data[i - offset]! else c.byte i := by
  have halone (runs : List Run) : byteOf (⟨offset, data⟩ :: runs) i =
      if offset ≤ i ∧ i < offset + data.size then data[i - offset]! else byteOf runs i := rfl
  unfold write byte
  by_cases hdata : data.size = 0
  · rw [if_pos hdata, if_neg (by omega)]
  rw [if_neg hdata]
  rcases c.runs with _ | ⟨r, rest⟩
  · exact halone []
  · by_cases hr : r.start ≤ offset ∧ offset ≤ r.stop
    · simp only [if_pos hr]
      exact byteOf_run_write hr data rest i
    · simp only [if_neg hr]
      exact halone (r :: rest)

theorem read_resize {n start count : Nat} (h : start + count ≤ n) :
    (c.resize n).read start count = c.read start count :=
  read_eq_read fun i hi => by rw [byte_resize, if_pos (by omega)]

theorem bytes_resize_self : (c.resize c.size).bytes = c.bytes := by
  rw [bytes, size_resize, c.read_resize (by omega)]
  rfl

/-- The file with `data` written over it as far as it reaches, for which it must be long enough. -/
def overwrite (offset : Nat) (data : ByteArray) : Contents :=
  if offset + data.size ≤ c.size then c.write offset data else c

@[simp] theorem size_overwrite (offset : Nat) (data : ByteArray) :
    (c.overwrite offset data).size = c.size := by
  unfold overwrite
  split
  · rw [size_write]
    split
    · rfl
    · omega
  · rfl

theorem byte_overwrite_of_not_mem {offset : Nat} {data : ByteArray} {i : Nat}
    (h : i < offset ∨ offset + data.size ≤ i) : (c.overwrite offset data).byte i = c.byte i := by
  unfold overwrite
  split
  · rw [byte_write, if_neg (by omega)]
  · rfl

end Contents

end ProofOfWork
