import ProofOfWork.Bytes.Zeros

/-! The bytes of a file. Only those that were written are kept, in runs; all others are zero, so that
a file may be far longer than what is in it. -/

namespace ProofOfWork

/-- Bytes of a file side by side, the first of them at `start`. -/
structure Run where
  start : Nat
  bytes : ByteArray

namespace Run

/-- The position after the last byte. -/
def stop (r : Run) : Nat := r.start + r.bytes.size

/-- The part of a run before `limit`, if there is one. -/
def before? (limit : Nat) (r : Run) : Option Run :=
  if r.stop ≤ limit then some r
  else if r.start < limit then some ⟨r.start, r.bytes.extract 0 (limit - r.start)⟩
  else none

/-- Puts what a run has for it into a window on the file, the first byte of which is at `start`. -/
def copyInto (start : Nat) (r : Run) (window : ByteArray) : ByteArray :=
  let first := max r.start start
  let last := min r.stop (start + window.size)
  if first < last then
    r.bytes.copySlice (first - r.start) window (first - start) (last - first)
  else window

/-- Writes at a position in a run or right after it. -/
def write (r : Run) (offset : Nat) (data : ByteArray) : Run :=
  ⟨r.start, data.copySlice 0 r.bytes (offset - r.start) data.size false⟩

end Run

/-- The bytes of a file. -/
structure Contents where
  size : Nat
  /-- What was written, the latest first: it hides what is behind it in the list. -/
  runs : List Run

namespace Contents

def empty : Contents := ⟨0, []⟩

/-- The contents of a file with given bytes. -/
def ofBytes (b : ByteArray) : Contents := ⟨b.size, [⟨0, b⟩]⟩

/-- The `count` bytes from `start` on. Past the end of the file there are zeros. -/
def read (c : Contents) (start count : Nat) : ByteArray :=
  c.runs.foldr (Run.copyInto start) (zeroBytes count)

/-- The file enlarged by zeros, or cut, to `n` bytes. -/
def resize (c : Contents) (n : Nat) : Contents := ⟨n, c.runs.filterMap (Run.before? n)⟩

/-- The file with `data` written over it from `offset` on, enlarged where needed. Without data the
file stays as it is. -/
def write (c : Contents) (offset : Nat) (data : ByteArray) : Contents :=
  if data.size = 0 then c
  else
    ⟨max c.size (offset + data.size),
      match c.runs with
      | [] => [⟨offset, data⟩]
      | r :: rest =>
        if r.start ≤ offset ∧ offset ≤ r.stop then r.write offset data :: rest
        else ⟨offset, data⟩ :: r :: rest⟩

end Contents

end ProofOfWork
