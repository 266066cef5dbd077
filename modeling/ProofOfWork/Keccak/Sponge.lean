import ProofOfWork.Bytes.LittleEndian
import ProofOfWork.Bytes.Vector
import ProofOfWork.Keccak.Permutation

/-! Keccak with the padding that it had before it became the SHA-3 standard: a 1 bit, zeros and a 1
bit fill the last block. The two hashes give 32 and 64 bytes. -/

namespace ProofOfWork.Keccak

/-- What fills a message of `size` bytes up to a whole number of blocks of `rate` bytes. -/
def padding (rate size : Nat) : ByteArray :=
  let missing := rate - size % rate
  if missing = 1 then ⟨#[0x81]⟩
  else ⟨#[0x01] ++ Array.replicate (missing - 2) 0x00 ++ #[0x80]⟩

/-- Byte `i` of a byte string, zero past its end. -/
def byteAt (b : ByteArray) (i : Nat) : UInt8 := if h : i < b.size then b[i] else 0

/-- The word of the eight bytes of `b` from `i` on. -/
def wordAt (b : ByteArray) (i : Nat) : UInt64 :=
  LittleEndian.word64 (byteAt b i) (byteAt b (i + 1)) (byteAt b (i + 2)) (byteAt b (i + 3))
    (byteAt b (i + 4)) (byteAt b (i + 5)) (byteAt b (i + 6)) (byteAt b (i + 7))

/-- The state after the block of `rate` bytes from `start` on is added to it and permuted. -/
def absorbBlock (rate : Nat) (message : ByteArray) (s : State) (start : Nat) : State :=
  (s.xor (.ofLanes fun k => if k < rate / 8 then wordAt message (start + 8 * k) else 0)).permute

/-- The state after a whole number of blocks. -/
def absorb (rate : Nat) (message : ByteArray) : State :=
  Nat.fold (message.size / rate) (fun i _ s => absorbBlock rate message s (rate * i)) .zero

/-- Lane `k` of the first two planes, which is as far as a hash reaches. -/
def lane (s : State) : Nat → UInt64
  | 0 => s.p0.a
  | 1 => s.p0.b
  | 2 => s.p0.c
  | 3 => s.p0.d
  | 4 => s.p0.e
  | 5 => s.p1.a
  | 6 => s.p1.b
  | _ => s.p1.c

/-- The first `n` bytes of the state after a padded message. -/
def hash (rate n : Nat) (message : ByteArray) : ByteVector n :=
  let s := absorb rate (message ++ padding rate message.size)
  .ofFn fun i => LittleEndian.byte64 (lane s (i / 8)) (i % 8)

/-- The hash of 256 bits. -/
def hash256 : ByteArray → ByteVector 32 := hash 136 32

/-- The hash of 512 bits. -/
def hash512 : ByteArray → ByteVector 64 := hash 72 64

end ProofOfWork.Keccak
