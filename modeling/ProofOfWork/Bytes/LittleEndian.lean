/-! Words of 32 and 64 bits as bytes, the least significant byte first. -/

namespace ProofOfWork.LittleEndian

/-- Byte `k` of a 32-bit word. -/
def byte32 (w : UInt32) (k : Nat) : UInt8 := (w >>> (8 * k).toUInt32).toUInt8

/-- The 32-bit word of four bytes. -/
def word32 (b0 b1 b2 b3 : UInt8) : UInt32 :=
  b0.toUInt32 ||| b1.toUInt32 <<< 8 ||| b2.toUInt32 <<< 16 ||| b3.toUInt32 <<< 24

/-- Byte `k` of a 64-bit word. -/
def byte64 (w : UInt64) (k : Nat) : UInt8 := (w >>> (8 * k).toUInt64).toUInt8

/-- The 64-bit word of eight bytes. -/
def word64 (b0 b1 b2 b3 b4 b5 b6 b7 : UInt8) : UInt64 :=
  b0.toUInt64 ||| b1.toUInt64 <<< 8 ||| b2.toUInt64 <<< 16 ||| b3.toUInt64 <<< 24 |||
    b4.toUInt64 <<< 32 ||| b5.toUInt64 <<< 40 ||| b6.toUInt64 <<< 48 ||| b7.toUInt64 <<< 56

end ProofOfWork.LittleEndian
