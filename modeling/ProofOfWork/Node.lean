import ProofOfWork.Bytes.LittleEndian
import ProofOfWork.Hasher
import ProofOfWork.Text.Hex

/-! Nodes, the units of 64 bytes that caches and datasets consist of. A node is also read as sixteen
words of 32 bits or eight of 64, all little-endian. -/

namespace ProofOfWork

/-- The step that mixes a word `b` into a word `a` between two hashes. -/
def fnv (a b : UInt32) : UInt32 := a * 0x01000193 ^^^ b

/-- A unit of 64 bytes. -/
structure Node where
  bytes : ByteVector 64
deriving DecidableEq

namespace Node

/-- The node of zeros, which is also the node one starts from. -/
def zero : Node := ⟨.zero⟩

instance : Inhabited Node := ⟨zero⟩

/-- The node of a byte string of the right length. -/
def ofByteArray? (b : ByteArray) : Option Node := (ByteVector.ofByteArray? b).map Node.mk

/-- The node whose words are `words`. -/
def ofWords (words : Vector UInt32 16) : Node :=
  ⟨.ofFn fun i => LittleEndian.byte32 words[i.val / 4] (i % 4)⟩

/-- Word `i` of 32 bits. -/
def word (n : Node) (i : Nat) (h : i < 16 := by omega) : UInt32 :=
  LittleEndian.word32 n.bytes[4 * i] n.bytes[4 * i + 1] n.bytes[4 * i + 2] n.bytes[4 * i + 3]

/-- Word `0` of 32 bits. -/
def firstWord (n : Node) : UInt32 := n.word 0

/-- The node with its word `i` replaced. -/
def setWord (n : Node) (i : Nat) (w : UInt32) : Node :=
  ⟨.ofFn fun j => if j / 4 = i then LittleEndian.byte32 w (j % 4) else n.bytes[j]⟩

/-- Word `i` of 64 bits. -/
def doubleWord (n : Node) (i : Nat) (h : i < 8 := by omega) : UInt64 :=
  LittleEndian.word64 n.bytes[8 * i] n.bytes[8 * i + 1] n.bytes[8 * i + 2] n.bytes[8 * i + 3]
    n.bytes[8 * i + 4] n.bytes[8 * i + 5] n.bytes[8 * i + 6] n.bytes[8 * i + 7]

/-- The sixteen words of 32 bits. -/
def words (n : Node) : Vector UInt32 16 := .ofFn fun i => n.word i

/-- Word `i` of 32 bits, if there is one. -/
def word? (n : Node) (i : Nat) : Option UInt32 := if h : i < 16 then some (n.word i) else none

/-- Word `i` of 64 bits, if there is one. -/
def doubleWord? (n : Node) (i : Nat) : Option UInt64 :=
  if h : i < 8 then some (n.doubleWord i) else none

/-- The node with its word `i` replaced, if it has one. -/
def setWord? (n : Node) (i : Nat) (w : UInt32) : Option Node :=
  if i < 16 then some (n.setWord i w) else none

/-- Byte by byte exclusive or. -/
def xor (n m : Node) : Node := ⟨n.bytes.xor m.bytes⟩

/-- The hash of a node is a node. -/
def hash (H : Hasher) (n : Node) : Node := ⟨H.hash512 n.bytes.bytes⟩

/-- The text that shows a node to a developer. -/
def debug (n : Node) : String := "Node(" ++ n.bytes.toHex ++ ")"

end Node

end ProofOfWork
