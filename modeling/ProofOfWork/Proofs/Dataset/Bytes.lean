import ProofOfWork.Dataset.Generation
import ProofOfWork.Hashimoto
import ProofOfWork.Proofs.Disk.Contents

/-! The byte string of a whole dataset, and memories that hold it: which sizes are accepted, what
writing a node to a memory changes, and when a memory has all nodes of a dataset. -/

namespace ProofOfWork

theorem Dataset.nodeCount_eq (size : Nat) :
    nodeCount size =
      if size = 0 ∨ size % 128 ≠ 0 then .error (.datasetSizeUneven size)
      else if 2 ^ 32 ≤ size / 64 then .error (.datasetSizeTooLarge size)
      else .ok (size / 64).toUInt32 := rfl

/-- The nodes of a dataset of an accepted size fill it, and they come in pairs. -/
theorem Dataset.nodeCount_eq_ok {size : Nat} {count : UInt32} (h : nodeCount size = .ok count) :
    size = 64 * count.toNat ∧ 0 < count.toNat ∧ count.toNat % 2 = 0 := by
  rw [nodeCount_eq] at h
  split at h
  · contradiction
  · split at h
    · contradiction
    · cases h
      have hcount : (size / 64).toUInt32.toNat = size / 64 := by
        rw [Nat.toUInt32_eq, UInt32.toNat_ofNat']
        omega
      omega

namespace Dataset

variable (H : Hasher) (c : Cache)

/-- The first `n` nodes of the dataset, side by side. -/
def bytes : (n : Nat) → ByteArray
  | 0 => .empty
  | n + 1 => bytes n ++ (item H c n.toUInt32).bytes.bytes

@[simp] theorem size_bytes (n : Nat) : (bytes H c n).size = 64 * n := by
  induction n with
  | zero => rfl
  | succ n ih => rw [bytes, ByteArray.size_append, ih, ByteVector.size_bytes]; omega

theorem getElem!_bytes {n i j : Nat} (hi : i < n) (hj : j < 64) :
    (bytes H c n)[64 * i + j]! = (item H c i.toUInt32).bytes.bytes[j]! := by
  induction n with
  | zero => omega
  | succ n ih =>
    rw [bytes, Bytes.getElem!_append, size_bytes]
    by_cases h : i < n
    · rw [if_pos (by omega), ih h]
    · obtain rfl : i = n := by omega
      rw [if_neg (by omega), show 64 * i + j - 64 * i = j by omega]

end Dataset

namespace Hashimoto

theorem nodeAt?_eq_some_iff {b : ByteArray} {index : UInt32} {node : Node} :
    nodeAt? b index = some node ↔
      64 * index.toNat + 64 ≤ b.size ∧
        ∀ j < 64, node.bytes.bytes[j]! = b[64 * index.toNat + j]! := by
  unfold nodeAt?
  rw [Option.map_eq_some_iff, ← Bytes.slice?_eq_some_iff]
  exact ⟨by rintro ⟨v, h, rfl⟩; exact h, fun h => ⟨_, h, rfl⟩⟩

theorem exists_nodeAt? (b : ByteArray) (index : UInt32) (h : 64 * index.toNat + 64 ≤ b.size) :
    ∃ node, nodeAt? b index = some node := by
  have hslice : ByteVector.slice? (n := 64) b (64 * index.toNat) =
      some (ByteVector.slice b (64 * index.toNat) h) := dif_pos h
  exact ⟨_, congrArg (Option.map Node.mk) hslice⟩

theorem nodeAt?_congr {b b' : ByteArray} {index : UInt32}
    (hsize : 64 * index.toNat + 64 ≤ b.size ↔ 64 * index.toNat + 64 ≤ b'.size)
    (h : ∀ j < 64, b[64 * index.toNat + j]! = b'[64 * index.toNat + j]!) :
    nodeAt? b index = nodeAt? b' index := by
  refine Option.ext fun node => ?_
  rw [nodeAt?_eq_some_iff, nodeAt?_eq_some_iff, hsize]
  exact and_congr_right fun _ => forall₂_congr fun j hj => by rw [h j hj]

end Hashimoto

namespace Dataset

open Hashimoto (nodeAt? nodeAt?_eq_some_iff nodeAt?_congr)

variable {H : Hasher} {c : Cache}

theorem nodeAt?_bytes {n : Nat} {index : UInt32} (h : index.toNat < n) :
    nodeAt? (bytes H c n) index = some (item H c index) := by
  rw [nodeAt?_eq_some_iff]
  refine ⟨by rw [size_bytes]; omega, fun j hj => ?_⟩
  rw [getElem!_bytes H c h hj, Nat.toUInt32_eq, UInt32.ofNat_toNat]

/-- A memory of the right size with all nodes of the dataset is the dataset. -/
theorem eq_bytes {b : ByteArray} {count : UInt32} (hsize : b.size = 64 * count.toNat)
    (h : ∀ index : UInt32, index < count → nodeAt? b index = some (item H c index)) :
    b = bytes H c count.toNat := by
  refine Bytes.ext (by rw [hsize, size_bytes]) fun k hk => ?_
  have hlt := count.toNat_lt
  have hindex : (k / 64).toUInt32.toNat = k / 64 := by
    rw [Nat.toUInt32_eq, UInt32.toNat_ofNat']
    omega
  have hnode := h (k / 64).toUInt32 (by rw [UInt32.lt_iff_toNat_lt, hindex]; omega)
  have hbyte := (nodeAt?_eq_some_iff.mp hnode).2 (k % 64) (by omega)
  rw [hindex, show 64 * (k / 64) + k % 64 = k by omega] at hbyte
  have hd := getElem!_bytes H c (n := count.toNat) (i := k / 64) (j := k % 64) (by omega) (by omega)
  rw [show 64 * (k / 64) + k % 64 = k by omega] at hd
  rw [hd, hbyte]

section

variable (memory : ByteArray) (index : UInt32) (node : Node)

theorem setNode_eq :
    setNode memory index node =
      if 64 * index.toNat + 64 ≤ memory.size then
        node.bytes.bytes.copySlice 0 memory (64 * index.toNat) 64
      else memory := rfl

@[simp] theorem size_setNode : (setNode memory index node).size = memory.size := by
  have hnode : node.bytes.bytes.size = 64 := node.bytes.size_bytes
  rw [setNode_eq]
  split
  · rw [Bytes.size_copySlice _ _ _ _ _ _ (by omega) (by omega)]
    omega
  · rfl

variable {memory index} in
theorem nodeAt?_setNode (h : 64 * index.toNat + 64 ≤ memory.size) :
    nodeAt? (setNode memory index node) index = some node := by
  have hnode : node.bytes.bytes.size = 64 := node.bytes.size_bytes
  rw [nodeAt?_eq_some_iff, size_setNode]
  refine ⟨h, fun j hj => ?_⟩
  rw [setNode_eq, if_pos h, Bytes.getElem!_copySlice _ _ _ _ _ _ (by omega) (by omega),
    if_pos (by omega), show 0 + (64 * index.toNat + j - 64 * index.toNat) = j by omega]

theorem nodeAt?_setNode_ne {other : UInt32} (h : other ≠ index) :
    nodeAt? (setNode memory index node) other = nodeAt? memory other := by
  have hnode : node.bytes.bytes.size = 64 := node.bytes.size_bytes
  have hne : other.toNat ≠ index.toNat := fun heq => h (UInt32.toNat_inj.mp heq)
  refine nodeAt?_congr (by rw [size_setNode]) fun j hj => ?_
  rw [setNode_eq]
  split
  · rw [Bytes.getElem!_copySlice _ _ _ _ _ _ (by omega) (by omega), if_neg (by omega)]
  · rfl

end

end Dataset

/-- A node that is written among the bytes of a file is written to the memory that is read there. -/
theorem Contents.read_write_node (d : Contents) {start n : Nat} {index : UInt32} (node : Node)
    (h : 64 * index.toNat + 64 ≤ n) :
    (d.write (start + 64 * index.toNat) node.bytes.bytes).read start n =
      Dataset.setNode (d.read start n) index node := by
  have hnode : node.bytes.bytes.size = 64 := node.bytes.size_bytes
  refine Bytes.ext (by simp) fun i hi => ?_
  rw [size_read] at hi
  rw [Dataset.setNode_eq, size_read, if_pos h,
    Bytes.getElem!_copySlice _ _ _ _ _ _ (by rw [size_read]; omega) (by omega), getElem!_read,
    getElem!_read, if_pos hi, if_pos hi, byte_write, hnode]
  by_cases hin : 64 * index.toNat ≤ i ∧ i < 64 * index.toNat + 64
  · rw [if_pos (by omega), if_pos hin]
    congr 1
    omega
  · rw [if_neg (by omega), if_neg hin]

end ProofOfWork
