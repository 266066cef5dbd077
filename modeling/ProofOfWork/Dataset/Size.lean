import ProofOfWork.Invalid

/-! Sizes of datasets, and how far a generation has come. -/

namespace ProofOfWork.Dataset

/-- The number of nodes in a dataset of `size` bytes, which must be a whole number of pages. All
nodes, and not only all pages, must have an index of 32 bits. -/
def nodeCount (size : Nat) : Except Invalid UInt32 :=
  if size = 0 ∨ size % Params.mixBytes ≠ 0 then .error (.datasetSizeUneven size)
  else if UInt32.size ≤ size / Params.nodeBytes then .error (.datasetSizeTooLarge size)
  else .ok (size / Params.nodeBytes).toUInt32

/-- The percentage at node `n` of `count`, rounded up. -/
def percent (n count : UInt32) : UInt32 :=
  ((n.toNat * 100 + count.toNat - 1) / count.toNat).toUInt32

/-- The nodes between two reports, about one percent. -/
def reportStep (count : UInt32) : UInt32 := max (count / 100) 1

end ProofOfWork.Dataset
