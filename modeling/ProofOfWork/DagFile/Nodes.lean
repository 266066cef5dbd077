import ProofOfWork.DagFile.Files
import ProofOfWork.Node

/-! The dataset nodes in a DAG file. They stand side by side after the magic number, so that one of
them can be read without the others. -/

namespace ProofOfWork

/-- The position of a dataset node in a DAG file. -/
def DagFile.nodeStart (index : UInt32) : Nat := Params.magicBytes + Params.nodeBytes * index.toNat

/-- A node in the memory of a mapped file. -/
def Disk.loadNode (d : Disk) (file : Handle) (offset : Nat) : Node :=
  (Node.ofByteArray? (d.mapped file offset (offset + Params.nodeBytes))).getD .zero

end ProofOfWork
