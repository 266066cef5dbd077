import ProofOfWork.Cache

/-! Dataset nodes. Each is computed from the cache alone, in any order. -/

namespace ProofOfWork.Dataset

variable (H : Hasher)

/-- The words of a mix of one node with a cache node mixed in. -/
def mixIn (mix : Vector UInt32 16) (parent : Node) : Vector UInt32 16 :=
  mix.mapFinIdx fun w x _ => fnv x (parent.word w)

/-- The words of node `index` before its parents are mixed in. -/
def initialMix (c : Cache) (index : UInt32) : Vector UInt32 16 :=
  let start := c.select index
  ((start.setWord 0 (start.firstWord ^^^ index)).hash H).words

/-- The word that selects parent `i` of node `index`. -/
def parentWord (index : UInt32) (mix : Vector UInt32 16) (i : Nat) : UInt32 :=
  fnv (index ^^^ i.toUInt32) (mix.get (Fin.ofNat 16 i))

/-- Node `index` of the dataset. -/
def item (c : Cache) (index : UInt32) : Node :=
  let mix := Params.datasetParents.fold
    (fun i _ mix => mixIn mix (c.select (parentWord index mix i))) (initialMix H c index)
  (Node.ofWords mix).hash H

end ProofOfWork.Dataset
