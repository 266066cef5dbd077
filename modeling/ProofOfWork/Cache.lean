import ProofOfWork.Invalid
import ProofOfWork.Node

/-! Caches. A cache starts as a chain of hashes from a seed and is then hardened in place by three
passes, in which each node comes from its neighbour and from another node that its own first word
selects. -/

namespace ProofOfWork

/-- The nodes from which dataset nodes are computed. -/
structure Cache where
  nodes : Array Node
  size_pos : 0 < nodes.size
  size_lt : nodes.size < UInt32.size

namespace Cache

variable (H : Hasher)

/-- `nodes` followed by `count` nodes, each the hash of the one before, where `last` is the last node
so far. -/
def extend : (count : Nat) → (last : Node) → (nodes : Array Node) → Array Node
  | 0, _, nodes => nodes
  | count + 1, last, nodes =>
    let next := last.hash H
    extend count next (nodes.push next)

theorem size_extend (count : Nat) (last : Node) (nodes : Array Node) :
    (extend H count last nodes).size = nodes.size + count := by
  induction count generalizing last nodes with
  | zero => rfl
  | succ count ih => rw [extend, ih, Array.size_push]; omega

/-- The hash of the seed, the hash of that, and so on: `n + 1` nodes. -/
def chain (seed : Hash256) (n : Nat) : Vector Node (n + 1) :=
  let first : Node := ⟨H.hash512 seed.bytes⟩
  ⟨extend H n first #[first], by rw [size_extend]; simp [Nat.add_comm]⟩

/-- What node `i` becomes: the hash of its predecessor, in a circle, combined with the node that its
first word selects. -/
def hardened {n : Nat} (nodes : Vector Node n) (i : Nat) (h : i < n) : Node :=
  have pos : 0 < n := by omega
  let source := (nodes[i].firstWord).toNat % n
  have : source < n := Nat.mod_lt _ pos
  have : (n - 1 + i) % n < n := Nat.mod_lt _ pos
  (nodes[(n - 1 + i) % n].xor nodes[source]).hash H

/-- One pass over the cache, from the first node to the last. -/
def hardenPass {n : Nat} (nodes : Vector Node n) : Vector Node n :=
  n.fold (fun i h nodes => nodes.set i (hardened H nodes i h)) nodes

/-- The passes over the cache. -/
def harden {n : Nat} (nodes : Vector Node n) : Vector Node n :=
  Params.cacheRounds.fold (fun _ _ nodes => hardenPass H nodes) nodes

/-- The nodes in a cache of `size` bytes: a positive number of 32 bits. -/
def nodeCount (size : Nat) : Except Invalid { n : Nat // n + 1 < UInt32.size } :=
  if size = 0 ∨ size % Params.nodeBytes ≠ 0 then .error (.cacheSizeUneven size)
  else if h : size / Params.nodeBytes - 1 + 1 < UInt32.size then
    .ok ⟨size / Params.nodeBytes - 1, h⟩
  else .error (.cacheSizeTooLarge size)

/-- The cache of `n + 1` nodes for a seed. -/
def ofSeed (n : Nat) (h : n + 1 < UInt32.size) (seed : Hash256) : Cache :=
  ⟨(harden H (chain H seed n)).toArray, by rw [Vector.size_toArray]; omega,
    by rw [Vector.size_toArray]; exact h⟩

/-- The cache of `size` bytes for a seed. -/
def build (size : Nat) (seed : Hash256) : Except Invalid Cache :=
  (nodeCount size).map fun ⟨n, h⟩ => ofSeed H n h seed

variable {H}

/-- The number of nodes. -/
def count (c : Cache) : UInt32 := c.nodes.size.toUInt32

theorem toNat_count (c : Cache) : c.count.toNat = c.nodes.size :=
  UInt32.toNat_ofNat_of_lt' c.size_lt

/-- The number of bytes. -/
def sizeBytes (c : Cache) : Nat := c.nodes.size * Params.nodeBytes

/-- The node that a word selects, counted in a circle. -/
def select (c : Cache) (w : UInt32) : Node :=
  have : (w % c.count).toNat < c.nodes.size := by
    rw [UInt32.toNat_mod, toNat_count]
    exact Nat.mod_lt _ c.size_pos
  c.nodes[(w % c.count).toNat]

/-- All bytes of the cache. -/
def bytes (c : Cache) : ByteArray := c.nodes.foldl (fun b node => b ++ node.bytes.bytes) .empty

/-- The text that shows a cache to a developer. -/
def debug (c : Cache) : String :=
  "Cache \x7b nodes: " ++ toString c.nodes.size ++ ", size_bytes: " ++ toString c.sizeBytes ++ " \x7d"

end Cache

end ProofOfWork
