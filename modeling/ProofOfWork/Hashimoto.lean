import ProofOfWork.Dataset.Item
import ProofOfWork.Dataset.Size
import ProofOfWork.Program

/-! The hash of a header and a nonce over a dataset. The seed of the two selects a first page of the
dataset, which is mixed in and selects the next one. Where the dataset nodes come from is left to
whoever runs the hash: a cache, a dataset in memory, or a record of the nodes that were asked for. -/

namespace ProofOfWork

/-- A hash, and the mix digest by which it can be checked cheaply. -/
structure PowHash where
  result : Hash256
  mixHash : Hash256
deriving DecidableEq

/-- The hash asks for dataset nodes by index. -/
def NodeLookup : Interface := ⟨UInt32, fun _ => Node⟩

namespace Hashimoto

variable (H : Hasher)

/-- The words of a page while it is mixed. -/
abbrev Mix := Vector UInt32 32

/-- The hash of the header followed by the nonce. -/
def seedHash (header : Hash256) (nonce : UInt64) : Hash512 :=
  let tail : ByteVector 8 := .ofFn fun i => LittleEndian.byte64 nonce i
  H.hash512 (header.bytes ++ tail.bytes)

/-- The hash of the seed followed by the mix digest. -/
def finalHash (seed : Hash512) (mixHash : Hash256) : Hash256 :=
  H.hash256 (seed.bytes ++ mixHash.bytes)

/-- The words of the seed, twice. -/
def initialMix (seed : Hash512) : Mix :=
  .ofFn fun w => Node.word ⟨seed⟩ (w % 16) (Nat.mod_lt _ (by decide))

/-- The page that access `i` reads, of `pages`. -/
def pageIndex (seedWord : UInt32) (pages : UInt32) (mix : Mix) (i : Nat) : UInt32 :=
  fnv (seedWord ^^^ i.toUInt32) (mix.get (Fin.ofNat 32 i)) % pages

/-- The mix with a dataset node mixed into half `half` of it. -/
def mixHalf (half : Nat) (mix : Mix) (node : Node) : Mix :=
  mix.mapFinIdx fun w x _ =>
    if w / 16 = half then fnv x (node.word (w % 16) (Nat.mod_lt _ (by decide))) else x

/-- Asks for a dataset node. -/
def lookup (index : UInt32) : Program NodeLookup Node := .perform (I := NodeLookup) index

/-- One access: the two nodes of a page are mixed into the two halves. -/
def access (seedWord : UInt32) (pages : UInt32) (mix : Mix) (i : Nat) : Program NodeLookup Mix := do
  let page := pageIndex seedWord pages mix i
  let mix := mixHalf 0 mix (← lookup (page * 2))
  return mixHalf 1 mix (← lookup (page * 2 + 1))

/-- The mix folded to a quarter: eight words, each from four, and their bytes. -/
def compress (mix : Mix) : Hash256 :=
  .ofFn fun i =>
    have := i.isLt
    let j := i.val / 4
    have : 4 * j + 3 < 32 := by omega
    let word := fnv (fnv (fnv mix[4 * j] mix[4 * j + 1]) mix[4 * j + 2]) mix[4 * j + 3]
    LittleEndian.byte32 word (i % 4)

/-- The hash over a dataset of `count` nodes. -/
def overNodes (count : UInt32) (header : Hash256) (nonce : UInt64) :
    Program NodeLookup PowHash := do
  let seed := seedHash H header nonce
  let seedWord := Node.firstWord ⟨seed⟩
  let mix ← (List.range Params.accesses).foldlM (access seedWord (count / 2)) (initialMix seed)
  let mixHash := compress mix
  return ⟨finalHash H seed mixHash, mixHash⟩

/-- The hash over a dataset of `size` bytes. -/
def program (size : Nat) (header : Hash256) (nonce : UInt64) :
    Except Invalid (Program NodeLookup PowHash) := do
  return overNodes H (← Dataset.nodeCount size) header nonce

/-- The hash over a dataset of `size` bytes whose nodes `nodes` gives. -/
def compute (size : Nat) (nodes : UInt32 → Node) (header : Hash256) (nonce : UInt64) :
    Except Invalid PowHash := do
  return (← program H size header nonce).eval (I := NodeLookup) nodes

/-- The hash over a dataset of `size` bytes whose nodes are computed from a cache. -/
def light (c : Cache) (size : Nat) (header : Hash256) (nonce : UInt64) : Except Invalid PowHash :=
  compute H size (Dataset.item H c) header nonce

/-- Node `index` of a dataset in memory, if the memory reaches that far. -/
def nodeAt? (dataset : ByteArray) (index : UInt32) : Option Node :=
  (ByteVector.slice? dataset (Params.nodeBytes * index.toNat)).map Node.mk

/-- The hash over a dataset in memory that should have `size` bytes, if the memory reaches as far as
the hash looks. -/
def overMemory (dataset : ByteArray) (size : Nat) (header : Hash256) (nonce : UInt64) :
    Except Invalid (Option PowHash) := do
  return (← program H size header nonce).run (m := Option) (nodeAt? dataset)

/-- The hash over a dataset that is all in memory. -/
def full (dataset : ByteArray) (header : Hash256) (nonce : UInt64) :
    Except Invalid (Option PowHash) :=
  overMemory H dataset dataset.size header nonce

end Hashimoto

end ProofOfWork
