import ProofOfWork.Cache
import ProofOfWork.Proofs.Bytes

/-! What the passes over a cache compute. A pass writes over the nodes from which it reads, yet each
node of a round is given by nodes of that round and of the one before, and nothing else satisfies
these equations. -/

namespace ProofOfWork.Cache

variable (H : Hasher) {n : Nat}

/-! ### Sizes -/

theorem exists_nodeCount_eq_ok {size : Nat} (hpos : 0 < size) (hnodes : size % 64 = 0)
    (hlt : size / 64 < 2 ^ 32) : ∃ n, nodeCount size = .ok n := by
  have heven : ¬(size = 0 ∨ size % Params.nodeBytes ≠ 0) := by
    simp only [Params.nodeBytes]
    omega
  have hcount : size / Params.nodeBytes - 1 + 1 < UInt32.size := by
    simp only [Params.nodeBytes, UInt32.size]
    omega
  rw [nodeCount, if_neg heven, dif_pos hcount]
  exact ⟨_, rfl⟩

theorem nodeCount_eq_ok {size : Nat} {n : { n : Nat // n + 1 < UInt32.size }}
    (h : nodeCount size = .ok n) : (n.val + 1) * 64 = size := by
  unfold nodeCount at h
  split at h
  · contradiction
  split at h
  · obtain rfl := Except.ok.inj h
    simp only [Params.nodeBytes] at *
    omega
  · contradiction

@[simp] theorem sizeBytes_ofSeed (n : Nat) (h : n + 1 < UInt32.size) (seed : Hash256) :
    (ofSeed H n h seed).sizeBytes = (n + 1) * 64 := by
  rw [sizeBytes, ofSeed, Vector.size_toArray]
  rfl

theorem build_eq_ok {size : Nat} {seed : Hash256} {c : Cache} (h : build H size seed = .ok c) :
    ∃ m hm, size = 64 * (m + 1) ∧ c = ofSeed H m hm seed := by
  unfold build at h
  cases hcount : nodeCount size with
  | error cause =>
    rw [hcount] at h
    contradiction
  | ok m =>
    rw [hcount] at h
    have hsize := nodeCount_eq_ok hcount
    exact ⟨m.val, m.property, by omega, (Except.ok.inj h).symm⟩

theorem build_mul {m : Nat} (hm : m + 1 < UInt32.size) (seed : Hash256) :
    build H (64 * (m + 1)) seed = .ok (ofSeed H m hm seed) := by
  have hlt : m + 1 < 2 ^ 32 := hm
  obtain ⟨k, hcount⟩ : ∃ k, nodeCount (64 * (m + 1)) = .ok k :=
    exists_nodeCount_eq_ok (by omega) (by omega) (by omega)
  have hsize := nodeCount_eq_ok hcount
  obtain rfl : k = ⟨m, hm⟩ := Subtype.ext (show k.val = m by omega)
  rw [build, hcount]
  rfl

/-! ### The equations of the rounds -/

/-- The number that the first four bytes of a node hold, the low byte first. -/
def leading (x : Hash512) : Nat :=
  x[0].toNat + 2 ^ 8 * x[1].toNat + 2 ^ 16 * x[2].toNat + 2 ^ 24 * x[3].toNat

/-- The hash of the exclusive or of `P` and `Q`, byte by byte. -/
def mixed (P Q : Hash512) : Hash512 :=
  H.hash512 ⟨Array.zipWith (· ^^^ ·) P.bytes.data Q.bytes.data⟩

/-- What the bytes of node `i` become in a round, where `before` and `after` are those of the nodes
before the round and after it. -/
def renewed (n : Nat) (before after : Nat → Hash512) (i : Nat) : Hash512 :=
  let s := leading (before i) % n
  let P := if i = 0 then before (n - 1) else after (i - 1)
  let Q := if s < i then after s else before s
  mixed H P Q

/-- Round `0` of the byte strings `C` is a chain of hashes that starts at the seed. In each of the three
later rounds a node is the hash of its predecessor, in a circle, mixed with the one that it selects. Of
these two, the ones before it in the circle are of the same round already. -/
structure Rounds (seed : Hash256) (n : Nat) (C : Nat → Nat → Hash512) : Prop where
  first : C 0 0 = H.hash512 seed.bytes
  chain : ∀ i, i + 1 < n → C 0 (i + 1) = H.hash512 (C 0 i).bytes
  round : ∀ r < 3, ∀ i < n, C (r + 1) i = renewed H n (C r) (C (r + 1)) i

theorem toNat_firstWord (x : Node) : x.firstWord.toNat = leading x.bytes := by
  have hword := Bytes.toNat_word32 x.bytes[0] x.bytes[1] x.bytes[2] x.bytes[3]
  unfold leading
  exact hword.trans (by omega)

theorem bytes_hash_xor (P Q : Node) : ((P.xor Q).hash H).bytes = mixed H P.bytes Q.bytes := by
  have hP : P.bytes.bytes.data.size = 64 := P.bytes.size_bytes
  have hQ : Q.bytes.bytes.data.size = 64 := Q.bytes.size_bytes
  refine congrArg H.hash512 (congrArg ByteArray.mk (Array.ext ?_ fun i hi _ => ?_))
  · rw [Array.size_ofFn, Array.size_zipWith, hP, hQ, Nat.min_self]
  · rw [Array.getElem_ofFn, Array.getElem_zipWith]
    rfl

variable {H}

theorem renewed_congr {before before' after after' : Nat → Hash512} {i : Nat} (hi : i < n)
    (hbefore : ∀ j < n, before j = before' j) (hafter : ∀ j < i, after j = after' j) :
    renewed H n before after i = renewed H n before' after' i := by
  have hs : leading (before' i) % n < n := Nat.mod_lt _ (by omega)
  simp only [renewed, hbefore i hi, hbefore (n - 1) (by omega), hbefore _ hs]
  congr 1
  · split
    · rfl
    · exact hafter _ (by omega)
  · split
    · rename_i hlt
      exact hafter _ hlt
    · rfl

/-- The equations have no more than one solution. -/
theorem Rounds.unique {seed : Hash256} {C C' : Nat → Nat → Hash512} (h : Rounds H seed n C)
    (h' : Rounds H seed n C') {r : Nat} (hr : r ≤ 3) {i : Nat} (hi : i < n) : C r i = C' r i := by
  induction r generalizing i with
  | zero =>
    induction i with
    | zero => rw [h.first, h'.first]
    | succ i ih => rw [h.chain i hi, h'.chain i hi, ih (by omega)]
  | succ r ihr =>
    induction i using Nat.strongRecOn with
    | ind i ihi =>
      rw [h.round r hr i hi, h'.round r hr i hi]
      apply renewed_congr hi
      · exact fun j hj => ihr (by omega) hj
      · exact fun j hj => ihi j hj (by omega)

variable (H)

/-! ### The chain -/

/-- The seed hashed `i + 1` times. -/
def link (seed : Hash256) : Nat → Node
  | 0 => ⟨H.hash512 seed.bytes⟩
  | i + 1 => (link seed i).hash H

theorem getElem!_extend {seed : Hash256} (count : Nat) {last : Nat} {nodes : Array Node}
    (hsize : nodes.size = last + 1) (hnodes : ∀ i ≤ last, nodes[i]! = link H seed i) {i : Nat}
    (hi : i ≤ last + count) : (extend H count (link H seed last) nodes)[i]! = link H seed i := by
  induction count generalizing last nodes with
  | zero => exact hnodes i hi
  | succ count ih =>
    have hpush : (nodes.push (link H seed (last + 1))).size = last + 1 + 1 := by
      rw [Array.size_push, hsize]
    refine ih hpush (fun j hj => ?_) (by omega)
    rcases Nat.lt_or_eq_of_le hj with hlt | rfl
    · rw [getElem!_pos _ j (by omega), Array.getElem_push_lt (by omega), ← getElem!_pos,
        hnodes j (by omega)]
    · rw [getElem!_pos _ (last + 1) (by omega)]
      simp only [← hsize, Array.getElem_push_eq]

theorem getElem!_chain (seed : Hash256) {i : Nat} (hi : i ≤ n) :
    (chain H seed n)[i]! = link H seed i := by
  have hfirst : ∀ j ≤ 0, #[link H seed 0][j]! = link H seed j := by
    rintro j hj
    obtain rfl := Nat.le_zero.mp hj
    rfl
  have hsize : (extend H n (link H seed 0) #[link H seed 0]).size = n + 1 := by
    rw [size_extend, Nat.add_comm]
    rfl
  rw [← getElem!_extend H n rfl hfirst (show i ≤ 0 + n by omega), getElem!_pos _ i (by omega),
    getElem!_pos _ i (by omega)]
  rfl

/-! ### One pass -/

/-- The nodes after the first `k` of them were hardened. -/
def hardenUpTo (nodes : Vector Node n) : (k : Nat) → k ≤ n → Vector Node n
  | 0, _ => nodes
  | k + 1, h =>
    let soFar := hardenUpTo nodes k (Nat.le_of_lt h)
    soFar.set k (hardened H soFar k h)

theorem hardenPass_eq (nodes : Vector Node n) :
    hardenPass H nodes = hardenUpTo H nodes n (Nat.le_refl n) := by
  have hfold (k : Nat) (hk : k ≤ n) :
      k.fold (fun i hi nodes => nodes.set i (hardened H nodes i (Nat.lt_of_lt_of_le hi hk))
        (Nat.lt_of_lt_of_le hi hk)) nodes = hardenUpTo H nodes k hk := by
    induction k with
    | zero => rfl
    | succ k ih => rw [Nat.fold_succ, ih (Nat.le_of_lt hk), hardenUpTo]
  exact hfold n (Nat.le_refl n)

theorem getElem!_set (nodes : Vector Node n) {k : Nat} (hk : k < n) (x : Node) {j : Nat}
    (hj : j < n) : (nodes.set k x)[j]! = if k = j then x else nodes[j]! := by
  rw [getElem!_pos _ j hj, getElem!_pos nodes j hj, Vector.getElem_set]

theorem getElem!_hardenUpTo_succ (nodes : Vector Node n) {k j : Nat} (hk : k < n) (hj : j < n) :
    (hardenUpTo H nodes (k + 1) hk)[j]! =
      if k = j then hardened H (hardenUpTo H nodes k (Nat.le_of_lt hk)) k hk
      else (hardenUpTo H nodes k (Nat.le_of_lt hk))[j]! := getElem!_set _ hk _ hj

/-- The pass writes each node once: those that it has come past are as they are after the whole pass,
and all others are as they were. -/
theorem getElem!_hardenUpTo (nodes : Vector Node n) {k j : Nat} (hk : k ≤ n) (hj : j < n) :
    (hardenUpTo H nodes k hk)[j]! = if j < k then (hardenPass H nodes)[j]! else nodes[j]! := by
  have hbefore (k : Nat) (hk : k ≤ n) (hle : k ≤ j) : (hardenUpTo H nodes k hk)[j]! = nodes[j]! := by
    induction k with
    | zero => rfl
    | succ k ih => rw [getElem!_hardenUpTo_succ H nodes hk hj, if_neg (by omega), ih _ (by omega)]
  have hafter (m : Nat) (hm : k + m ≤ n) (hlt : j < k) :
      (hardenUpTo H nodes (k + m) hm)[j]! = (hardenUpTo H nodes k hk)[j]! := by
    induction m with
    | zero => rfl
    | succ m ih =>
      have hsucc := getElem!_hardenUpTo_succ H nodes (show k + m < n from hm) hj
      rw [if_neg (by omega), ih] at hsucc
      exact hsucc
  split
  · rename_i hlt
    obtain ⟨m, rfl⟩ := Nat.exists_eq_add_of_le hk
    rw [hardenPass_eq, hafter m (Nat.le_refl _) hlt]
  · exact hbefore k hk (by omega)

theorem bytes_hardened (nodes : Vector Node n) {i : Nat} (hi : i < n) :
    (hardened H nodes i hi).bytes =
      mixed H nodes[(n - 1 + i) % n]!.bytes nodes[leading nodes[i]!.bytes % n]!.bytes := by
  have hprevious : (n - 1 + i) % n < n := Nat.mod_lt _ (by omega)
  have hsource : leading nodes[i]!.bytes % n < n := Nat.mod_lt _ (by omega)
  rw [getElem!_pos nodes _ hprevious, getElem!_pos nodes _ hsource, ← bytes_hash_xor]
  simp only [hardened, toNat_firstWord, getElem!_pos nodes i hi]

theorem previous_eq {i : Nat} (hi : i < n) : (n - 1 + i) % n = if i = 0 then n - 1 else i - 1 := by
  split
  · rename_i hzero
    rw [hzero, Nat.add_zero, Nat.mod_eq_of_lt (by omega)]
  · rw [show n - 1 + i = n + (i - 1) by omega, Nat.add_mod_left, Nat.mod_eq_of_lt (by omega)]

/-- A pass renews each node. -/
theorem bytes_hardenPass (nodes : Vector Node n) {i : Nat} (hi : i < n) :
    (hardenPass H nodes)[i]!.bytes =
      renewed H n (fun j => nodes[j]!.bytes) (fun j => (hardenPass H nodes)[j]!.bytes) i := by
  have hwrite : (hardenPass H nodes)[i]! = hardened H (hardenUpTo H nodes i (by omega)) i hi := by
    have hnext := getElem!_hardenUpTo H nodes (show i + 1 ≤ n from hi) hi
    rw [if_pos (Nat.lt_succ_self i), getElem!_hardenUpTo_succ H nodes hi hi, if_pos rfl] at hnext
    exact hnext.symm
  have hself : (hardenUpTo H nodes i (by omega))[i]! = nodes[i]! := by
    rw [getElem!_hardenUpTo H nodes _ hi, if_neg (Nat.lt_irrefl i)]
  have hs : leading nodes[i]!.bytes % n < n := Nat.mod_lt _ (by omega)
  rw [hwrite, bytes_hardened, hself, getElem!_hardenUpTo H nodes _ hs,
    getElem!_hardenUpTo H nodes _ (Nat.mod_lt _ (by omega)), previous_eq hi, renewed]
  have hsource := apply_ite Node.bytes (leading nodes[i]!.bytes % n < i)
    (hardenPass H nodes)[leading nodes[i]!.bytes % n]! nodes[leading nodes[i]!.bytes % n]!
  by_cases hzero : i = 0
  · rw [if_pos hzero, if_pos hzero, if_neg (by omega), hsource]
  · rw [if_neg hzero, if_neg hzero, if_pos (by omega), hsource]

/-! ### The whole cache -/

/-- The nodes after `r` passes. -/
def afterPasses (nodes : Vector Node n) : (r : Nat) → Vector Node n
  | 0 => nodes
  | r + 1 => hardenPass H (afterPasses nodes r)

theorem rounds_afterPasses (seed : Hash256) (n : Nat) :
    Rounds H seed (n + 1) fun r i => (afterPasses H (chain H seed n) r)[i]!.bytes := by
  constructor
  · exact congrArg Node.bytes (getElem!_chain H seed (Nat.zero_le n))
  · intro i hi
    show (chain H seed n)[i + 1]!.bytes = H.hash512 (chain H seed n)[i]!.bytes.bytes
    rw [getElem!_chain H seed (by omega), getElem!_chain H seed (by omega), link, Node.hash]
  · intro r _ i hi
    exact bytes_hardenPass H _ hi

theorem nodes_ofSeed (n : Nat) (h : n + 1 < UInt32.size) (seed : Hash256) :
    (ofSeed H n h seed).nodes =
      Array.ofFn fun i : Fin (n + 1) => (afterPasses H (chain H seed n) 3)[i.val]! := by
  have hsize : (ofSeed H n h seed).nodes.size = n + 1 := Vector.size_toArray _
  apply Array.ext
  · rw [hsize, Array.size_ofFn]
  · intro i hi _
    rw [Array.getElem_ofFn, getElem!_pos _ i (by omega)]
    rfl

theorem ext_nodes {c c' : Cache} (h : c.nodes = c'.nodes) : c = c' := by
  cases c
  cases c'
  cases h
  rfl

/-- The cache of `64 * n` bytes is there for a positive number `n` of 32 bits, and its nodes are the
third round of the one family of byte strings that satisfies the equations of the rounds. -/
theorem build_eq_ok_iff (seed : Hash256) (n : Nat) (c : Cache) :
    build H (64 * n) seed = .ok c ↔
      0 < n ∧ n < 2 ^ 32 ∧
        ∃ C, Rounds H seed n C ∧ c.nodes = Array.ofFn fun i : Fin n => ⟨C 3 i⟩ := by
  constructor
  · intro h
    obtain ⟨m, hm, hsize, rfl⟩ := build_eq_ok H h
    obtain rfl : n = m + 1 := by omega
    exact ⟨Nat.succ_pos m, hm, _, rounds_afterPasses H seed m, nodes_ofSeed H m hm seed⟩
  · rintro ⟨hpos, hlt, C, hC, hnodes⟩
    obtain ⟨m, rfl⟩ := Nat.exists_eq_succ_of_ne_zero (Nat.ne_of_gt hpos)
    refine (build_mul H hlt seed).trans (congrArg Except.ok (ext_nodes ?_))
    rw [nodes_ofSeed, hnodes]
    congr 1
    funext i
    exact congrArg Node.mk ((rounds_afterPasses H seed m).unique hC (Nat.le_refl 3) i.isLt)

end ProofOfWork.Cache
