import ProofOfWork.Dataset.Item
import ProofOfWork.Proofs.Cache

/-! Which nodes of a cache are used while it is built and while a dataset node is computed from it.
Both are done here over a plain array, where a position past the end or a remainder by zero leaves
nothing, and every position is noted. That no such thing happens rests on the size of the cache
alone, not on what is in it. -/

namespace ProofOfWork

/-- A computation over arrays that notes the positions it comes to. It has no value if one of them is
past the end. -/
abbrev Indexed (α : Type) := StateT (List Nat) Option α

namespace Indexed

/-! ### The computations -/

/-- The node at position `i`. -/
def fetch (nodes : Array Node) (i : Nat) : Indexed Node :=
  fun used => nodes[i]?.map fun node => (node, used ++ [i])

/-- The array with another node at position `i`. -/
def assign (nodes : Array Node) (i : Nat) (node : Node) : Indexed (Array Node) :=
  fun used => if i < nodes.size then some (nodes.set! i node, used ++ [i]) else none

/-- The remainder of a division, of which there is none by zero. -/
def remainder (a b : Nat) : Indexed Nat :=
  fun used => if b = 0 then none else some (a % b, used)

variable (H : Hasher)

/-- The hash of node `i`, put after all nodes. -/
def link (nodes : Array Node) (i : Nat) : Indexed (Array Node) := do
  return nodes.push ((← fetch nodes i).hash H)

/-- Node `i` of `n` combined with its predecessor and the node that it selects. What it selects is
counted in words of 32 bits. -/
def hardenAt (n : Nat) (nodes : Array Node) (i : Nat) : Indexed (Array Node) := do
  let source ← remainder (← fetch nodes i).firstWord.toNat n.toUInt32.toNat
  let previous ← fetch nodes (← remainder (n - 1 + i) n)
  assign nodes i ((previous.xor (← fetch nodes source)).hash H)

/-- The nodes of a cache of `n` nodes. -/
def build (n : Nat) (seed : Hash256) : Indexed (Array Node) := do
  let chain ← (List.range (n - 1)).foldlM (link H) #[⟨H.hash512 seed.bytes⟩]
  (List.range Params.cacheRounds).foldlM
    (fun nodes _ => (List.range n).foldlM (hardenAt H n) nodes) chain

/-- The node that a word selects, counted in words of 32 bits. -/
def select (nodes : Array Node) (w : UInt32) : Indexed Node := do
  fetch nodes (← remainder w.toNat nodes.size.toUInt32.toNat)

/-- Node `index` of the dataset. -/
def item (nodes : Array Node) (index : UInt32) : Indexed Node := do
  let start ← select nodes index
  let mix := ((start.setWord 0 (start.firstWord ^^^ index)).hash H).words
  let mix ← (List.range Params.datasetParents).foldlM
    (fun mix i => do return Dataset.mixIn mix (← select nodes (Dataset.parentWord index mix i))) mix
  return (Node.ofWords mix).hash H

/-! ### Positions below a bound -/

variable {H} {α β : Type} {n k l : Nat} {P : α → Prop} {Q : β → Prop}

/-- `x` has a value, which has `P`, and comes to `k` positions on the way, all below `n`. -/
def Uses (n k : Nat) (P : α → Prop) (x : Indexed α) : Prop :=
  ∀ used, ∃ a new, x used = some (a, used ++ new) ∧ P a ∧ new.length = k ∧ ∀ i ∈ new, i < n

theorem Uses.pure {a : α} (h : P a) : Uses n 0 P (Pure.pure a) :=
  fun used => ⟨a, [], by rw [List.append_nil]; rfl, h, rfl, List.forall_mem_nil _⟩

theorem Uses.mono {P' : α → Prop} {x : Indexed α} (h : Uses n k P x) (hP : ∀ a, P a → P' a) :
    Uses n k P' x := by
  intro used
  obtain ⟨a, new, hx, ha, hnew⟩ := h used
  exact ⟨a, new, hx, hP a ha, hnew⟩

theorem Uses.bind {x : Indexed α} {f : α → Indexed β} (h : Uses n k P x)
    (hf : ∀ a, P a → Uses n l Q (f a)) : Uses n (k + l) Q (x >>= f) := by
  intro used
  obtain ⟨a, new, hx, ha, hlength, hnew⟩ := h used
  obtain ⟨b, new', hb, hQ, hlength', hnew'⟩ := hf a ha (used ++ new)
  refine ⟨b, new ++ new', ?_, hQ, ?_, ?_⟩
  · rw [← List.append_assoc, ← hb]
    show (x used).bind (fun x => f x.1 x.2) = _
    rw [hx]
    rfl
  · rw [List.length_append, hlength, hlength']
  · exact List.forall_mem_append.mpr ⟨hnew, hnew'⟩

theorem uses_fetch {nodes : Array Node} {i : Nat} (hi : i < nodes.size) (hn : i < n) :
    Uses n 1 (· = nodes[i]) (fetch nodes i) := by
  intro used
  refine ⟨nodes[i], [i], ?_, rfl, rfl, List.forall_mem_singleton.mpr hn⟩
  rw [fetch, Array.getElem?_eq_getElem hi]
  rfl

theorem uses_assign {nodes : Array Node} {i : Nat} (hi : i < nodes.size) (hn : i < n)
    (node : Node) : Uses n 1 (· = nodes.set i node) (assign nodes i node) := by
  intro used
  refine ⟨_, [i], ?_, rfl, rfl, List.forall_mem_singleton.mpr hn⟩
  rw [assign, if_pos hi, Array.set!_eq_setIfInBounds, Array.setIfInBounds_def, dif_pos hi]

theorem uses_remainder {a b : Nat} (hb : 0 < b) : Uses n 0 (· = a % b) (remainder a b) := by
  intro used
  refine ⟨_, [], ?_, rfl, rfl, List.forall_mem_nil _⟩
  rw [remainder, if_neg (Nat.ne_of_gt hb), List.append_nil]

/-- A loop whose passes all come to `k` positions, with what is true after each of them. -/
theorem uses_range {f : α → Nat → Indexed α} {P : Nat → α → Prop} {m : Nat} {a : α} (ha : P 0 a)
    (hf : ∀ i < m, ∀ a, P i a → Uses n k (P (i + 1)) (f a i)) :
    Uses n (m * k) (P m) ((List.range m).foldlM f a) := by
  induction m with
  | zero =>
    rw [Nat.zero_mul]
    exact Uses.pure ha
  | succ m ih =>
    rw [List.range_succ, List.foldlM_append, Nat.succ_mul]
    refine (ih fun i hi => hf i (Nat.lt_succ_of_lt hi)).bind fun b hb => ?_
    simp only [List.foldlM_cons, List.foldlM_nil, bind_pure]
    exact hf m (Nat.lt_succ_self m) b hb

/-! ### The cache -/

/-- The first `k + 1` nodes of the chain. -/
def links (H : Hasher) (seed : Hash256) (k : Nat) : Array Node :=
  Array.ofFn fun i : Fin (k + 1) => Cache.link H seed i

theorem links_succ (seed : Hash256) (k : Nat) :
    links H seed (k + 1) = (links H seed k).push (Cache.link H seed (k + 1)) := Array.ofFn_succ

theorem chain_toArray (seed : Hash256) (m : Nat) :
    (Cache.chain H seed m).toArray = links H seed m := by
  apply Array.ext
  · simp [links]
  · intro i hi _
    rw [Vector.size_toArray] at hi
    have hlink := Cache.getElem!_chain H seed (Nat.le_of_lt_succ hi)
    rw [getElem!_pos _ i hi] at hlink
    simpa [links] using hlink

theorem uses_link {seed : Hash256} {i : Nat} (hi : i < n) :
    Uses n 1 (· = links H seed (i + 1)) (link H (links H seed i) i) := by
  have hlt : i < (links H seed i).size := by simp [links]
  have hlast : (links H seed i)[i] = Cache.link H seed i := by simp [links]
  refine (uses_fetch hlt hi).bind (l := 0) fun node hnode => Uses.pure ?_
  rw [hnode, hlast, links_succ]
  rfl

theorem uses_chain (hpos : 0 < n) (seed : Hash256) :
    Uses n (n - 1) (· = (Cache.chain H seed (n - 1)).toArray)
      ((List.range (n - 1)).foldlM (link H) #[⟨H.hash512 seed.bytes⟩]) := by
  have hlinks : Uses n ((n - 1) * 1) (· = links H seed (n - 1))
      ((List.range (n - 1)).foldlM (link H) #[⟨H.hash512 seed.bytes⟩]) := by
    refine uses_range (P := fun k nodes => nodes = links H seed k) rfl ?_
    rintro i hi _ rfl
    exact uses_link (by omega)
  rw [Nat.mul_one] at hlinks
  rw [chain_toArray]
  exact hlinks

theorem uses_hardenAt (h : n < UInt32.size) (nodes : Vector Node n) {i : Nat} (hi : i < n) :
    Uses n 4 (· = (nodes.set i (Cache.hardened H nodes i hi)).toArray)
      (hardenAt H n nodes.toArray i) := by
  have hpos : 0 < n := by omega
  have hcast : n.toUInt32.toNat = n := UInt32.toNat_ofNat_of_lt' h
  have hsize : nodes.toArray.size = n := nodes.size_toArray
  have hprevious : (n - 1 + i) % n < n := Nat.mod_lt _ hpos
  have hsource : nodes[i].firstWord.toNat % n < n := Nat.mod_lt _ hpos
  unfold hardenAt
  rw [hcast]
  refine (uses_fetch (by omega) hi).bind (l := 3) fun node hnode => ?_
  subst hnode
  refine (uses_remainder hpos).bind (l := 3) fun source hs => ?_
  subst hs
  refine (uses_remainder hpos).bind (l := 3) fun previous hp => ?_
  subst hp
  refine (uses_fetch (by omega) hprevious).bind (l := 2) fun node hnode => ?_
  subst hnode
  refine (uses_fetch (by omega) hsource).bind (l := 1) fun node hnode => ?_
  subst hnode
  exact uses_assign (by omega) hi _

theorem uses_hardenPass (h : n < UInt32.size) (nodes : Vector Node n) :
    Uses n (n * 4) (· = (Cache.hardenPass H nodes).toArray)
      ((List.range n).foldlM (hardenAt H n) nodes.toArray) := by
  have hpass : Uses n (n * 4) (fun a => ∃ hn : n ≤ n, a = (Cache.hardenUpTo H nodes n hn).toArray)
      ((List.range n).foldlM (hardenAt H n) nodes.toArray) := by
    refine uses_range
      (P := fun k a => ∃ hk : k ≤ n, a = (Cache.hardenUpTo H nodes k hk).toArray)
      ⟨Nat.zero_le n, rfl⟩ ?_
    rintro i hi _ ⟨hle, rfl⟩
    exact (uses_hardenAt h _ hi).mono fun a ha => ⟨hi, ha⟩
  rw [Cache.hardenPass_eq]
  exact hpass.mono fun a ⟨_, ha⟩ => ha

/-- The cache is built without a position past its end, whatever the seed. -/
theorem uses_build (hpos : 0 < n) (h : n < UInt32.size) (seed : Hash256) :
    Uses n (n - 1 + 3 * (n * 4))
      (· = (Cache.harden H (Cache.chain H seed (n - 1))).toArray) (build H n seed) := by
  obtain ⟨m, rfl⟩ := Nat.exists_eq_succ_of_ne_zero (Nat.ne_of_gt hpos)
  refine (uses_chain hpos seed).bind fun nodes hnodes => ?_
  subst hnodes
  refine uses_range
    (P := fun k a => a = (Cache.afterPasses H (Cache.chain H seed m) k).toArray) rfl ?_
  rintro r - _ rfl
  exact uses_hardenPass h _

/-! ### Dataset nodes -/

variable {c : Cache}

theorem uses_select (w : UInt32) :
    Uses c.nodes.size 1 (· = c.select w) (select c.nodes w) := by
  have hcount : c.count.toNat = c.nodes.size := c.toNat_count
  have hindex : w.toNat % c.nodes.size < c.nodes.size := Nat.mod_lt _ c.size_pos
  have hselect : c.select w = c.nodes[w.toNat % c.nodes.size] := by
    simp only [Cache.select, UInt32.toNat_mod, hcount]
  unfold select
  rw [show c.nodes.size.toUInt32.toNat = c.nodes.size from hcount, hselect]
  refine (uses_remainder c.size_pos).bind (l := 1) fun i hi => ?_
  subst hi
  exact uses_fetch hindex hindex

/-- The words of node `index` with its first `k` parents mixed in. -/
def mixUpTo (H : Hasher) (c : Cache) (index : UInt32) (k : Nat) : Vector UInt32 16 :=
  k.fold (fun i _ mix => Dataset.mixIn mix (c.select (Dataset.parentWord index mix i)))
    (Dataset.initialMix H c index)

/-- A dataset node of any index is computed without a position past the end of the cache. -/
theorem uses_item (index : UInt32) :
    Uses c.nodes.size (1 + 256) (· = Dataset.item H c index)
      (item H c.nodes index) := by
  refine (uses_select index).bind fun start hstart => ?_
  subst hstart
  refine (uses_range (k := 1) (m := 256) (P := fun k mix => mix = mixUpTo H c index k) rfl ?_).bind
    (l := 0) fun mix hmix => Uses.pure ?_
  · rintro i - _ rfl
    refine (uses_select _).bind (l := 0) fun parent hparent => Uses.pure ?_
    rw [hparent, mixUpTo, mixUpTo, Nat.fold_succ]
  · rw [hmix]
    rfl

end Indexed

namespace Cache

variable {H : Hasher} {size : Nat} {seed : Hash256}

theorem exists_build_eq_error_iff : (∃ cause, build H size seed = .error cause) ↔
    size = 0 ∨ size % 64 ≠ 0 ∨ (2 ^ 32 - 1) * 64 < size := by
  constructor
  · rintro ⟨cause, herror⟩
    refine Decidable.byContradiction fun hsize => ?_
    obtain ⟨n, hn⟩ : ∃ n, nodeCount size = .ok n :=
      exists_nodeCount_eq_ok (by omega) (by omega) (by omega)
    rw [build, hn] at herror
    contradiction
  · intro hsize
    cases hbuild : build H size seed with
    | error cause => exact ⟨cause, rfl⟩
    | ok c =>
      obtain ⟨m, hm, hm', -⟩ := build_eq_ok H hbuild
      have hlt : m + 1 < 2 ^ 32 := hm
      omega

/-- A cache is refused exactly when its size is not a positive number of whole nodes, or they are more
than a word can count. Otherwise it has that size, and in building it, as in computing a dataset node
of any index from it, no remainder by zero is taken and no position past its end is used. -/
theorem indices_within_cache (H : Hasher) (size : Nat) (seed : Hash256) :
    ((∃ cause, build H size seed = .error cause) ↔
      size = 0 ∨ size % 64 ≠ 0 ∨ (2 ^ 32 - 1) * 64 < size) ∧
    ∀ c, build H size seed = .ok c →
      c.nodes.size * 64 = size ∧ c.sizeBytes = size ∧
      c.nodes.size.toUInt32.toNat = c.nodes.size ∧ c.nodes.size.toUInt32 ≠ 0 ∧
      (∃ used, Indexed.build H c.nodes.size seed [] = some (c.nodes, used) ∧
        used.length = c.nodes.size - 1 + 3 * (c.nodes.size * 4) ∧
        ∀ i ∈ used, i < c.nodes.size) ∧
      ∀ index, ∃ used, Indexed.item H c.nodes index [] = some (Dataset.item H c index, used) ∧
        used.length = 1 + 256 ∧ ∀ i ∈ used, i < c.nodes.size := by
  refine ⟨exists_build_eq_error_iff, fun c hbuild => ?_⟩
  obtain ⟨m, hm, hsize, rfl⟩ := build_eq_ok H hbuild
  have hnodes : (ofSeed H m hm seed).nodes.size = m + 1 := Vector.size_toArray _
  have hcount := (ofSeed H m hm seed).toNat_count
  refine ⟨by omega, by rw [sizeBytes_ofSeed]; omega, hcount, fun hzero => ?_, ?_, fun index => ?_⟩
  · rw [count, hzero] at hcount
    have hzero : (0 : UInt32).toNat = 0 := rfl
    omega
  · obtain ⟨nodes, used, hrun, rfl, hlength, hlt⟩ :=
      Indexed.uses_build (H := H) (Nat.succ_pos m) hm seed []
    rw [hnodes]
    exact ⟨used, hrun, hlength, hlt⟩
  · obtain ⟨node, used, hrun, rfl, hlength, hlt⟩ :=
      Indexed.uses_item (H := H) (c := ofSeed H m hm seed) index []
    exact ⟨used, hrun, hlength, hlt⟩

end Cache

end ProofOfWork
