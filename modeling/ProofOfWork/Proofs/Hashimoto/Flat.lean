import ProofOfWork.Proofs.Hashimoto

/-! The hash on flat words. A dataset is one array of numbers of 32 bits, a mix is 32 such numbers, and
each access combines all of them with a page at once, as plain arithmetic on natural numbers says. The
hash over a dataset in memory, node by node and half by half, is this hash. -/

namespace ProofOfWork.Hashimoto

namespace Flat

/-- Number `k` of 32 bits of a byte string, the low byte first. -/
def wordAt (b : ByteArray) (k : Nat) : Nat :=
  b[4 * k]!.toNat + 256 * (b[4 * k + 1]!.toNat + 256 * (b[4 * k + 2]!.toNat +
    256 * b[4 * k + 3]!.toNat))

def byteOf (n k : Nat) : UInt8 := (n / 256 ^ k % 256).toUInt8

def combine (a b : Nat) : Nat := (a * 0x01000193 % 2 ^ 32) ^^^ b

/-- The page that access `i` reads, for the words `s` of the seed and a mix `m`. -/
def page (s m : Nat → Nat) (pages i : Nat) : Nat := combine (i ^^^ s 0) (m (i % 32)) % pages

/-- The mix after `i` accesses to a dataset with the words `D`. -/
def mix (s D : Nat → Nat) (pages : Nat) : (i : Nat) → Nat → Nat
  | 0, w => s (w % 16)
  | i + 1, w => combine (mix s D pages i w) (D (32 * page s (mix s D pages i) pages i + w))

/-- Word `j` of the digest of a mix: four words folded from the left. -/
def digestWord (m : Nat → Nat) (j : Nat) : Nat :=
  combine (combine (combine (m (4 * j)) (m (4 * j + 1))) (m (4 * j + 2))) (m (4 * j + 3))

def digest (m : Nat → Nat) : Hash256 := .ofFn fun i => byteOf (digestWord m (i / 4)) (i % 4)

variable (H : Hasher)

def seed (header : Hash256) (nonce : UInt64) : Hash512 :=
  let tail : ByteVector 8 := .ofFn fun i => byteOf nonce.toNat i
  H.hash512 (header.bytes ++ tail.bytes)

def hash (dataset : ByteArray) (header : Hash256) (nonce : UInt64) : PowHash :=
  let s := seed H header nonce
  let mixHash := digest (mix (wordAt s.bytes) (wordAt dataset) (dataset.size / 128) 64)
  ⟨H.hash256 (s.bytes ++ mixHash.bytes), mixHash⟩

end Flat

open Flat

theorem toNat_fnv (a b : UInt32) : (fnv a b).toNat = combine a.toNat b.toNat := by
  rw [fnv, UInt32.toNat_xor, UInt32.toNat_mul]
  rfl

theorem byte32_eq (w : UInt32) {k : Nat} (hk : k < 4) :
    LittleEndian.byte32 w k = byteOf w.toNat k := by
  apply UInt8.toNat_inj.mp
  rw [Bytes.toNat_byte32 w hk, byteOf, Nat.toUInt8_eq, UInt8.toNat_ofNat', Nat.mod_mod]

theorem byte64_eq (w : UInt64) {k : Nat} (hk : k < 8) :
    LittleEndian.byte64 w k = byteOf w.toNat k := by
  apply UInt8.toNat_inj.mp
  rw [Bytes.toNat_byte64 w hk, byteOf, Nat.toUInt8_eq, UInt8.toNat_ofNat', Nat.mod_mod]

theorem toNat_word (n : Node) {i : Nat} (h : i < 16) :
    (n.word i h).toNat = wordAt n.bytes.bytes i := by
  rw [Node.word, Bytes.toNat_word32]
  simp only [Bytes.getElem_eq]
  rfl

theorem toNat_word_nodeAt? {dataset : ByteArray} {index : UInt32} {node : Node}
    (h : nodeAt? dataset index = some node) {i : Nat} (hi : i < 16) :
    (node.word i hi).toNat = wordAt dataset (16 * index.toNat + i) := by
  have hbytes := (nodeAt?_eq_some_iff.mp h).2
  have hstart : 4 * (16 * index.toNat + i) = 64 * index.toNat + 4 * i := by omega
  rw [toNat_word, wordAt, wordAt, hstart]
  simp only [Nat.add_assoc]
  rw [hbytes _ (by omega), hbytes _ (by omega), hbytes _ (by omega), hbytes _ (by omega)]

theorem seedHash_eq (H : Hasher) (header : Hash256) (nonce : UInt64) :
    seedHash H header nonce = Flat.seed H header nonce := by
  have htail : (ByteVector.ofFn fun i : Fin 8 => LittleEndian.byte64 nonce i) =
      ByteVector.ofFn fun i : Fin 8 => byteOf nonce.toNat i := by
    apply ByteVector.ext
    intro i hi
    simp only [ByteVector.getElem_ofFn]
    exact byte64_eq nonce hi
  rw [seedHash, htail]
  rfl

/-! ### One mix -/

/-- The words of a mix are the numbers `m`. -/
def Shows (mix : Mix) (m : Nat → Nat) : Prop := ∀ w (hw : w < 32), mix[w].toNat = m w

theorem shows_initialMix (s : Hash512) : Shows (initialMix s) fun w => wordAt s.bytes (w % 16) := by
  intro w hw
  simp only [initialMix, Vector.getElem_ofFn]
  exact toNat_word ⟨s⟩ (Nat.mod_lt _ (by decide))

theorem getElem_mixHalf (half : Nat) (mix : Mix) (node : Node) {w : Nat} (hw : w < 32) :
    (mixHalf half mix node)[w] =
      if w / 16 = half then fnv mix[w] (node.word (w % 16) (Nat.mod_lt _ (by decide)))
      else mix[w] :=
  Vector.getElem_mapFinIdx ..

variable {s m D : Nat → Nat} {mix : Mix}

theorem Shows.pageIndex (h : Shows mix m) {seedWord pages : UInt32} (hseed : seedWord.toNat = s 0)
    {i : Nat} (hi : i < 64) :
    (pageIndex seedWord pages mix i).toNat = page s m pages.toNat i := by
  have hword : (mix.get (Fin.ofNat 32 i)).toNat = m (i % 32) := h _ (Nat.mod_lt i (by decide))
  have hindex : i.toUInt32.toNat = i := by
    rw [Nat.toUInt32_eq, UInt32.toNat_ofNat']
    omega
  rw [Hashimoto.pageIndex, UInt32.toNat_mod, toNat_fnv, hword, UInt32.toNat_xor, hindex, hseed,
    Nat.xor_comm]
  rfl

/-- The two nodes of a page, mixed into the two halves, are the page mixed into the whole. -/
theorem Shows.mixHalf (h : Shows mix m) {first second : Node} {start : Nat}
    (hfirst : ∀ i (hi : i < 16), (first.word i hi).toNat = D (start + i))
    (hsecond : ∀ i (hi : i < 16), (second.word i hi).toNat = D (start + 16 + i)) :
    Shows (Hashimoto.mixHalf 1 (Hashimoto.mixHalf 0 mix first) second) fun w =>
      combine (m w) (D (start + w)) := by
  intro w hw
  rw [getElem_mixHalf _ _ _ hw, getElem_mixHalf _ _ _ hw]
  by_cases hhalf : w / 16 = 0
  · rw [if_neg (by omega), if_pos hhalf, toNat_fnv, h w hw, hfirst,
      show w % 16 = w by omega]
  · rw [if_pos (by omega), if_neg hhalf, toNat_fnv, h w hw, hsecond,
      show start + 16 + w % 16 = start + w by omega]

theorem compress_eq (h : Shows mix m) : compress mix = digest m := by
  have hword (j : Nat) (hj : 4 * j + 3 < 32) :
      (fnv (fnv (fnv mix[4 * j] mix[4 * j + 1]) mix[4 * j + 2]) mix[4 * j + 3]).toNat =
        digestWord m j := by
    rw [toNat_fnv, toNat_fnv, toNat_fnv, h _ (by omega), h _ (by omega), h _ (by omega),
      h _ (by omega)]
    rfl
  ext i hi
  simp only [compress, digest, ByteVector.getElem_ofFn]
  rw [byte32_eq _ (Nat.mod_lt _ (by decide)), hword]

/-! ### The loop -/

section

variable {dataset : ByteArray} {count : UInt32}

theorem run_lookup {α : Type} (look : UInt32 → Option Node) (index : UInt32)
    (next : Node → Program NodeLookup α) :
    (lookup index >>= next).run (m := Option) look =
      look index >>= fun node => (next node).run (m := Option) look := rfl

/-- One access to a dataset in memory finds both nodes of its page. -/
theorem run_access (hcount : Dataset.nodeCount dataset.size = .ok count) {seedWord : UInt32}
    (hseed : seedWord.toNat = s 0) (h : Shows mix m) {i : Nat} (hi : i < 64) :
    ∃ mix', (access seedWord (count / 2) mix i).run (m := Option) (nodeAt? dataset) = some mix' ∧
      Shows mix' fun w =>
        combine (m w) (wordAt dataset (32 * page s m (dataset.size / 128) i + w)) := by
  obtain ⟨hsize, hpos, heven⟩ := Dataset.nodeCount_eq_ok hcount
  have hpages : (count / 2).toNat = dataset.size / 128 := by
    rw [UInt32.toNat_div]
    show count.toNat / 2 = _
    omega
  obtain ⟨hfirst, hsecond⟩ := toNat_pageIndex_mul heven hpos seedWord mix i
  obtain ⟨hlt, hlt'⟩ := pageIndex_lt heven hpos seedWord mix i
  rw [h.pageIndex hseed hi, hpages] at hfirst hsecond
  rw [UInt32.lt_iff_toNat_lt] at hlt hlt'
  obtain ⟨first, hnode⟩ :=
    exists_nodeAt? dataset (pageIndex seedWord (count / 2) mix i * 2) (by omega)
  obtain ⟨second, hnode'⟩ :=
    exists_nodeAt? dataset (pageIndex seedWord (count / 2) mix i * 2 + 1) (by omega)
  refine ⟨mixHalf 1 (mixHalf 0 mix first) second, ?_, h.mixHalf (fun j hj => ?_) fun j hj => ?_⟩
  · rw [access]
    refine (run_lookup _ _ _).trans ?_
    rw [hnode, Option.bind_eq_bind, Option.bind_some]
    refine (run_lookup _ _ _).trans ?_
    rw [hnode', Option.bind_eq_bind, Option.bind_some]
    exact Program.run_done ..
  · rw [toNat_word_nodeAt? hnode, hfirst]
    congr 1
    omega
  · rw [toNat_word_nodeAt? hnode', hsecond]
    congr 1
    omega

/-- The mix after the first `n` accesses. -/
theorem run_accesses (hcount : Dataset.nodeCount dataset.size = .ok count) {seedWord : UInt32}
    (hseed : seedWord.toNat = s 0) (h : Shows mix fun w => s (w % 16)) {n : Nat} (hn : n ≤ 64) :
    ∃ mix', ((List.range n).foldlM (access seedWord (count / 2)) mix).run (m := Option)
        (nodeAt? dataset) = some mix' ∧
      Shows mix' (Flat.mix s (wordAt dataset) (dataset.size / 128) n) := by
  induction n with
  | zero => exact ⟨mix, rfl, h⟩
  | succ n ih =>
    obtain ⟨mix', hmix', hshows'⟩ := ih (by omega)
    obtain ⟨mix'', hmix'', hshows''⟩ := run_access hcount hseed hshows' (show n < 64 by omega)
    refine ⟨mix'', ?_, hshows''⟩
    rw [List.range_succ, List.foldlM_append]
    refine (Program.run_bind (I := NodeLookup) (m := Option) (nodeAt? dataset) _ _).trans ?_
    rw [hmix', Option.bind_eq_bind, Option.bind_some, List.foldlM_cons]
    have hlast : (access seedWord (count / 2) mix' n >>= fun mix => pure mix) =
        access seedWord (count / 2) mix' n := bind_pure _
    simp only [List.foldlM_nil]
    rw [hlast]
    exact hmix''

end

/-- The hash over a dataset in memory is the hash over its flat words. -/
theorem full_eq_flat (H : Hasher) {dataset : ByteArray} {count : UInt32}
    (hcount : Dataset.nodeCount dataset.size = .ok count) (header : Hash256) (nonce : UInt64) :
    full H dataset header nonce = .ok (some (Flat.hash H dataset header nonce)) := by
  have hseed : (Node.firstWord ⟨seedHash H header nonce⟩).toNat =
      wordAt (seedHash H header nonce).bytes 0 := toNat_word _ _
  obtain ⟨mix, hmix, hshows⟩ := run_accesses hcount hseed (shows_initialMix _) (Nat.le_refl 64)
  have hrun : (overNodes H count header nonce).run (m := Option) (nodeAt? dataset) =
      some ⟨finalHash H (seedHash H header nonce) (compress mix), compress mix⟩ := by
    rw [overNodes]
    refine (Program.run_bind (I := NodeLookup) (m := Option) (nodeAt? dataset) _ _).trans ?_
    exact congrArg (Option.bind · _) hmix
  rw [compress_eq hshows, seedHash_eq] at hrun
  rw [full, overMemory, program_eq_ok hcount]
  exact congrArg Except.ok hrun

/-- Four pages, of which no two have a byte in common. -/
def fourPages : ByteArray := ⟨Array.ofFn fun i : Fin 512 => (i.val / 2).toUInt8⟩

theorem nodeCount_fourPages : Dataset.nodeCount fourPages.size = .ok 8 := by
  rw [show fourPages.size = 512 from Array.size_ofFn]
  rfl

/-- The header whose byte `i` is `i`. -/
def countedHeader : Hash256 := .ofFn fun i => i.val.toUInt8

theorem full_eq_flat_pages :
    Dataset.nodeCount fourPages.size = .ok 8 ∧
    full .keccak fourPages countedHeader 0x495732e0ed7a801c =
      .ok (some (Flat.hash .keccak fourPages countedHeader 0x495732e0ed7a801c)) :=
  ⟨nodeCount_fourPages, full_eq_flat .keccak nodeCount_fourPages _ _⟩

end ProofOfWork.Hashimoto
