import ProofOfWork.Proofs.Hashimoto

/-! Which dataset nodes a hash looks up: two for each page it reads, side by side, and none outside
the dataset. What lies outside of it plays no part in the hash. -/

namespace ProofOfWork

/-- A program whose requests all have `P` has one value for all answers that agree on `P`. -/
theorem Program.eval_congr {I : Interface} {α : Type} {P : I.Request → Prop}
    {answer answer' : (r : I.Request) → I.Answer r} (heq : ∀ r, P r → answer r = answer' r)
    {p : Program I α}
    (h : Keeps (fun _ (_ : Unit) _ _ => True) (fun r _ => P r) (fun _ _ => True) p ()) :
    p.eval answer = p.eval answer' := by
  have hsame : p.run (fun r => some (answer r)) = some (p.eval answer) :=
    run_eq_some_eval (fun _ _ => rfl) h
  rw [run_eq_some_eval (fun r hr => congrArg some (heq r hr)) h] at hsame
  exact (Option.some.inj hsame).symm

namespace Hashimoto

open Program

variable {H : Hasher} {size : Nat} {count : UInt32}

theorem exists_program_eq_error_iff (header : Hash256) (nonce : UInt64) :
    (∃ cause, program H size header nonce = .error cause) ↔
      size = 0 ∨ size % 128 ≠ 0 ∨ 2 ^ 32 - 1 < size / 64 := by
  have hprogram : program H size header nonce =
      (Dataset.nodeCount size).map fun count => overNodes H count header nonce := rfl
  rw [hprogram, Dataset.nodeCount_eq]
  constructor
  · rintro ⟨cause, h⟩
    split at h
    · omega
    · split at h
      · omega
      · contradiction
  · intro h
    split
    · exact ⟨_, rfl⟩
    · rw [if_pos (by omega)]
      exact ⟨_, rfl⟩

/-! ### The nodes that are asked for -/

/-- Surroundings that note which nodes are asked for, and answer with any nodes. -/
abbrev Noting : Serving NodeLookup (List UInt32) :=
  fun (index : UInt32) asked _ asked' => asked' = asked ++ [index]

/-- The nodes that were asked for are those of `n` pages, all within a dataset of `count` nodes. -/
def AskedPages (count : UInt32) (n : Nat) (asked : List UInt32) : Prop :=
  ∃ pages : List Nat, pages.length = n ∧
    asked.map UInt32.toNat = pages.flatMap (fun page => [2 * page, 2 * page + 1]) ∧
    ∀ page ∈ pages, 2 * page + 1 < count.toNat

theorem askedPages_nil : AskedPages count 0 [] := ⟨[], rfl, rfl, by simp⟩

theorem AskedPages.push {n : Nat} {asked : List UInt32} (h : AskedPages count n asked)
    {first second : UInt32} {page : Nat} (hfirst : first.toNat = 2 * page)
    (hsecond : second.toNat = 2 * page + 1) (hlt : second < count) :
    AskedPages count (n + 1) (asked ++ [first] ++ [second]) := by
  obtain ⟨pages, hlength, hasked, hpages⟩ := h
  rw [UInt32.lt_iff_toNat_lt, hsecond] at hlt
  refine ⟨pages ++ [page], by simp [hlength], by simp [hasked, hfirst, hsecond], ?_⟩
  intro other hother
  rcases List.mem_append.mp hother with hother | hother
  · exact hpages other hother
  · rw [List.mem_singleton.mp hother]
    exact hlt

theorem AskedPages.length {n : Nat} {asked : List UInt32} (h : AskedPages count n asked) :
    asked.length = 2 * n := by
  obtain ⟨pages, rfl, hasked, -⟩ := h
  have hlength := congrArg List.length hasked
  rw [List.length_map] at hlength
  rw [hlength, Nat.mul_comm]
  simp [List.map_const']

section

variable (heven : count.toNat % 2 = 0) (hpos : 0 < count.toNat)

include heven hpos

/-- The loop asks for one page in each access, whatever nodes it has got before. -/
theorem keeps_askedPages (seedWord : UInt32) (order : List Nat) (mix : Mix) {n : Nat}
    {asked : List UInt32} (h : AskedPages count n asked) :
    Keeps Noting (fun _ _ => True) (fun _ asked' => AskedPages count (n + order.length) asked')
      (order.foldlM (access seedWord (count / 2)) mix) asked := by
  induction order generalizing mix n asked with
  | nil => exact h
  | cons i order ih =>
    obtain ⟨hfirst, hsecond⟩ := toNat_pageIndex_mul heven hpos seedWord mix i
    have hlt := (pageIndex_lt heven hpos seedWord mix i).2
    rw [List.foldlM_cons, List.length_cons, Nat.add_comm order.length 1, ← Nat.add_assoc]
    have haccess : Keeps Noting (fun _ _ => True) (fun _ asked' => AskedPages count (n + 1) asked')
        (access seedWord (count / 2) mix i) asked := by
      refine ⟨trivial, fun _ _ hnoted => ⟨trivial, fun _ _ hnoted' => ?_⟩⟩
      subst hnoted
      subst hnoted'
      exact h.push hfirst hsecond hlt
    exact haccess.bind fun mix' asked' h => ih mix' h

theorem keeps_askedPages_overNodes (header : Hash256) (nonce : UInt64) :
    Keeps Noting (fun _ _ => True) (fun _ asked => AskedPages count 64 asked)
      (overNodes H count header nonce) [] := by
  refine (keeps_askedPages heven hpos _ (List.range Params.accesses) _ askedPages_nil).bind ?_
  intro mix asked h
  rw [Nat.zero_add, List.length_range] at h
  exact h

end

/-! ### What the hash depends on -/

section

variable (hcount : Dataset.nodeCount size = .ok count) (header : Hash256) (nonce : UInt64)

include hcount

theorem compute_eq_ok (nodes : UInt32 → Node) :
    compute H size nodes header nonce =
      .ok ((overNodes H count header nonce).eval (I := NodeLookup) nodes) := by
  rw [compute, program_eq_ok hcount]
  rfl

/-- Only the nodes of the dataset play a part in the hash. -/
theorem compute_congr {nodes nodes' : UInt32 → Node}
    (h : ∀ index : UInt32, index < count → nodes index = nodes' index) :
    compute H size nodes header nonce = compute H size nodes' header nonce := by
  obtain ⟨-, hpos, heven⟩ := Dataset.nodeCount_eq_ok hcount
  rw [compute_eq_ok hcount, compute_eq_ok hcount]
  exact congrArg Except.ok (eval_congr (I := NodeLookup) h (keeps_overNodes heven hpos header nonce))

/-- The hash over a memory that has all of the dataset is the hash over the nodes in it. -/
theorem overMemory_eq_compute {data : ByteArray} (hsize : size ≤ data.size) :
    overMemory H data size header nonce =
      (compute H size (fun index => (nodeAt? data index).getD .zero) header nonce).map some := by
  obtain ⟨hbytes, hpos, heven⟩ := Dataset.nodeCount_eq_ok hcount
  have hlook (index : UInt32) (hindex : index < count) :
      nodeAt? data index = some ((nodeAt? data index).getD .zero) := by
    rw [UInt32.lt_iff_toNat_lt] at hindex
    obtain ⟨node, hnode⟩ := exists_nodeAt? data index (by omega)
    rw [hnode]
    rfl
  rw [overMemory, program_eq_ok hcount, compute_eq_ok hcount]
  exact congrArg Except.ok
    (run_eq_some_eval (I := NodeLookup) hlook (keeps_overNodes heven hpos header nonce))

theorem overMemory_congr {data data' : ByteArray} (hsize : size ≤ data.size)
    (hsize' : size ≤ data'.size) (h : ∀ i < size, data[i]! = data'[i]!) :
    overMemory H data size header nonce = overMemory H data' size header nonce := by
  have hbytes := (Dataset.nodeCount_eq_ok hcount).1
  rw [overMemory_eq_compute hcount header nonce hsize,
    overMemory_eq_compute hcount header nonce hsize']
  congr 1
  refine compute_congr hcount header nonce fun index hindex => ?_
  rw [UInt32.lt_iff_toNat_lt] at hindex
  rw [nodeAt?_congr (by omega) fun j hj => h _ (by omega)]

end

/-- A hash is refused, before any node is asked for, exactly when the size is not that of a dataset.
Otherwise it asks for the nodes of 64 pages of the dataset, whatever nodes it gets, and nothing that
lies outside of the dataset plays a part in it. -/
theorem lookups_within_dataset (H : Hasher) (size : Nat) (header : Hash256) (nonce : UInt64) :
    ((∃ cause, program H size header nonce = .error cause) ↔
      size = 0 ∨ size % 128 ≠ 0 ∨ 2 ^ 32 - 1 < size / 64) ∧
    ∀ p, program H size header nonce = .ok p →
      (∃ count : UInt32, p = overNodes H count header nonce ∧ count.toNat = size / 64 ∧
        0 < (count / 2).toNat ∧
        ∀ seedWord mix i,
          (pageIndex seedWord (count / 2) mix i * 2).toNat =
            2 * (pageIndex seedWord (count / 2) mix i).toNat ∧
          (pageIndex seedWord (count / 2) mix i * 2 + 1).toNat =
            2 * (pageIndex seedWord (count / 2) mix i).toNat + 1) ∧
      (∀ hash asked, Ends Noting p [] hash asked → asked.length = 128 ∧
        ∃ pages : List Nat, pages.length = 64 ∧
          asked.map UInt32.toNat = pages.flatMap (fun page => [2 * page, 2 * page + 1]) ∧
          ∀ page ∈ pages, 2 * page + 1 < size / 64) ∧
      (∀ nodes, ∃ hash, compute H size nodes header nonce = .ok hash) ∧
      (∀ nodes nodes' : UInt32 → Node,
        (∀ index : UInt32, index.toNat < size / 64 → nodes index = nodes' index) →
        compute H size nodes header nonce = compute H size nodes' header nonce) ∧
      ∀ data, size ≤ data.size → ∃ hash, overMemory H data size header nonce = .ok (some hash) ∧
        ∀ rest, overMemory H (data.extract 0 size ++ rest) size header nonce = .ok (some hash) := by
  refine ⟨exists_program_eq_error_iff header nonce, fun p hp => ?_⟩
  obtain ⟨count, hcount⟩ : ∃ count, Dataset.nodeCount size = .ok count := by
    cases hcount : Dataset.nodeCount size with
    | ok count => exact ⟨count, rfl⟩
    | error cause =>
      rw [program, hcount] at hp
      contradiction
  obtain ⟨hbytes, hpos, heven⟩ := Dataset.nodeCount_eq_ok hcount
  obtain rfl : overNodes H count header nonce = p :=
    Except.ok.inj ((program_eq_ok hcount header nonce).symm.trans hp)
  have hnodes : size / 64 = count.toNat := by omega
  rw [hnodes]
  refine ⟨⟨count, rfl, rfl, ?_, ?_⟩, fun hash asked h => ?_, fun nodes => ?_, fun nodes nodes' h => ?_,
    fun data hsize => ?_⟩
  · rw [UInt32.toNat_div]
    show 0 < count.toNat / 2
    omega
  · exact toNat_pageIndex_mul heven hpos
  · have hasked := (keeps_askedPages_overNodes heven hpos header nonce).ends h
    exact ⟨hasked.length, hasked⟩
  · exact ⟨_, compute_eq_ok hcount header nonce nodes⟩
  · exact compute_congr hcount header nonce fun index hindex =>
      h index (UInt32.lt_iff_toNat_lt.mp hindex)
  · have hhash := overMemory_eq_compute (H := H) hcount header nonce hsize
    rw [compute_eq_ok hcount] at hhash
    refine ⟨_, hhash, fun rest => ?_⟩
    have hextract : (data.extract 0 size).size = size := by
      rw [ByteArray.size_extract]
      omega
    refine (overMemory_congr hcount header nonce ?_ hsize fun i hi => ?_).trans hhash
    · rw [ByteArray.size_append, hextract]
      omega
    · rw [Bytes.getElem!_append, hextract, if_pos hi, Bytes.getElem!_extract, if_pos (by omega),
        Nat.zero_add]

theorem lookups_within_dataset_page :
    ∃ p, program .keccak 128 .zero 0 = .ok p ∧
      (∀ hash asked, Ends Noting p [] hash asked → asked.length = 128) ∧
      ∃ hash, overMemory .keccak (zeroBytes 130) 128 .zero 0 = .ok (some hash) := by
  obtain ⟨-, hlookups⟩ := lookups_within_dataset .keccak 128 .zero 0
  obtain ⟨-, hasked, -, -, hmemory⟩ := hlookups _ rfl
  obtain ⟨hash, hhash, -⟩ := hmemory (zeroBytes 130) (by rw [size_zeroBytes]; decide)
  exact ⟨_, rfl, fun hash asked h => (hasked hash asked h).1, hash, hhash⟩

end Hashimoto

end ProofOfWork
