import ProofOfWork.Proofs.Dataset.Bytes
import ProofOfWork.Proofs.Serving

/-! The hash of a header and a nonce only looks at nodes that the dataset has. Over a whole dataset it
is therefore the hash whose nodes are computed one by one. -/

namespace ProofOfWork

/-- A program that only makes requests with `P` runs over partial answers as over total ones, where
the two agree on `P`. -/
theorem Program.run_eq_some_eval {I : Interface} {α : Type} {P : I.Request → Prop}
    {look : (r : I.Request) → Option (I.Answer r)} {answer : (r : I.Request) → I.Answer r}
    (hlook : ∀ r, P r → look r = some (answer r)) {p : Program I α}
    (h : Keeps (fun _ (_ : Unit) _ _ => True) (fun r _ => P r) (fun _ _ => True) p ()) :
    p.run look = some (p.eval answer) := by
  induction p with
  | done a => rfl
  | ask r next ih =>
    rw [run_ask, hlook r h.1]
    exact ih (answer r) (h.2 (answer r) () trivial)

namespace Hashimoto

open Program

variable {H : Hasher} {c : Cache} {count : UInt32} {W : Serving NodeLookup Unit}

section

variable (heven : count.toNat % 2 = 0) (hpos : 0 < count.toNat) (seedWord : UInt32) (mix : Mix)
  (i : Nat)

include heven hpos

theorem toNat_pageIndex_lt : (pageIndex seedWord (count / 2) mix i).toNat < count.toNat / 2 := by
  rw [pageIndex, UInt32.toNat_mod, UInt32.toNat_div]
  exact Nat.mod_lt _ (by show 0 < count.toNat / 2; omega)

/-- The indices of the nodes of a page are computed without an overflow. -/
theorem toNat_pageIndex_mul :
    (pageIndex seedWord (count / 2) mix i * 2).toNat =
        2 * (pageIndex seedWord (count / 2) mix i).toNat ∧
      (pageIndex seedWord (count / 2) mix i * 2 + 1).toNat =
        2 * (pageIndex seedWord (count / 2) mix i).toNat + 1 := by
  have hlt := count.toNat_lt
  have hpage := toNat_pageIndex_lt heven hpos seedWord mix i
  have hfirst : (pageIndex seedWord (count / 2) mix i * 2).toNat =
      2 * (pageIndex seedWord (count / 2) mix i).toNat := by
    rw [UInt32.toNat_mul, show (2 : UInt32).toNat = 2 from rfl, Nat.mod_eq_of_lt (by omega),
      Nat.mul_comm]
  refine ⟨hfirst, ?_⟩
  rw [UInt32.toNat_add, hfirst, show (1 : UInt32).toNat = 1 from rfl, Nat.mod_eq_of_lt (by omega)]

/-- Both nodes of a page that a hash reads are nodes of the dataset. -/
theorem pageIndex_lt :
    pageIndex seedWord (count / 2) mix i * 2 < count ∧
      pageIndex seedWord (count / 2) mix i * 2 + 1 < count := by
  have hpage := toNat_pageIndex_lt heven hpos seedWord mix i
  obtain ⟨hfirst, hsecond⟩ := toNat_pageIndex_mul heven hpos seedWord mix i
  rw [UInt32.lt_iff_toNat_lt, UInt32.lt_iff_toNat_lt, hfirst, hsecond]
  omega

end

/-- A request for a node of the dataset. -/
def Asks (count : UInt32) (index : UInt32) (_ : Unit) : Prop := index < count

/-- One access asks for nodes of the dataset, whatever nodes it has got. -/
theorem keeps_access (heven : count.toNat % 2 = 0) (hpos : 0 < count.toNat) (seedWord : UInt32)
    (mix : Mix) (i : Nat) :
    Keeps W (Asks count) (fun _ _ => True)
      (access seedWord (count / 2) mix i) () := by
  obtain ⟨hfirst, hsecond⟩ := pageIndex_lt heven hpos seedWord mix i
  exact ⟨hfirst, fun _ _ _ => ⟨hsecond, fun _ _ _ => trivial⟩⟩

theorem keeps_accesses (heven : count.toNat % 2 = 0) (hpos : 0 < count.toNat) (seedWord : UInt32)
    (order : List Nat) (mix : Mix) :
    Keeps W (Asks count) (fun _ _ => True)
      (order.foldlM (access seedWord (count / 2)) mix) () := by
  induction order generalizing mix with
  | nil => trivial
  | cons i order ih =>
    rw [List.foldlM_cons]
    exact (keeps_access heven hpos seedWord mix i).bind fun mix' _ _ => ih mix'

theorem keeps_overNodes (heven : count.toNat % 2 = 0) (hpos : 0 < count.toNat) (header : Hash256)
    (nonce : UInt64) :
    Keeps W (Asks count) (fun _ _ => True) (overNodes H count header nonce) () :=
  (keeps_accesses heven hpos _ _ _).bind fun _ _ _ => trivial

variable {size : Nat}

theorem program_eq_ok (hcount : Dataset.nodeCount size = .ok count) (header : Hash256)
    (nonce : UInt64) : program H size header nonce = .ok (overNodes H count header nonce) := by
  rw [program, hcount]
  rfl

/-- The hash over nodes that are looked up is the hash whose nodes are computed, if all nodes of the
dataset are there. -/
theorem run_program (hcount : Dataset.nodeCount size = .ok count)
    {look : UInt32 → Option Node} (hlook : ∀ index < count, look index = some (Dataset.item H c index))
    (header : Hash256) (nonce : UInt64) :
    ∃ h, (do return (← program H size header nonce).run (m := Option) look) = .ok (some h) ∧
      light H c size header nonce = .ok h := by
  obtain ⟨-, hpos, heven⟩ := Dataset.nodeCount_eq_ok hcount
  have hprogram := program_eq_ok (H := H) hcount header nonce
  have hrun := run_eq_some_eval (I := NodeLookup) hlook (keeps_overNodes (H := H) heven hpos header nonce)
  refine ⟨(overNodes H count header nonce).eval (I := NodeLookup) (Dataset.item H c), ?_, ?_⟩
  · rw [hprogram]
    exact congrArg Except.ok hrun
  · rw [light, compute, hprogram]
    rfl

theorem full_bytes (hcount : Dataset.nodeCount size = .ok count) (header : Hash256)
    (nonce : UInt64) :
    ∃ h, full H (Dataset.bytes H c count.toNat) header nonce = .ok (some h) ∧
      light H c size header nonce = .ok h := by
  have hsize : (Dataset.bytes H c count.toNat).size = size := by
    rw [Dataset.size_bytes, (Dataset.nodeCount_eq_ok hcount).1]
  rw [full, overMemory, hsize]
  refine run_program hcount (fun index hindex => ?_) header nonce
  exact Dataset.nodeAt?_bytes (UInt32.lt_iff_toNat_lt.mp hindex)

end Hashimoto

end ProofOfWork
