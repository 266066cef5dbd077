import Mathlib.Tactic.NormNum.Prime
import ProofOfWork.Cli.Terminal
import ProofOfWork.Proofs.Epoch
import ProofOfWork.Proofs.Generation.Reports

/-! The progress that is printed while a dataset is generated. Each report overwrites the line, and only
a report of 100 percent ends it. -/

namespace ProofOfWork

open Program
open Generation (Reported hearing)

namespace Cli

/-! ### Line breaks -/

/-- The line breaks in a text. -/
def lineBreaks (s : String) : Nat := s.toList.count '\n'

theorem lineBreaks_append (s t : String) : lineBreaks (s ++ t) = lineBreaks s + lineBreaks t := by
  rw [lineBreaks, String.toList_append, List.count_append]
  rfl

theorem lineBreaks_toString (n : Nat) : lineBreaks (toString n) = 0 := by
  have hdigits : (toString n).toList = Nat.toDigits 10 n := Nat.toList_repr
  rw [lineBreaks, hdigits, List.count_eq_zero]
  intro hmem
  have hdigit := Nat.isDigit_of_mem_toDigits (by decide) (by decide) hmem
  exact absurd hdigit (by decide)

theorem lineBreaks_padLeft (width : Nat) (s : String) : lineBreaks (padLeft width s) = lineBreaks s := by
  rw [padLeft, lineBreaks_append, lineBreaks, String.toList_ofList, List.count_replicate,
    if_neg (by decide), Nat.zero_add]

theorem lineBreaks_progressLine (colour : Bool) (percent : UInt32) :
    lineBreaks (progressLine colour percent) = if 100 ≤ percent.toNat then 1 else 0 := by
  have hpaint : lineBreaks (Role.activity.paint colour "Generating DAG") = 0 := by
    cases colour <;> decide
  have hle : 100 ≤ percent ↔ 100 ≤ percent.toNat := UInt32.le_iff_toNat_le
  simp only [progressLine, lineBreaks_append, lineBreaks_padLeft, lineBreaks_toString, hpaint, hle]
  split <;> decide

/-! ### What is printed -/

/-- A terminal that answers in any way. Its states are what was written to the standard error output. -/
def Terminal.writing : Serving Terminal String
  | .err text, s, _, s' => s' = s ++ text
  | _, s, _, s' => s' = s

/-- What is printed for reports, the latest first. -/
def printed (colour : Bool) : List (UInt32 × Verdict) → String
  | [] => ""
  | call :: heard => printed colour heard ++ progressLine colour call.1

theorem lineBreaks_printed (colour : Bool) (heard : List (UInt32 × Verdict)) :
    lineBreaks (printed colour heard) =
      (heard.map fun call => call.1.toNat).countP fun p => 100 ≤ p := by
  induction heard with
  | nil => rfl
  | cons call heard ih =>
    rw [printed, lineBreaks_append, ih, lineBreaks_progressLine, List.map_cons, List.countP_cons]
    simp only [decide_eq_true_eq]

/-- What was printed is what belongs to the reports so far, and none of them was answered with a stop. -/
def Prints (colour : Bool) (heard : List (UInt32 × Verdict)) (text : String) : Prop :=
  text = printed colour heard ∧ ∀ call ∈ heard, call.2 = .goOn

theorem keeps_serveCaller {colour : Bool} {heard : List (UInt32 × Verdict)} {text : String}
    (h : Prints colour heard text) (r : Caller.Request) :
    Keeps Terminal.writing (fun _ _ => True)
      (fun a text' => ∃ heard', hearing r heard a heard' ∧ Prints colour heard' text')
      (Terminal.serveCaller colour false r) text := by
  obtain ⟨rfl, hall⟩ := h
  cases r with
  | report percent =>
    refine ⟨trivial, ?_⟩
    rintro _ _ rfl
    exact ⟨(percent, .goOn) :: heard, rfl, rfl, List.forall_mem_cons.mpr ⟨rfl, hall⟩⟩
  | log event =>
    refine ⟨trivial, ?_⟩
    rintro _ _ rfl
    exact ⟨heard, rfl, rfl, hall⟩
  | pick others =>
    refine ⟨trivial, ?_⟩
    rintro _ _ rfl
    exact ⟨heard, rfl, rfl, hall⟩

/-- The lines that a generation prints end as often as it reports 100 percent. -/
theorem keeps_fill_printed (H : Hasher) (c : Cache) (inParallel colour : Bool) (memory : ByteArray) :
    Keeps Terminal.writing (fun _ _ => True)
      (fun _ text => ∃ percents, Reported H c inParallel memory percents ∧
        lineBreaks text = percents.countP fun p => 100 ≤ p)
      ((Dataset.fill H c inParallel memory).run (Terminal.serveCaller colour false)) "" := by
  refine Keeps.through (P := fun _ _ => True) (fun r s _ => keeps_trivial _ _) ?_
  have hheard := (keeps_trivial (W := hearing) (Dataset.fill H c inParallel memory) []).and_ends
  have hfollow : ∀ r heard text, True → Prints colour heard text → True ∧ ∀ a text',
      Ends Terminal.writing (Terminal.serveCaller colour false r) text a text' →
        ∃ heard', hearing r heard a heard' ∧ Prints colour heard' text' :=
    fun r heard text _ hprints => ⟨trivial, fun a text' he => (keeps_serveCaller hprints r).ends he⟩
  refine (hheard.follow hfollow ⟨rfl, List.forall_mem_nil _⟩).mono (fun _ _ h => h) ?_
  rintro x text ⟨heard, ⟨rfl, hall⟩, -, he⟩
  refine ⟨_, ⟨x, heard, he, hall, rfl⟩, ?_⟩
  rw [lineBreaks_printed, List.countP_reverse]

end Cli

/-- A dataset of a block has twice as many nodes as some large prime number, and so the number of its
nodes is no multiple of 100. -/
theorem Epoch.nodes_of_block {block : UInt64} {count : UInt32}
    (hcount : Dataset.nodeCount (datasetSize block).toNat = .ok count) :
    100 ≤ count.toNat ∧ count.toNat % 100 ≠ 0 := by
  have hsize := (Dataset.nodeCount_eq_ok hcount).1
  obtain ⟨⟨hprime, -⟩, hgreatest⟩ := isGreatest_unitsBelow (datasetHalf_bounds block).1
  rw [toNat_datasetSize] at hsize
  have hhalf : 2 ^ 22 ≤ datasetHalf block := Nat.le_add_right ..
  have hlarge : 53 ≤ unitsBelow (datasetHalf block) := hgreatest ⟨by norm_num, by omega⟩
  refine ⟨by omega, fun hmod => ?_⟩
  have htwo : 2 ∣ unitsBelow (datasetHalf block) := by omega
  have heq := (Nat.prime_dvd_prime_iff_eq Nat.prime_two hprime).mp htwo
  omega

namespace Generation

open Cli

variable {H : Hasher} {c : Cache} {memory : ByteArray} {count : UInt32} {inParallel : Bool}
  {percents : List Nat}

/-- The percentages that several workers report are those of one worker in another order. -/
theorem Reported.mergeSort_eq (hcount : Dataset.nodeCount memory.size = .ok count)
    (h : Reported H c inParallel memory percents) :
    percents.mergeSort = Dataset.reports count.toNat := by
  have hpos := (Dataset.nodeCount_eq_ok hcount).2.1
  have hsorted : percents.mergeSort.Pairwise fun a b => decide (a ≤ b) = true := by
    apply List.pairwise_mergeSort
    · intro a b c
      simp only [decide_eq_true_eq]
      exact Nat.le_trans
    · intro a b
      simp only [Bool.or_eq_true, decide_eq_true_eq]
      exact Nat.le_total a b
  simp only [decide_eq_true_eq] at hsorted
  refine List.Perm.eq_of_pairwise ?_ hsorted (Dataset.pairwise_reports hpos) ?_
  · intro a b _ _ hab hba
    exact Nat.le_antisymm hab hba
  · exact (List.mergeSort_perm percents _).trans (h.perm hcount)

theorem Reported.count_hundred (hcount : Dataset.nodeCount memory.size = .ok count)
    (h : Reported H c inParallel memory percents) :
    percents.count 100 = if 100 ≤ count.toNat ∧ count.toNat % 100 ≠ 0 then 1 else 0 := by
  rw [(h.perm hcount).count_eq, Dataset.count_hundred_reports (Dataset.nodeCount_eq_ok hcount).2.1]

theorem Reported.countP_hundred (hcount : Dataset.nodeCount memory.size = .ok count)
    (h : Reported H c inParallel memory percents) :
    (percents.countP fun p => 100 ≤ p) = percents.count 100 := by
  rw [List.count_eq_countP]
  refine List.countP_congr fun p hp => ?_
  have hle := Dataset.le_hundred_of_mem_reports ((h.perm hcount).mem_iff.mp hp)
  simp only [decide_eq_true_eq, beq_iff_eq]
  omega

/-- The percentages of one worker that is never stopped start at 0, never fall and end at most at 100.
Of at least 100 nodes each percentage up to 99 is reported, and 100 is reported once unless their number
is a multiple of 100. Several workers report the same percentages in some order. And so the progress of
generating the dataset of a block ends its line once. -/
theorem progress_exact (H : Hasher) (c : Cache) {memory : ByteArray} {count : UInt32}
    (hcount : Dataset.nodeCount memory.size = .ok count) :
    (∀ inParallel, ∃ percents, Reported H c inParallel memory percents) ∧
    (∀ percents, Reported H c false memory percents →
      percents.head? = some 0 ∧ percents.Pairwise (· ≤ ·) ∧ (∀ p ∈ percents, p ≤ 100) ∧
      (100 ≤ count.toNat →
        (∀ k (hk : k + 1 < percents.length), percents[k + 1] ≤ percents[k] + 1) ∧
        ∀ p < 100, p ∈ percents) ∧
      percents.count 100 = (if 100 ≤ count.toNat ∧ count.toNat % 100 ≠ 0 then 1 else 0) ∧
      ∀ percents', Reported H c true memory percents' → percents'.mergeSort = percents) ∧
    ∀ block, memory.size = (Epoch.datasetSize block).toNat → ∀ inParallel colour x text,
      Ends Terminal.writing
          ((Dataset.fill H c inParallel memory).run (Terminal.serveCaller colour false)) "" x text →
        text.toList.count '\n' = 1 := by
  have hpos := (Dataset.nodeCount_eq_ok hcount).2.1
  refine ⟨fun inParallel => exists_reported H c inParallel memory, fun percents h => ?_, ?_⟩
  · have hone := h.count_hundred hcount
    obtain rfl := h.eq hcount
    refine ⟨Dataset.head?_reports hpos, Dataset.pairwise_reports hpos, ?_, fun hlarge => ?_, hone, ?_⟩
    · exact fun p => Dataset.le_hundred_of_mem_reports
    · exact ⟨fun k => Dataset.reports_succ_le hlarge, fun p => Dataset.mem_reports_of_lt_hundred hlarge⟩
    · exact fun percents' h' => h'.mergeSort_eq hcount
  · intro block hblock inParallel colour x text he
    obtain ⟨percents, h, hbreaks⟩ := (keeps_fill_printed H c inParallel colour memory).ends he
    rw [hblock] at hcount
    have hnodes := Epoch.nodes_of_block hcount
    rw [← hblock] at hcount
    rw [h.countP_hundred hcount, h.count_hundred hcount, if_pos hnodes] at hbreaks
    exact hbreaks

/-- The 102 reports of one worker for as many nodes end with one of 100 percent. -/
theorem progress_exact_102 :
    Dataset.nodeCount (zeroBytes (64 * 102)).size = .ok 102 ∧
    ∀ percents, Reported .keccak (.ofSeed .keccak 0 (by decide) .zero) false (zeroBytes (64 * 102))
        percents →
      percents.head? = some 0 ∧ percents.count 100 = 1 ∧ 99 ∈ percents := by
  have hcount : Dataset.nodeCount (zeroBytes (64 * 102)).size = .ok 102 := by
    rw [size_zeroBytes]
    rfl
  refine ⟨hcount, fun percents h => ?_⟩
  obtain ⟨hhead, -, -, hall, hone, -⟩ :=
    (progress_exact .keccak (.ofSeed .keccak 0 (by decide) .zero) hcount).2.1 percents h
  exact ⟨hhead, hone, (hall (by decide)).2 99 (by decide)⟩

end Generation

end ProofOfWork
