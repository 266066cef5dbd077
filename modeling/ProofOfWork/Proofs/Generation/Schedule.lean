import ProofOfWork.Bytes.Zeros
import ProofOfWork.Proofs.Generation.Memory

/-! The order in which workers take their steps, and who of them hears what from the caller, does not
show in a dataset: every order leaves the memory that one worker leaves, unless the caller stopped. -/

namespace ProofOfWork.Generation

open Program
open Hashimoto (nodeAt?)
open Dataset (setNode)

/-- A caller that answers each report in either way and picks any worker. Its states are the reports
with the answers, the latest first. -/
def hearing : Serving Caller (List (UInt32 × Verdict))
  | .report percent, heard, verdict, heard' => heard' = (percent, verdict) :: heard
  | .log _, heard, _, heard' => heard' = heard
  | .pick _, heard, _, heard' => heard' = heard

/-- A caller that stops no computation. -/
def patient : (r : Caller.Request) → Caller.Answer r
  | .report _ => .goOn
  | .log _ => ()
  | .pick others => ⟨0, Nat.succ_pos others⟩

/-- What the caller has heard and answered, by the record. -/
def Record.heard {σ : Type} (count : UInt32) (m : Record σ) : List (UInt32 × Verdict) :=
  m.calls.map fun call => (Dataset.percent call.1 count, call.2)

/-- What a crew answers when nobody is left in it. -/
def Crew.answer {σ : Type} (crew : Crew σ) : Except Error Unit :=
  if crew.stopped then .error .cancelled else .ok ()

variable {H : Hasher} {c : Cache} {count : UInt32} {memory : ByteArray}

/-- What the workers have done to a memory at any time. -/
structure Crew.Orderly (H : Hasher) (c : Cache) (count : UInt32) (memory : ByteArray)
    (crew : Crew ByteArray) : Prop where
  size_memory : crew.record.memory.size = memory.size
  made : ∀ index ∈ crew.record.written,
    nodeAt? crew.record.memory index = some (Dataset.item H c index)
  untouched : ∀ index ∉ crew.record.written,
    nodeAt? crew.record.memory index = nodeAt? memory index
  writtenOnce : crew.record.written.Nodup
  calledOnce : (crew.record.calls.map Prod.fst).Nodup
  calledAtStart : ∀ call ∈ crew.record.calls, StartsChunk count call.1

/-- What the workers have done once all of them have left. -/
structure Crew.Settled (H : Hasher) (c : Cache) (count : UInt32) (memory : ByteArray)
    (crew : Crew ByteArray) : Prop where
  answer_ok : crew.answer = .ok () ↔ ∀ call ∈ crew.record.calls, call.2 = .goOn
  answer_cancelled : crew.answer = .error .cancelled ↔ ∃ call ∈ crew.record.calls, call.2 = .stop
  sequential : crew.answer = .ok () →
    (Dataset.fill H c false memory).eval patient = (.ok (), crew.record.memory)
  halted : ∀ call ∈ crew.record.calls, call.2 = .stop → ∀ index, InChunk count call.1 index →
    index ∉ crew.record.written ∧ nodeAt? crew.record.memory index = nodeAt? memory index

theorem Crew.Reachable.orderly (hsize : memory.size = 64 * count.toNat) {crew : Crew ByteArray}
    (h : Reachable H c count setNode memory crew) : crew.Orderly H c count memory where
  size_memory := h.made.size_memory
  made := fun index hindex => by rw [h.made.nodeAt? hsize, if_pos hindex]
  untouched := fun index hindex => by rw [h.made.nodeAt? hsize, if_neg hindex]
  writtenOnce := h.holds.shared.writtenOnce
  calledOnce := h.holds.heard.calledOnce
  calledAtStart := h.holds.heard.calledAtStart

theorem fill_eq (hcount : Dataset.nodeCount memory.size = .ok count) (inParallel : Bool) :
    Dataset.fill H c inParallel memory =
      ((nodes H c inParallel count).run (Dataset.keepBy setNode) memory >>= fun x =>
        match x.1 with
        | .finished => .done (.ok (), x.2)
        | .cancelled => .done (.error .cancelled, x.2)) := by
  rw [Dataset.fill, hcount]
  rfl

theorem eval_fill (hcount : Dataset.nodeCount memory.size = .ok count) (inParallel : Bool) :
    (Dataset.fill H c inParallel memory).eval patient =
      (.ok (), Dataset.bytes H c count.toNat) := by
  refine (keeps_fill ?_ hcount () inParallel).ends (ends_eval (I := Caller) _)
  rintro percent s verdict s' rfl
  rfl

theorem Crew.answer_eq_ok {crew : Crew ByteArray} : crew.answer = .ok () ↔ crew.stopped = false := by
  unfold Crew.answer
  split <;> simp_all

theorem Crew.answer_eq_cancelled {crew : Crew ByteArray} :
    crew.answer = .error .cancelled ↔ crew.stopped = true := by
  unfold Crew.answer
  split <;> simp_all

theorem Crew.Reachable.settled (hcount : Dataset.nodeCount memory.size = .ok count)
    {crew : Crew ByteArray} (h : Reachable H c count setNode memory crew) (hteam : crew.team = []) :
    crew.Settled H c count memory := by
  obtain ⟨team, stopped, m⟩ := crew
  obtain rfl : team = [] := hteam
  have hsize := (Dataset.nodeCount_eq_ok hcount).1
  have htells := h.tells
  have hstopped : stopped = true ↔ ∃ call ∈ m.calls, call.2 = .stop := by
    have := htells.cancelled
    simp only [Prod.exists, exists_eq_right]
    cases stopped <;> simpa using this
  refine ⟨?_, ?_, fun hok => ?_, fun call hcall hstop index hindex => ?_⟩
  · rw [answer_eq_ok, ← Bool.not_eq_true, hstopped]
    constructor
    · intro hnone call hcall
      cases hverdict : call.2 with
      | goOn => rfl
      | stop => exact absurd ⟨call, hcall, hverdict⟩ hnone
    · rintro hall ⟨call, hcall, hverdict⟩
      rw [hall call hcall] at hverdict
      contradiction
  · rw [answer_eq_cancelled, hstopped]
  · obtain rfl : stopped = false := answer_eq_ok.mp hok
    rw [eval_fill hcount, h.made.eq_bytes hsize (htells.finished rfl)]
  · obtain ⟨first, verdict⟩ := call
    obtain rfl : verdict = .stop := hstop
    have hnot := (h.holds.heard.halted first hcall index hindex).1
    exact ⟨hnot, (h.orderly hsize).untouched index hnot⟩

/-! ### The program and the crew -/

theorem hears_hearing (count : UInt32) : Hears count hearing fun calls heard =>
    heard = calls.map fun call => (Dataset.percent call.1 count, call.2) := by
  refine ⟨?_, ?_, ?_⟩
  · rintro node calls _ verdict _ rfl rfl
    rfl
  · rintro calls _ event _ rfl rfl
    rfl
  · rintro calls _ others k _ rfl rfl
    rfl

/-- What the record notes, the program may do with a memory and this caller. -/
theorem keeping_hearing {node : UInt32} {r : Generation.Request} {m : Record ByteArray}
    {a : Generation.Answer r} (h : Legal H c count node r) :
    Keeping setNode hearing r (m.memory, m.heard count) a
      ((m.after setNode node r a).memory, (m.after setNode node r a).heard count) := by
  rcases r with (percent | event | others) | ⟨index, n⟩
  · obtain rfl : percent = _ := h
    exact .ask rfl (.refl _ _)
  · exact .ask rfl (.refl _ _)
  · exact .ask rfl (.refl _ _)
  · exact .refl _ _

/-- The program for several workers ends as crews do, and in all ways in which they do. -/
theorem ends_fill_iff (hcount : Dataset.nodeCount memory.size = .ok count)
    {answer : Except Error Unit} {memory' : ByteArray} {heard : List (UInt32 × Verdict)} :
    Ends hearing (Dataset.fill H c true memory) [] (answer, memory') heard ↔
      ∃ crew, Crew.Reachable H c count setNode memory crew ∧ crew.team = [] ∧
        answer = crew.answer ∧ memory' = crew.record.memory ∧ heard = crew.record.heard count := by
  rw [fill_eq hcount]
  constructor
  · intro he
    have F := follows_keeping (H := H) (c := c) (hears_hearing count) (views_setNode count)
    have hkeeps := keeps_keepBy (keeps_parallel memory F (s := (memory, [])) ⟨rfl, rfl⟩)
    obtain ⟨⟨outcome, kept⟩, s, hnodes, hlast⟩ := Reaches.of_bind he
    obtain ⟨stopped, m, ⟨rfl, rfl⟩, h, rfl⟩ := hkeeps.ends hnodes
    refine ⟨_, h, rfl, ?_⟩
    cases stopped with
    | false => cases hlast with | refl => exact ⟨rfl, rfl, rfl⟩
    | true => cases hlast with | refl => exact ⟨rfl, rfl, rfl⟩
  · rintro ⟨crew, h, hteam, rfl, rfl, rfl⟩
    obtain ⟨team, stopped, m⟩ := crew
    obtain rfl : team = [] := hteam
    obtain ⟨steps, -, hr⟩ := h.reaches (W := Keeping setNode hearing)
      (f := fun m => (m.memory, m.heard count)) fun _ _ _ _ hlegal => keeping_hearing hlegal
    rw [show runWorkers H c count steps [] stopped = .done stopped by cases steps <;> rfl] at hr
    have hparallel : Ends (Keeping setNode hearing) (parallel H c count) (memory, [])
        (if stopped then .cancelled else .finished) (m.memory, m.heard count) := by
      refine (hr.bind _).trans ?_
      cases stopped with
      | false => exact .refl _ _
      | true => exact .ask (a := ()) (.ask rfl (.refl _ _)) (.refl _ _)
    refine (Reaches.bind (Reaches.throughState hparallel) _).trans ?_
    cases stopped with
    | false => exact .refl _ _
    | true => exact .refl _ _

/-- A memory is filled by several workers in any order of their steps as by one worker: at any time a
node is as it was or as in the dataset, no node is written twice and no chunk reported twice; and when
all workers have left, the memory is the dataset unless the caller answered a stop, which then leaves
its chunk as it was. These crews are what the program comes to. -/
theorem parallel_fill_schedule_independent (H : Hasher) (c : Cache) {memory : ByteArray}
    {count : UInt32} (hcount : Dataset.nodeCount memory.size = .ok count) :
    (∀ crew, Crew.Reachable H c count setNode memory crew → crew.Orderly H c count memory) ∧
    (∀ crew, Crew.Reachable H c count setNode memory crew → crew.team = [] →
      crew.Settled H c count memory) ∧
    ∀ answer memory' heard,
      Ends hearing (Dataset.fill H c true memory) [] (answer, memory') heard ↔
        ∃ crew, Crew.Reachable H c count setNode memory crew ∧ crew.team = [] ∧
          answer = crew.answer ∧ memory' = crew.record.memory ∧ heard = crew.record.heard count := by
  refine ⟨fun crew h => ?_, fun crew h hteam => ?_, fun answer memory' heard => ?_⟩
  · exact h.orderly (Dataset.nodeCount_eq_ok hcount).1
  · exact h.settled hcount hteam
  · exact ends_fill_iff hcount

theorem parallel_fill_schedule_independent_two :
    Dataset.nodeCount (zeroBytes 128).size = .ok 2 ∧
    ∀ crew, Crew.Reachable .keccak (.ofSeed .keccak 0 (by decide) .zero) 2 setNode (zeroBytes 128)
        crew → crew.team = [] → crew.answer = .ok () →
      (Dataset.fill .keccak (.ofSeed .keccak 0 (by decide) .zero) false (zeroBytes 128)).eval patient =
        (.ok (), crew.record.memory) := by
  have hcount : Dataset.nodeCount (zeroBytes 128).size = .ok 2 := by
    rw [size_zeroBytes]
    rfl
  refine ⟨hcount, fun crew h hteam hok => ?_⟩
  exact ((parallel_fill_schedule_independent _ _ hcount).2.1 crew h hteam).sequential hok

end ProofOfWork.Generation
