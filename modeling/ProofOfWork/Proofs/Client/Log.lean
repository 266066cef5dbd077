import ProofOfWork.Proofs.DagFile.Log

/-! What the log tells of a call for a client with a dataset in a file: a failure as the last event, the
start of a file that cannot be read, a file that is of no use, and whether the dataset is generated or
used as it is. -/

namespace ProofOfWork

open Program Files

namespace FullClient

open DagFile

variable {H : Hasher} {c : Cache} {place : Place} {size : UInt64} {xs ys : List Exchange}

/-- What a call says, and what its log tells up to an `ending`. -/
structure Course (place : Place) (size : UInt64) (force : Bool) (first : Except Error Memo)
    (unread : Option IoError) (ending : List Event) (xs : List Exchange) (failure : Option Error) :
    Prop where
  answered : FirstAnswer place size force first xs
  reads : Reads place.path size unread xs
  marks : Marks (unread.toList.map (.unreadable place.path) ++ staleNote place first ++ ending) xs
    failure
  /-- After the note of a file that is of no use comes a second attempt. -/
  again : ∀ reason, first = .ok (.stale reason) → ∃ before again, xs = before ++
    ⟨.caller (.log (.stale place.path reason)), ()⟩ :: again ∧ Begins place true again failure

theorem Course.append {force : Bool} {first : Except Error Memo} {unread : Option IoError}
    {ending : List Event} {failure : Option Error}
    (h : Course place size force first unread [] xs none)
    (hys : ∀ x ∈ ys, ∀ file, x.request ≠ .readMagic file) (hmarks : Marks ending ys failure) :
    Course place size force first unread ending (xs ++ ys) failure := by
  refine ⟨h.answered.append ys, h.reads.append hys, ?_, fun reason hreason => ?_⟩
  · have hall := h.marks.append hmarks
    rwa [List.append_nil] at hall
  · obtain ⟨before, again, rfl, hbegins⟩ := h.again reason hreason
    refine ⟨before, again ++ ys, by simp, .inl ?_⟩
    rcases hbegins with ⟨more, htold⟩ | ⟨_, _, hnone⟩
    · exact ⟨more ++ told ys, by rw [told_append, htold, List.cons_append]⟩
    · contradiction

section

variable {force : Bool} {first : Except Error Memo} {unread : Option IoError}

/-- A first attempt that answers anything but that the file is of no use is the last one. -/
theorem course_of_prepares (hfirst : FirstAnswer place size force first xs)
    (hprepares : Prepares place.path size unread xs (failure? first))
    (hnote : staleNote place first = []) :
    Course place size force first unread [] xs (failure? first) := by
  refine ⟨hfirst, hprepares.reads, ?_, ?_⟩
  · rw [hnote, List.append_nil, List.append_nil]
    exact hprepares.marks
  · rintro reason rfl
    contradiction

/-- The file was there and is of use. -/
def IsFound (first : Except Error Memo) : Prop := ∃ file, first = .ok (.found file)

/-- What is said when the file is opened. -/
def Opens (place : Place) (size : UInt64) (force : Bool) (xs : List Exchange)
    (answer : Except Error (Handle × Bool)) : Prop :=
  ∃ first unread, Course place size force first unread [] xs (failure? answer) ∧ ¬IsMapped xs ∧
    ∀ opened, answer = .ok opened → (opened.2 = true ↔ IsFound first)

theorem opens_ok {opened : Handle × Bool}
    (hcourse : Course place size force first unread [] xs none)
    (hunmapped : ¬IsMapped xs) (hreuse : opened.2 = true ↔ IsFound first) :
    Opens place size force xs (.ok opened) :=
  ⟨first, unread, hcourse, hunmapped, fun _ heq => Except.ok.inj heq ▸ hreuse⟩

/-- A second attempt follows the note of a file that is of no use. -/
theorem opens_again {reason : Stale} {answer : Except Error (Handle × Bool)}
    (hfirst : FirstAnswer place size force (.ok (.stale reason)) xs)
    (hprepares : Prepares place.path size unread xs none)
    (hagain : Calmly ys (failure? answer) ∧ Begins place true ys (failure? answer))
    (hnew : ∀ opened, answer = .ok opened → opened.2 = false) :
    Opens place size force (xs ++ [⟨.caller (.log (.stale place.path reason)), ()⟩] ++ ys)
      answer := by
  rw [List.append_assoc, List.singleton_append]
  have hidle : ∀ x ∈ ⟨.caller (.log (.stale place.path reason)), ()⟩ :: ys, x.request.Idle :=
    List.forall_mem_cons.mpr ⟨by simp [Request.Idle], hagain.1.idle⟩
  refine ⟨_, unread, ⟨hfirst.append _, ?_, ?_, ?_⟩, ?_, ?_⟩
  · exact hprepares.reads.append fun x hx file => (hidle x hx file).1
  · rw [List.append_nil]
    exact hprepares.marks.append (hagain.1.marks.log (.stale place.path reason) ())
  · rintro _ heq
    cases heq
    exact ⟨xs, ys, rfl, hagain.2⟩
  · rw [isMapped_append]
    exact not_or.mpr ⟨hprepares.unmapped, not_isMapped_of_idle hidle⟩
  · intro opened hopened
    simp [hnew opened hopened, IsFound]

/-- No major event is noted, and no file is taken as it is, after the opening. -/
theorem Opens.append {opened : Handle × Bool} {answer : Except Error (Handle × Bool)}
    (h : Opens place size force xs (.ok opened)) (hmarks : Marks [] ys (failure? answer))
    (hread : ∀ x ∈ ys, ∀ file, x.request ≠ .readMagic file) (hunmapped : ¬IsMapped ys)
    (hanswer : ∀ opened', answer = .ok opened' → opened' = opened) :
    Opens place size force (xs ++ ys) answer := by
  obtain ⟨first, unread, hcourse, hbefore, hfound⟩ := h
  refine ⟨first, unread, hcourse.append hread hmarks, ?_, fun opened' hopened' => ?_⟩
  · exact isMapped_append.not.mpr (not_or.mpr ⟨hbefore, hunmapped⟩)
  · rw [hanswer opened' hopened']
    exact hfound opened rfl

end

theorem always_openFile (force : Bool) :
    Always (Opens place size force) (openFile place size force) := by
  refine always_of_yields (Yields.openFile
    (fun memo xs => FirstAnswer place size force (.ok memo) xs ∧
      ∃ unread, Prepares place.path size unread xs none)
    (fun _ xs => ∀ file, Opens place size force xs (.ok (file, false))) ?_ ?_ ?_ ?_ ?_)
  · have hfirst : Always (fun xs answer => FirstAnswer place size force answer xs ∧
        ∃ unread, Prepares place.path size unread xs (failure? answer)) (prepare place size force) :=
      fun xs answer hd =>
        ⟨⟨xs, [], (List.append_nil xs).symm, hd⟩, always_prepare force xs answer hd⟩
    refine hfirst.after (fun _ _ h => h) fun _ e h => ?_
    obtain ⟨hanswer, unread, hprepares⟩ := h
    exact ⟨.error e, unread, course_of_prepares hanswer hprepares rfl, hprepares.unmapped, nofun⟩
  · rintro reason xs ⟨hanswer, unread, hprepares⟩
    refine asks_said fun _ => always_prepare_forced.after ?_ ?_
    · intro ys _ h file
      refine opens_again hanswer hprepares h ?_
      rintro _ heq
      cases heq
      rfl
    · exact fun ys e h => opens_again hanswer hprepares h nofun
  · rintro file xs ⟨hanswer, unread, hprepares⟩
    exact opens_ok (course_of_prepares hanswer hprepares rfl) hprepares.unmapped (by simp [IsFound])
  · rintro file xs ⟨hanswer, unread, hprepares⟩
    exact opens_ok (course_of_prepares hanswer hprepares rfl) hprepares.unmapped (by simp [IsFound])
  · exact fun file _ h => h file

/-! ### The dataset -/

variable {count : UInt32} {file : Handle}

/-- The generation of a dataset is run, right after the note of it. -/
def Runs (H : Hasher) (c : Cache) (count : UInt32) (bytes : Nat) (inParallel : Bool)
    (xs : List Exchange) : Prop :=
  ∃ before generation after file outcome, xs = before ++
    ⟨.caller (.log (.generating bytes inParallel)), ()⟩ :: (generation ++ after) ∧
    Dialogue ((Generation.nodes H c inParallel count).run (intoFile file)) generation outcome

theorem Runs.append {bytes : Nat} {inParallel : Bool} (h : Runs H c count bytes inParallel ys)
    (xs zs : List Exchange) : Runs H c count bytes inParallel (xs ++ ys ++ zs) := by
  obtain ⟨before, generation, after, file, outcome, rfl, hd⟩ := h
  exact ⟨xs ++ before, generation, after ++ zs, file, outcome, by simp, hd⟩

/-- What is said while a file is filled. -/
structure Fills (H : Hasher) (c : Cache) (count : UInt32) (bytes : Nat) (inParallel : Bool)
    (xs : List Exchange) (failure : Option Error) : Prop where
  marks : Marks [.generating bytes inParallel] xs failure
  idle : ∀ x ∈ xs, x.request.Idle
  runs : Runs H c count bytes inParallel xs

theorem Fills.append {bytes : Nat} {inParallel : Bool} {failure : Option Error}
    (h : Fills H c count bytes inParallel xs none) (hys : Calmly ys failure) :
    Fills H c count bytes inParallel (xs ++ ys) failure :=
  ⟨h.marks.append hys.marks, List.forall_mem_append.mpr ⟨h.idle, hys.idle⟩, h.runs.append [] ys⟩

/-- A generation and what is said after it note no major event. -/
theorem fills_of_calm {bytes : Nat} {inParallel : Bool} {outcome : Generation.Outcome}
    {failure : Option Error}
    (hgeneration : Dialogue ((Generation.nodes H c inParallel count).run (intoFile file)) xs outcome)
    (hys : ∀ y ∈ ys, y.request.Calm) (hfailure : noteOf failure = []) :
    Fills H c count bytes inParallel
      ([⟨.caller (.log (.generating bytes inParallel)), ()⟩] ++ xs ++ ys) failure := by
  have hxs := hgeneration.requests (keeps_nodes_intoFile_calm file inParallel)
  have hcalm := List.forall_mem_append.mpr ⟨hxs, hys⟩
  have hnone : Marks [] [] failure := ⟨[], hfailure.symm, rfl⟩
  have hmarks := Marks.calm hcalm hnone
  rw [List.append_nil] at hmarks
  rw [List.append_assoc, List.singleton_append]
  refine ⟨hmarks.log _ (), ?_, [], xs, ys, file, outcome, rfl, hgeneration⟩
  exact List.forall_mem_cons.mpr ⟨by simp [Request.Idle], fun x hx => (hcalm x hx).idle⟩

theorem always_noted (bytes : Nat) (inParallel : Bool) :
    Always (fun xs answer => Fills H c count bytes inParallel xs (failure? answer))
      (ExceptT.mk (noted (I := Files) bytes inParallel
        ((Generation.nodes H c inParallel count).run (intoFile file)))) := by
  refine always_of_yields (Yields.noted
    (fun xs => xs = [⟨.caller (.log (.generating bytes inParallel)), ()⟩])
    (fun outcome xs => ∃ ys, xs = [⟨.caller (.log (.generating bytes inParallel)), ()⟩] ++ ys ∧
      Dialogue ((Generation.nodes H c inParallel count).run (intoFile file)) ys outcome)
    ?_ ?_ ?_ ?_)
  · exact asks_said fun _ => rfl
  · rintro _ rfl
    exact keeps_said _ _
  · rintro _ ⟨ys, rfl, hgeneration⟩
    have hfills : Fills H c count bytes inParallel _ (some .cancelled) :=
      fills_of_calm hgeneration (List.forall_mem_nil _) rfl
    rwa [List.append_nil] at hfills
  · rintro _ ⟨ys, rfl, hgeneration⟩
    exact asks_said fun _ => fills_of_calm hgeneration (List.forall_mem_singleton.mpr rfl) rfl

theorem always_fillFile (path : Path) (inParallel : Bool) :
    Always (fun xs answer =>
        Fills H c count (count.toNat * Params.nodeBytes) inParallel xs (failure? answer))
      (fillFile H c inParallel count file path) := by
  refine always_of_yields (Yields.fillFile
    (Fills H c count (count.toNat * Params.nodeBytes) inParallel · none)
    (Fills H c count (count.toNat * Params.nodeBytes) inParallel · none)
    (Fills H c count (count.toNat * Params.nodeBytes) inParallel · none) ?_ ?_ ?_ ?_)
  · exact (always_noted _ inParallel).after (fun _ _ h => h) fun _ _ h => h
  · exact fun _ h => comes_calmly (r := .sync file) (g := id) trivial fun _ _ => h.append
  · exact fun _ h => asks_said fun a => h.append (calmly_nil.cons a trivial)
  · exact fun _ h => comes_calmly (r := .sync file) (g := id) trivial fun _ _ => h.append

/-- How the log of a call ends, up to its failure. -/
inductive Ending (H : Hasher) (c : Cache) (count : UInt32) (place : Place) (first : Except Error Memo)
    (bytes : Nat) (inParallel : Bool) (xs : List Exchange) : List Event → Option Error → Prop
  | unmapped (e : Error) : ¬IsMapped xs →
      Ending H c count place first bytes inParallel xs [] (some e)
  | reused : IsMapped xs → IsFound first →
      Ending H c count place first bytes inParallel xs [.reusing place.path] none
  | generated (failure : Option Error) : IsMapped xs → ¬IsFound first →
      Runs H c count bytes inParallel xs →
      Ending H c count place first bytes inParallel xs [.generating bytes inParallel] failure

/-- What is said in a call, and how its log ends. -/
def Logs (H : Hasher) (c : Cache) (count : UInt32) (place : Place) (size : UInt64)
    (options : FullOptions) (xs : List Exchange) (failure : Option Error) : Prop :=
  ∃ first unread ending, Course place size options.force first unread ending xs failure ∧
    Ending H c count place first size.toNat options.parallel xs ending failure

/-- What is said up to the mapping of the file. -/
def Maps (place : Place) (size : UInt64) (force : Bool) (reuse : Bool) (xs : List Exchange) : Prop :=
  ∃ first unread, Course place size force first unread [] xs none ∧ IsMapped xs ∧
    (reuse = true ↔ IsFound first)

section

variable {options : FullOptions}

theorem Opens.logs {e : Error} (h : Opens place size options.force xs (.error e)) :
    Logs H c count place size options xs (some e) := by
  obtain ⟨first, unread, hcourse, hunmapped, -⟩ := h
  exact ⟨first, unread, [], hcourse, .unmapped e hunmapped⟩

theorem Opens.maps {opened : Handle × Bool} (h : Opens place size options.force xs (.ok opened))
    (length : Nat) :
    Maps place size options.force opened.2 (xs ++ [⟨.map opened.1, .ok length⟩]) := by
  obtain ⟨first, unread, hcourse, -, hfound⟩ := h
  exact ⟨first, unread, hcourse.append (by simp) ⟨[], rfl, rfl⟩,
    ⟨opened.1, length, by simp⟩, hfound opened rfl⟩

theorem Maps.reused (h : Maps place size options.force true xs) :
    Logs H c count place size options (xs ++ [⟨.caller (.log (.reusing place.path)), ()⟩]) none := by
  obtain ⟨first, unread, hcourse, hmapped, hfound⟩ := h
  refine ⟨first, unread, _, hcourse.append (by simp) ⟨[.reusing place.path], rfl, rfl⟩, ?_⟩
  exact .reused (isMapped_append.mpr (.inl hmapped)) (hfound.mp rfl)

/-- A file that is not used as it is is filled once it is mapped. -/
theorem Maps.filled {failure : Option Error} (h : Maps place size options.force false xs)
    (hfills : Fills H c count size.toNat options.parallel ys failure) :
    Logs H c count place size options (xs ++ ys) failure := by
  obtain ⟨first, unread, hcourse, hmapped, hfound⟩ := h
  have hread : ∀ x ∈ ys, ∀ file, x.request ≠ .readMagic file := fun x hx file =>
    (hfills.idle x hx file).1
  have hruns := hfills.runs.append xs []
  rw [List.append_nil] at hruns
  refine ⟨first, unread, _, hcourse.append hread hfills.marks, ?_⟩
  exact .generated failure (isMapped_append.mpr (.inl hmapped)) (by simp [← hfound]) hruns

theorem always_mapFile (hcount : Dataset.nodeCount size.toNat = .ok count) :
    Always (fun xs answer => Logs H c count place size options xs (failure? answer))
      (mapFile H place size c options) := by
  refine always_of_yields (Yields.mapFile hcount
    (fun opened xs => Opens place size options.force xs (.ok opened))
    (fun opened xs => Opens place size options.force xs (.ok opened))
    (fun opened _ xs => Maps place size options.force opened.2 xs) ?_ ?_ ?_ ?_ ?_)
  · exact (always_openFile options.force).after (fun _ _ h => h) fun _ _ h => h.logs
  · refine fun opened xs h => comes_said (r := .setLength _ _) (g := id) (fun a _ _ => ?_)
      fun a cause _ => Opens.logs ?_
    · exact h.append ⟨[], rfl, rfl⟩ (by simp) (by simp [IsMapped]) (by simp)
    · exact h.append ⟨[], rfl, rfl⟩ (by simp) (by simp [IsMapped]) (by simp)
  · refine fun opened xs h => comes_said (r := .map _) (g := id) (fun a length ha => ?_)
      fun a cause ha => Opens.logs ?_
    · obtain rfl : a = .ok length := ha
      exact h.maps length
    · obtain rfl : a = .error cause := ha
      exact h.append ⟨[], rfl, rfl⟩ (by simp) (by simp [IsMapped]) (by simp)
  · exact fun file _ xs h => asks_said fun _ => h.reused
  · intro file _ xs h
    have hbytes : count.toNat * Params.nodeBytes = size.toNat := by
      rw [(Dataset.nodeCount_eq_ok hcount).1, Nat.mul_comm]
      rfl
    have hfilled {ys : List Exchange} {failure : Option Error}
        (hfills : Fills H c count (count.toNat * Params.nodeBytes) options.parallel ys failure) :
        Logs H c count place size options (xs ++ ys) failure := h.filled (hbytes ▸ hfills)
    exact (always_fillFile _ _).after (fun _ _ => hfilled) fun _ _ => hfilled

end

/-! ### The log of a call -/

theorem major_of_level {event : Event} (h : event.level = .error ∨ event.level = .warn) :
    event.major = true := by
  cases event <;> simp_all [Event.level, Event.major]

section

variable {force : Bool} {first : Except Error Memo} {unread : Option IoError} {bytes : Nat}
  {inParallel : Bool} {ending : List Event} {failure : Option Error}

theorem level_of_mem_noteOf {event : Event} (h : event ∈ noteOf failure) :
    ∃ activity path cause, event = .failed activity path cause := by
  rcases failure with _ | (_ | ⟨activity, path, cause⟩ | _ | _)
  all_goals simp_all [noteOf]

theorem Course.mem_iff (h : Course place size force first unread ending xs failure) {event : Event}
    (hmajor : event.major = true) (hne : ∀ activity path cause, event ≠ .failed activity path cause) :
    event ∈ told xs ↔ (∃ cause, unread = some cause ∧ event = .unreadable place.path cause) ∨
      event ∈ staleNote place first ∨ event ∈ ending := by
  obtain ⟨events, htold, hmarks⟩ := h.marks
  have hnote : event ∉ noteOf failure := fun hmem => by
    obtain ⟨activity, path, cause, heq⟩ := level_of_mem_noteOf hmem
    exact hne activity path cause heq
  have hfilter : event ∈ events ↔ event ∈ events.filter Event.major := by simp [hmajor]
  rw [htold, List.mem_append, or_iff_left hnote, hfilter, hmarks]
  simp [eq_comm]

theorem level_of_mem_staleNote {event : Event} (h : event ∈ staleNote place first) :
    event.level = .warn := by
  unfold staleNote at h
  split at h <;> simp_all [Event.level]

theorem Ending.level (h : Ending H c count place first bytes inParallel xs ending failure)
    {event : Event} (hmem : event ∈ ending) : event.level = .info := by
  cases h <;> simp_all [Event.level]

theorem Course.errors (h : Course place size force first unread ending xs failure)
    (hending : Ending H c count place first bytes inParallel xs ending failure) :
    ∃ before, told xs = before ++ noteOf failure ∧
      ∀ e ∈ before, e.level = .error → ∃ cause, e = .unreadable place.path cause := by
  obtain ⟨events, htold, hmarks⟩ := h.marks
  refine ⟨events, htold, fun e he hlevel => ?_⟩
  have hmem : e ∈ events.filter Event.major :=
    List.mem_filter.mpr ⟨he, major_of_level (.inl hlevel)⟩
  rw [hmarks, List.mem_append, List.mem_append] at hmem
  rcases hmem with (hmem | hmem) | hmem
  · obtain ⟨cause, -, rfl⟩ := List.mem_map.mp hmem
    exact ⟨cause, rfl⟩
  · rw [level_of_mem_staleNote hmem] at hlevel
    contradiction
  · rw [hending.level hmem] at hlevel
    contradiction

theorem Course.unreadable_iff (h : Course place size force first unread ending xs failure)
    (hending : Ending H c count place first bytes inParallel xs ending failure) (cause : IoError) :
    .unreadable place.path cause ∈ told xs ↔ Unread place.path size cause xs := by
  rw [h.mem_iff rfl (by simp), ← h.reads.iff]
  constructor
  · rintro (⟨_, hcause, heq⟩ | hmem | hmem)
    · cases heq
      exact hcause
    · exact absurd (level_of_mem_staleNote hmem) nofun
    · exact absurd (hending.level hmem) nofun
  · exact fun hcause => .inl ⟨cause, hcause, rfl⟩

theorem Course.warnings (h : Course place size force first unread ending xs failure)
    (hending : Ending H c count place first bytes inParallel xs ending failure) :
    (told xs).filter (fun e => e.level = .warn) = staleNote place first := by
  obtain ⟨events, htold, hmarks⟩ := h.marks
  have hmajor : events.filter (fun e => e.level = .warn) =
      (events.filter Event.major).filter (fun e => e.level = .warn) := by
    rw [List.filter_filter]
    refine List.filter_congr fun e _ => ?_
    by_cases hlevel : e.level = .warn
    · simp [hlevel, major_of_level (.inr hlevel)]
    · simp [hlevel]
  have hstale : (staleNote place first).filter (fun e => e.level = .warn) = staleNote place first :=
    List.filter_eq_self.mpr fun e he => decide_eq_true (level_of_mem_staleNote he)
  have hend : ending.filter (fun e => e.level = .warn) = [] :=
    List.filter_eq_nil_iff.mpr fun e he => by simp [hending.level he]
  have hnote : (noteOf failure).filter (fun e => e.level = .warn) = [] := by
    refine List.filter_eq_nil_iff.mpr fun e he => ?_
    obtain ⟨activity, path, cause, rfl⟩ := level_of_mem_noteOf he
    simp [Event.level]
  rw [htold, List.filter_append, hmajor, hmarks, List.filter_append, List.filter_append, hstale, hend,
    hnote]
  simp [Event.level]

theorem Course.second_attempt {reason : Stale}
    (h : Course place size force (.ok (.stale reason)) unread ending xs failure) :
    ∃ before after, told xs = before ++ .stale place.path reason :: after ∧
      ((∃ more, after = .preparing place.path true :: more) ∨
        ∃ cause, after = [.failed .makingDirectory place.dir cause]) := by
  obtain ⟨before, again, rfl, hbegins⟩ := h.again reason rfl
  refine ⟨told before, told again, by simp, hbegins.imp_right ?_⟩
  rintro ⟨cause, hagain, -⟩
  exact ⟨cause, hagain⟩

theorem Course.reusing_iff (h : Course place size force first unread ending xs failure)
    (hending : Ending H c count place first bytes inParallel xs ending failure) (path : Path) :
    .reusing path ∈ told xs ↔ path = place.path ∧ failure = none ∧ IsFound first := by
  have hstale : Event.reusing path ∉ staleNote place first := fun hmem =>
    absurd (level_of_mem_staleNote hmem) nofun
  rw [h.mem_iff rfl (by simp), or_iff_right (by simp), or_iff_right hstale]
  cases hending with
  | unmapped e hunmapped => simp
  | reused hmapped hfound => simp [hfound]
  | generated _ hmapped hnot hruns => simp [hnot]

theorem Course.generating_iff (h : Course place size force first unread ending xs failure)
    (hending : Ending H c count place first bytes inParallel xs ending failure) (bytes' : Nat)
    (inParallel' : Bool) :
    .generating bytes' inParallel' ∈ told xs ↔
      bytes' = bytes ∧ inParallel' = inParallel ∧ IsMapped xs ∧ ¬IsFound first := by
  have hstale : Event.generating bytes' inParallel' ∉ staleNote place first := fun hmem =>
    absurd (level_of_mem_staleNote hmem) nofun
  rw [h.mem_iff rfl (by simp), or_iff_right (by simp), or_iff_right hstale]
  cases hending with
  | unmapped e hunmapped => simp [hunmapped]
  | reused hmapped hfound => simp [hfound]
  | generated _ hmapped hnot hruns => simp [hmapped, hnot]

theorem Course.runs (h : Course place size force first unread ending xs failure)
    (hending : Ending H c count place first bytes inParallel xs ending failure) {bytes' : Nat}
    {inParallel' : Bool} (hmem : .generating bytes' inParallel' ∈ told xs) :
    Runs H c count bytes' inParallel' xs := by
  obtain ⟨rfl, rfl, hmapped, hnot⟩ := (h.generating_iff hending _ _).mp hmem
  cases hending with
  | unmapped e hunmapped => contradiction
  | reused _ hfound => contradiction
  | generated _ _ _ hruns => exact hruns

end

theorem dialogue_inFile {light : LightClient} {options : FullOptions}
    {answer : Except FullError FullClient}
    (h : Dialogue (inFile H place size light options) xs answer) :
    ∃ answer', Dialogue (mapFile H place size light.cache options).run xs answer' ∧
      cause? answer = failure? answer' := by
  obtain ⟨answer', ys, zs, rfl, hmap, hend⟩ := Dialogue.of_bind h
  cases answer' <;>
  · cases hend
    exact ⟨_, by rwa [List.append_nil], rfl⟩

theorem not_firstAnswer_nil {force : Bool} {first : Except Error Memo} :
    ¬FirstAnswer place size force first [] := by
  rintro ⟨ys, zs, heq, hd⟩
  obtain ⟨rfl, -⟩ := List.append_eq_nil_iff.mp heq.symm
  cases hd

theorem exists_ok_iff {answer : Except FullError FullClient} :
    (∃ f, answer = .ok f) ↔ cause? answer = none := by
  cases answer <;> simp [cause?]

/-- The log of a call for a client with a dataset in a file tells what became of the file. A failure of
the file system that ends the call is the last event, and the only error but for the start of a file
that cannot be read. There is a warning, and only one, if the first attempt to open the file answers
that it is of no use, and then the second attempt follows. A file that is used as it is is noted where
the call succeeds with it, and the generation of a dataset where it is reached: where a file that was not
there, or was of no use, is mapped. The generation itself comes right after the note. -/
theorem inFile_log_told (H : Hasher) {σ : Type} {W : Serving Files σ} {place : Place} {size : UInt64}
    {light : LightClient} {options : FullOptions} {s s' : σ} {history : List Exchange}
    {answer : Except FullError FullClient}
    (h : Ends W.recorded (inFile H place size light options) (s, []) answer (s', history)) :
    let xs := history.reverse
    let events := told xs
    let first (memo : Memo) := FirstAnswer place size options.force (.ok memo) xs
    (∀ activity path cause, cause? answer = some (.io activity path cause) →
      ∃ before last, events = before ++ [last] ∧ last = .failed activity path cause ∧
        last.level = .error ∧ last.message = activity.text ∧
        last.fields = [("path", path.text), ("error", cause.message)] ∧
        ∀ e ∈ before, e.level = .error → ∃ cause, e = .unreadable place.path cause) ∧
    ((∀ activity path cause, cause? answer ≠ some (.io activity path cause)) →
      ∀ e ∈ events, e.level = .error → ∃ cause, e = .unreadable place.path cause) ∧
    (∀ cause, .unreadable place.path cause ∈ events ↔ Unread place.path size cause xs) ∧
    (∀ reason, first (.stale reason) →
      events.filter (fun e => e.level = .warn) = [.stale place.path reason] ∧
      ∃ before after, events = before ++ .stale place.path reason :: after ∧
        ((∃ more, after = .preparing place.path true :: more) ∨
          ∃ cause, after = [.failed .makingDirectory place.dir cause])) ∧
    ((∀ reason, ¬first (.stale reason)) → ∀ e ∈ events, e.level ≠ .warn) ∧
    (∀ path, .reusing path ∈ events ↔
      path = place.path ∧ (∃ f, answer = .ok f) ∧ ∃ file, first (.found file)) ∧
    (∀ bytes inParallel, .generating bytes inParallel ∈ events ↔
      bytes = size.toNat ∧ inParallel = options.parallel ∧ IsMapped xs ∧
        ∀ file, ¬first (.found file)) ∧
    (∀ bytes inParallel, .generating bytes inParallel ∈ events → ∃ count,
      Dataset.nodeCount size.toNat = .ok count ∧ Runs H light.cache count bytes inParallel xs) ∧
    ¬((∃ path, .reusing path ∈ events) ∧
      ∃ bytes inParallel, .generating bytes inParallel ∈ events) := by
  intro xs events first
  obtain ⟨xs', hd, hhistory⟩ := Dialogue.of_ends h
  have hxs : xs' = xs := by
    have hreverse : history = xs'.reverse ++ [] := hhistory
    simp [xs, hreverse]
  rw [hxs] at hd
  clear_value xs
  obtain ⟨answer', hmap, hcause⟩ := dialogue_inFile hd
  cases hcount : Dataset.nodeCount size.toNat with
  | error cause =>
    rw [inFile_of_error hcount] at hd
    cases hd
    have hevents : events = [] := rfl
    have hfirst (memo : Memo) : ¬first memo := not_firstAnswer_nil
    simp [hevents, hfirst, cause?, Unread, IsMapped]
  | ok count =>
    obtain ⟨first', unread, ending, htold, hending⟩ := always_mapFile hcount xs answer' hmap
    rw [← hcause] at htold hending
    have hfirst (memo : Memo) : first memo ↔ first' = .ok memo :=
      ⟨fun hmemo => htold.answered.unique hmemo, fun heq => by rw [heq] at htold; exact htold.answered⟩
    have hfound : IsFound first' ↔ ∃ file, first (.found file) := by simp [IsFound, hfirst]
    obtain ⟨before, hbefore, herrors⟩ := htold.errors hending
    refine ⟨?_, ?_, ?_, ?_, ?_, ?_, ?_, ?_, ?_⟩
    · intro activity path cause hio
      rw [hio] at hbefore
      exact ⟨before, _, hbefore, rfl, rfl, rfl, rfl, herrors⟩
    · intro hio e he
      have hnone : noteOf (cause? answer) = [] := by
        unfold noteOf
        split
        · rename_i activity path cause heq
          exact (hio activity path cause heq).elim
        · rfl
      rw [hnone, List.append_nil] at hbefore
      exact herrors e (hbefore ▸ he)
    · exact htold.unreadable_iff hending
    · intro reason hreason
      obtain rfl := (hfirst _).mp hreason
      exact ⟨htold.warnings hending, htold.second_attempt⟩
    · intro hnone e he hlevel
      have hmem : e ∈ events.filter fun e => e.level = .warn := by simp [he, hlevel]
      rw [htold.warnings hending] at hmem
      unfold staleNote at hmem
      split at hmem
      · exact hnone _ ((hfirst _).mpr rfl)
      · contradiction
    · intro path
      rw [htold.reusing_iff hending, exists_ok_iff, hfound]
    · intro bytes inParallel
      rw [htold.generating_iff hending, hfound, not_exists]
    · intro bytes inParallel hmem
      exact ⟨count, rfl, htold.runs hending hmem⟩
    · rintro ⟨⟨path, hreusing⟩, bytes, inParallel, hgenerating⟩
      have hnot := (htold.generating_iff hending _ _).mp hgenerating
      exact hnot.2.2.2 ((htold.reusing_iff hending _).mp hreusing).2.2

/-- A page is found where two are looked for, and the caller stops the generation of these. -/
def staleRun : Except FullError FullClient × Surroundings × List Exchange :=
  (inFile .keccak pagePlace 256 pageLight ⟨none, false, false⟩).run
    (Disk.recording (Surroundings.serveFiles fun _ => .stop)) (⟨pageDisk, #[], #[]⟩, [])

theorem ends_staleRun :
    Ends Disk.Serves.recorded (inFile .keccak pagePlace 256 pageLight ⟨none, false, false⟩)
      (pageDisk, []) staleRun.1 (staleRun.2.1.disk, staleRun.2.2) := by
  unfold staleRun
  exact Disk.ends_recording_serveFiles _ _ (⟨pageDisk, #[], #[]⟩, [])

theorem told_staleRun :
    told staleRun.2.2.reverse = [.preparing pagePlace.path false,
      .stale pagePlace.path (.size 256 128), .preparing pagePlace.path true, .generating 256 false,
      .progress 0, .cancelledAt 0] := by
  decide +kernel

/-- What the log tells of that call. -/
theorem inFile_log_told_page :
    Ends Disk.Serves.recorded (inFile .keccak pagePlace 256 pageLight ⟨none, false, false⟩)
      (pageDisk, []) staleRun.1 (staleRun.2.1.disk, staleRun.2.2) ∧
    (∃ reason, FirstAnswer pagePlace 256 false (.ok (.stale reason)) staleRun.2.2.reverse) ∧
    IsMapped staleRun.2.2.reverse ∧
    ∀ cause, ¬Unread pagePlace.path 256 cause staleRun.2.2.reverse := by
  obtain ⟨-, -, hunread, -, hwarn, -, hgenerating, -⟩ := inFile_log_told .keccak ends_staleRun
  simp only [told_staleRun] at hunread hwarn hgenerating
  refine ⟨ends_staleRun, ?_, ?_, ?_⟩
  · by_contra hnone
    exact hwarn (not_exists.mp hnone) (.stale pagePlace.path (.size 256 128)) (by simp) rfl
  · exact ((hgenerating 256 false).mp (by simp)).2.2.1
  · intro cause h
    exact absurd ((hunread cause).mpr h) (by simp)

end FullClient

end ProofOfWork
