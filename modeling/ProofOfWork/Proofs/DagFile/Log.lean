import ProofOfWork.Proofs.Client.Dialogue

/-! What is said, and noted in the log, when a DAG file is opened. -/

namespace ProofOfWork.DagFile

open Files

variable {place : Place} {path : Path} {size : UInt64} {xs ys : List Exchange}

theorem calmly_createSized :
    Always (fun xs answer => Calmly xs (failure? answer)) (createSized path size) := by
  refine always_of_yields (Yields.createSized (fun _ xs => Calmly xs none)
    (fun _ xs => Calmly xs none) (fun _ xs => Calmly xs none) ?_ ?_ ?_ ?_)
  · exact comes_calmly (r := .create _) (g := id) trivial fun _ _ => calmly_nil.append
  · exact fun _ _ h => comes_calmly (r := .seek _ _) (g := id) trivial fun _ _ => h.append
  · exact fun _ _ h => comes_calmly (r := .write _ _ _) (g := id) trivial fun _ _ => h.append
  · exact fun _ _ h => comes_calmly (r := .flush _) (g := id) trivial fun _ _ => h.append

/-- The file at a path is open and has the right size, but its start could not be read. -/
def Unread (path : Path) (size : UInt64) (cause : IoError) (xs : List Exchange) : Prop :=
  ∃ file found, ⟨.openExisting path, .ok file⟩ ∈ xs ∧ ⟨.size file, .ok found⟩ ∈ xs ∧
    found.toNat = size.toNat + 8 ∧ ⟨.readMagic file, .error cause⟩ ∈ xs

/-- The one failure to read the start of a file, if there was one. -/
structure Reads (path : Path) (size : UInt64) (unread : Option IoError) (xs : List Exchange) :
    Prop where
  only : ∀ file cause, ⟨.readMagic file, .error cause⟩ ∈ xs → unread = some cause
  found : ∀ cause, unread = some cause → Unread path size cause xs

theorem Reads.iff {unread : Option IoError} (h : Reads path size unread xs) (cause : IoError) :
    unread = some cause ↔ Unread path size cause xs := by
  refine ⟨h.found cause, ?_⟩
  rintro ⟨file, _, -, -, -, hread⟩
  exact h.only file cause hread

theorem Reads.append {unread : Option IoError} (h : Reads path size unread xs)
    (hys : ∀ x ∈ ys, ∀ file, x.request ≠ .readMagic file) : Reads path size unread (xs ++ ys) := by
  constructor
  · intro file cause hmem
    refine h.only file cause ((List.mem_append.mp hmem).resolve_right fun hmem => ?_)
    exact hys _ hmem file rfl
  · intro cause hcause
    obtain ⟨file, found, hopen, hsize, hfound, hread⟩ := h.found cause hcause
    exact ⟨file, found, List.mem_append_left _ hopen, List.mem_append_left _ hsize, hfound,
      List.mem_append_left _ hread⟩

/-- What is said in an attempt to open the file. -/
structure Prepares (path : Path) (size : UInt64) (unread : Option IoError) (xs : List Exchange)
    (failure : Option Error) : Prop where
  marks : Marks (unread.toList.map (.unreadable path)) xs failure
  reads : Reads path size unread xs
  unmapped : ¬IsMapped xs

variable {unread : Option IoError} {failure : Option Error}

theorem prepares_of_calmly (h : Calmly xs failure) : Prepares path size none xs failure :=
  ⟨h.marks, ⟨fun file _ hmem => ((h.idle _ hmem file).1 rfl).elim, nofun⟩, not_isMapped_of_idle h.idle⟩

theorem prepares_read (h : Calmly xs none) (file : Handle) (bytes : ByteVector 8) :
    Prepares path size none (xs ++ [⟨.readMagic file, .ok bytes⟩]) none := by
  have hbefore : Prepares path size none xs none := prepares_of_calmly h
  refine ⟨hbefore.marks.append ⟨[], rfl, rfl⟩, ⟨fun file' cause hmem => ?_, nofun⟩, ?_⟩
  · exact hbefore.reads.only file' cause (by simpa using hmem)
  · exact isMapped_append.not.mpr (not_or.mpr ⟨hbefore.unmapped, by simp [IsMapped]⟩)

theorem prepares_unread (h : Calmly xs none) {file : Handle} {found : UInt64} (cause : IoError)
    (hopen : ⟨.openExisting path, .ok file⟩ ∈ xs) (hsize : ⟨.size file, .ok found⟩ ∈ xs)
    (hfound : found.toNat = size.toNat + 8) :
    Prepares path size (some cause) (xs ++ [⟨.readMagic file, .error cause⟩] ++
      [⟨.caller (.log (.unreadable path cause)), ()⟩]) none := by
  have hbefore : Prepares path size none xs none := prepares_of_calmly h
  rw [List.append_assoc]
  refine ⟨hbefore.marks.append ⟨[.unreadable path cause], rfl, rfl⟩, ⟨?_, ?_⟩, ?_⟩
  · intro file' cause' hmem
    rcases List.mem_append.mp hmem with hmem | hmem
    · exact absurd (hbefore.reads.only file' cause' hmem) nofun
    · simp_all
  · rintro _ heq
    cases heq
    exact ⟨file, found, List.mem_append_left _ hopen, List.mem_append_left _ hsize, hfound, by simp⟩
  · exact isMapped_append.not.mpr (not_or.mpr ⟨hbefore.unmapped, by simp [IsMapped]⟩)

/-- What is said after a file is opened, up to the judgement of it. -/
theorem yields_probe {file : Handle} (h : Calmly xs none)
    (hopen : ⟨.openExisting path, .ok file⟩ ∈ xs) :
    Yields (hearing fun e xs => ∃ unread, Prepares path size unread xs (some e))
      (fun _ xs => ∃ unread, Prepares path size unread xs none) (probe file path size) xs := by
  refine Yields.probe (fun found ys => Calmly ys none ∧ ⟨.openExisting path, .ok file⟩ ∈ ys ∧
    ⟨.size file, .ok found⟩ ∈ ys) (fun _ ys => ∃ unread, Prepares path size unread ys none)
    ?_ ?_ ?_ ?_ ?_
  · refine comes_said (r := .size file) (g := id) (fun a found ha => ?_) fun a cause _ => ?_
    · obtain rfl : a = .ok found := ha
      exact ⟨h.append (calmly_nil.cons _ trivial), List.mem_append_left _ hopen, by simp⟩
    · exact ⟨none, prepares_of_calmly (h.append (calmly_failed.cons a trivial))⟩
  · exact fun _ _ h _ => ⟨none, prepares_of_calmly h.1⟩
  · rintro found ys ⟨h, hopen, hsize⟩ hstored
    refine asks_said fun answer => ?_
    -- only a start that cannot be read is noted, and the file is judged in both cases
    cases answer with
    | ok bytes => exact ⟨none, prepares_read h file bytes⟩
    | error cause =>
      exact asks_said fun _ => ⟨_, prepares_unread h cause hopen hsize (storedSize_eq hstored)⟩
  · exact fun _ _ h _ => h
  · exact fun _ _ h _ => h

/-- How the log of an attempt to open the file begins. -/
def Begins (place : Place) (force : Bool) (xs : List Exchange) (failure : Option Error) : Prop :=
  (∃ more, told xs = .preparing place.path force :: more) ∨
    ∃ cause, told xs = [.failed .makingDirectory place.dir cause] ∧
      failure = some (.io .makingDirectory place.dir cause)

theorem always_prepare_forced :
    Always (fun xs answer => Calmly xs (failure? answer) ∧ Begins place true xs (failure? answer))
      (prepare place size true) := by
  refine always_of_yields (Yields.prepare
    (fun xs => Calmly xs none ∧ told xs = [.preparing place.path true]) ?_ ?_ nofun)
  · refine comes_said (r := .makeDirectory _) (g := id) (fun a _ _ => asks_said fun _ => ?_)
      fun a cause _ => ?_
    · exact ⟨(calmly_nil.cons (r := .caller (.log (.preparing _ _))) () rfl).cons a trivial, rfl⟩
    · exact ⟨calmly_failed.cons a trivial, .inr ⟨cause, rfl, rfl⟩⟩
  · rintro xs ⟨hcalm, htold⟩ -
    have hbegins (ys : List Exchange) (failure : Option Error) :
        Begins place true (xs ++ ys) failure := .inl ⟨told ys, by simp [htold]⟩
    exact calmly_createSized.after (fun ys _ h => ⟨hcalm.append h, hbegins ys _⟩)
      fun ys _ h => ⟨hcalm.append h, hbegins ys _⟩

theorem always_prepare (force : Bool) :
    Always (fun xs answer => ∃ unread, Prepares place.path size unread xs (failure? answer))
      (prepare place size force) := by
  have hcreate (xs : List Exchange) (h : Calmly xs none) :
      Yields (hearing fun e xs => ∃ unread, Prepares place.path size unread xs (some e))
        (fun _ xs => ∃ unread, Prepares place.path size unread xs none)
        (createSized place.path size) xs :=
    calmly_createSized.after (fun _ _ hcalm => ⟨none, prepares_of_calmly (h.append hcalm)⟩)
      fun _ _ hcalm => ⟨none, prepares_of_calmly (h.append hcalm)⟩
  refine always_of_yields (Yields.prepare (fun xs => Calmly xs none) ?_ ?_ ?_)
  · refine comes_said (r := .makeDirectory _) (g := id) (fun a _ _ => asks_said fun _ => ?_)
      fun a _ _ => ?_
    · exact (calmly_nil.cons (r := .caller (.log (.preparing _ _))) () rfl).cons a trivial
    · exact ⟨none, prepares_of_calmly (calmly_failed.cons a trivial)⟩
  · exact fun xs h _ => hcreate xs h
  · rintro xs h -
    refine asks_said fun answer => ?_
    have hopened := h.append (calmly_nil.cons answer trivial)
    cases answer with
    | ok file => exact yields_probe hopened (by simp)
    | error cause =>
      refine asks_said fun _ => hcreate _ ?_
      exact hopened.append (calmly_nil.cons (r := .caller (.log (.noExisting _ _))) () rfl)

/-- What the first attempt of a call to open the file answered. -/
def FirstAnswer (place : Place) (size : UInt64) (force : Bool) (first : Except Error Memo)
    (xs : List Exchange) : Prop :=
  ∃ ys zs, xs = ys ++ zs ∧ Dialogue (prepare place size force).run ys first

theorem FirstAnswer.append {force : Bool} {first : Except Error Memo}
    (h : FirstAnswer place size force first xs) (ys : List Exchange) :
    FirstAnswer place size force first (xs ++ ys) := by
  obtain ⟨zs, zs', rfl, hd⟩ := h
  exact ⟨zs, zs' ++ ys, List.append_assoc .., hd⟩

theorem FirstAnswer.unique {force : Bool} {first first' : Except Error Memo}
    (h : FirstAnswer place size force first xs) (h' : FirstAnswer place size force first' xs) :
    first = first' := by
  obtain ⟨ys, zs, rfl, hd⟩ := h
  obtain ⟨ys', zs', heq, hd'⟩ := h'
  exact (hd.unique hd' heq).2

/-- The note of a file that is of no use. -/
def staleNote (place : Place) : Except Error Memo → List Event
  | .ok (.stale reason) => [.stale place.path reason]
  | _ => []

end ProofOfWork.DagFile
