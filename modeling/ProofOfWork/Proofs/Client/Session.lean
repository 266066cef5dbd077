import ProofOfWork.Proofs.Client.File

/-! Sessions: calls of the library for DAG files, begun in any order and under way at the same time if
their files are at different places, on a file system that may fail, and with calls that are cut off. -/

namespace ProofOfWork.DagFile

open Program

/-- A call of the library for a DAG file. -/
inductive Call
  | build (place : Place) (size : UInt64) (light : LightClient) (options : FullOptions)
  | prepare (place : Place) (size : UInt64) (force : Bool)

namespace Call

/-- What a call answers. -/
inductive Answer
  | client (answer : Except FullError FullClient)
  | memo (answer : Except Error Memo)

def place : Call → Place
  | build place .. => place
  | prepare place .. => place

/-- Where the file of the call is. -/
def location (c : Call) : Location := c.place.path.location

/-- The cache that is handed to the call. -/
def handed : Call → Option Cache
  | build _ _ light _ => some light.cache
  | prepare .. => none

/-- The file that a call has found to be of use. -/
def Answer.found? : Answer → Option Handle
  | .memo (.ok (.found file)) => some file
  | _ => none

/-- The client that a call returns. -/
def Answer.client? : Answer → Option FullClient
  | .client (.ok f) => some f
  | _ => none

theorem Answer.eq_found {a : Answer} (h : a.found?.isSome) : ∃ file, a = .memo (.ok (.found file)) := by
  unfold found? at h
  split at h
  · exact ⟨_, rfl⟩
  · contradiction

theorem Answer.eq_client {a : Answer} (h : a.client?.isSome) : ∃ f, a = .client (.ok f) := by
  unfold client? at h
  split at h
  · exact ⟨_, rfl⟩
  · contradiction

def program (H : Hasher) : Call → Program Files Answer
  | build place size light options => do
    return .client (← FullClient.inFile H place size light options)
  | prepare place size force => do return .memo (← (DagFile.prepare place size force).run)

end Call

/-- A call that is under way, and what is left of it. -/
structure Running where
  call : Call
  rest : Program Files Call.Answer

/-- The files with the ledger, the calls that are under way, and the clients that are in use with the
calls that returned them. -/
structure Session where
  files : Disk × Ledger
  running : List Running
  opened : List (Call × FullClient)

variable (H : Hasher) (allowed : Set Call) (start : Disk)

/-- One step of a session. -/
inductive Session.Step : Session → Session → Prop
  /-- A call begins. Its file is in use by no other. -/
  | begins {s : Session} (c : Call) : c ∈ allowed → (∀ x ∈ s.running, x.call.location ≠ c.location) →
      (∀ x ∈ s.opened, x.1.location ≠ c.location) →
      Step s { s with running := ⟨c, c.program H⟩ :: s.running }
  /-- A request is served. -/
  | served {s : Session} {c : Call} {r : Files.Request} {next : Files.Answer r → Program Files Call.Answer}
      {others : List Running} (a : Files.Answer r) {files : Disk × Ledger} :
      s.running.Perm (⟨c, .ask r next⟩ :: others) → Disk.Notes c.handed r s.files a files →
      Step s { s with files, running := ⟨c, next a⟩ :: others }
  /-- A call is cut off while a request is served. -/
  | cut {s : Session} {c : Call} {r : Files.Request} {next : Files.Answer r → Program Files Call.Answer}
      {others : List Running} {files : Disk × Ledger} :
      s.running.Perm (⟨c, .ask r next⟩ :: others) → Disk.CutBeside r s.files files →
      Step s { s with files, running := others }
  /-- A call ends, or is cut off between two requests. -/
  | ends {s : Session} {x : Running} {others : List Running} : s.running.Perm (x :: others) →
      Step s { s with running := others }
  /-- A call returns a client, which is then in use. -/
  | returns {s : Session} {c : Call} {f : FullClient} {others : List Running} :
      s.running.Perm (⟨c, .done (.client (.ok f))⟩ :: others) →
      Step s { s with running := others, opened := (c, f) :: s.opened }
  /-- A client is closed. -/
  | closes {s : Session} {x : Call × FullClient} {others : List (Call × FullClient)} :
      s.opened.Perm (x :: others) → Step s { s with opened := others }

/-- The sessions that begin on the disk `start`. -/
inductive Session.Reachable : Session → Prop
  | start : Reachable ⟨(start, fun _ => none), [], []⟩
  | step {s s' : Session} : Reachable s → Step H allowed s s' → Reachable s'

/-- A call on a file system that carries out each request goes on to its answer. -/
theorem Session.Reachable.run {H : Hasher} {allowed : Set Call} {start : Disk} {c : Call}
    {p : Program Files Call.Answer} {others : List Running} {opened : List (Call × FullClient)}
    (callback : Array UInt32 → Verdict) (s : Surroundings) (l : Ledger)
    (h : Reachable H allowed start ⟨(s.disk, l), ⟨c, p⟩ :: others, opened⟩) :
    ∃ l', Reachable H allowed start
      ⟨((p.run (Surroundings.serveFiles callback) s).2.disk, l'),
        ⟨c, .done (p.run (Surroundings.serveFiles callback) s).1⟩ :: others, opened⟩ := by
  induction p generalizing s l with
  | done a => exact ⟨l, h⟩
  | ask r next ih =>
    have hdoes := Disk.does_serveFiles callback r s
    exact ih _ _ _ (h.step (.served _ (.refl _) ⟨.inl hdoes, rfl⟩))

/-- A call that is begun where no other is under way goes on to its answer. -/
theorem Session.Reachable.answers {H : Hasher} {allowed : Set Call} {start : Disk} {l : Ledger}
    (s : Surroundings) (h : Reachable H allowed start ⟨(s.disk, l), [], []⟩)
    (callback : Array UInt32 → Verdict) {c : Call} (hc : c ∈ allowed) :
    ∃ l', Reachable H allowed start
      ⟨(((c.program H).run (Surroundings.serveFiles callback) s).2.disk, l'),
        [⟨c, .done ((c.program H).run (Surroundings.serveFiles callback) s).1⟩], []⟩ :=
  (h.step (.begins c hc (List.forall_mem_nil _) (List.forall_mem_nil _))).run callback s l

/-- A call that returns a client where no other is under way. -/
theorem Session.Reachable.opens {H : Hasher} {allowed : Set Call} {start : Disk}
    {files : Disk × Ledger} (h : Reachable H allowed start ⟨files, [], []⟩) {s : Surroundings}
    (hs : files.1 = s.disk) {callback : Array UInt32 → Verdict} {c : Call} (hc : c ∈ allowed)
    {x : Call.Answer × Surroundings} (hx : x = (c.program H).run (Surroundings.serveFiles callback) s)
    {f : FullClient} (hf : x.1 = .client (.ok f)) :
    ∃ files', files'.1 = x.2.disk ∧ Reachable H allowed start ⟨files', [], [(c, f)]⟩ := by
  obtain ⟨d, l⟩ := files
  obtain rfl : d = s.disk := hs
  obtain ⟨l', h'⟩ := h.answers s callback hc
  rw [← hx, hf] at h'
  exact ⟨(x.2.disk, l'), rfl, h'.step (.returns (.refl _))⟩

/-! ### What is true of a call -/

/-- The places of the files of calls. -/
def locations : Set Location := fun place => ∃ c ∈ allowed, c.location = place

/-- The caches that are handed to calls belong at the places of their files. -/
def Belong (own : Location → Cache → Prop) : Prop :=
  ∀ c ∈ allowed, ∀ k, c.handed = some k → own c.location k

variable {allowed start} {own : Location → Cache → Prop} (hown : Belong allowed own)

/-- A call at work on its file. -/
def Call.work (c : Call) (hc : c ∈ allowed) : Work where
  hasher := H
  places := locations allowed
  own
  place := c.location
  handed := c.handed
  mem_places := ⟨c, hc, rfl⟩
  own_handed := hown c hc

/-- What is known of the file of a call by its answer. -/
def Work.Delivers (w : Work) : Call → Call.Answer → Disk × Ledger → Prop
  | .build place size light _, .client (.ok f), s => f.light = light ∧ f.size = size ∧
      ∃ file, f.storage = .mapped file place.path (size.toNat + 8) ∧ w.Ready file size s
  | .build .., .client (.error _), _ => True
  | .prepare _ size _, .memo (.ok (.found file)), s => w.Ready file size s
  | .prepare .., .memo _, _ => True
  | _, _, _ => False

theorem Work.Delivers.waits {w : Work} {c : Call} {a : Call.Answer} {s s' : Disk × Ledger}
    (h : w.Delivers c a s) (hw : w.Waits s s') : w.Delivers c a s' := by
  unfold Work.Delivers at h ⊢
  split at h
  · obtain ⟨hlight, hsize, file, hstorage, hready⟩ := h
    exact ⟨hlight, hsize, file, hstorage, hready.waits hw⟩
  · trivial
  · exact h.waits hw
  · trivial
  · exact h

theorem keeps_program {c : Call} (hc : c ∈ allowed) {s : Disk × Ledger}
    (h : Trusted H (locations allowed) own s) :
    Keeps (c.work H hown hc).Beside (c.work H hown hc).Safe
      (fun a s' => Trusted H (locations allowed) own s' ∧ (c.work H hown hc).Delivers c a s')
      (c.program H) s := by
  cases c with
  | build place size light options =>
    refine (Work.keeps_inFile rfl h light rfl options).bind ?_
    rintro answer s' ⟨h', hanswer⟩
    cases answer with
    | ok f => exact ⟨h', hanswer f rfl⟩
    | error e => exact ⟨h', trivial⟩
  | prepare place size force =>
    refine Keeps.bind (Work.attempts_prepare rfl h force) fun answer s' hanswer => ?_
    cases answer with
    | ok memo =>
      refine ⟨Work.Means.trusted hanswer, ?_⟩
      cases memo with
      | found file => exact hanswer
      | created file => trivial
      | stale reason => trivial
    | error e => exact ⟨hanswer, trivial⟩

/-! ### What is true of a session -/

/-- A call goes on to what it delivers, whatever others do before its next step. -/
def Running.Continues (x : Running) (files : Disk × Ledger) : Prop :=
  ∃ hc : x.call ∈ allowed, ∀ s', (x.call.work H hown hc).Waits files s' →
    Keeps (x.call.work H hown hc).Beside (x.call.work H hown hc).Safe
      (fun a s' => Trusted H (locations allowed) own s' ∧ (x.call.work H hown hc).Delivers x.call a s')
      x.rest s'

/-- A client is what its call delivered. -/
def Delivered (x : Call × FullClient) (files : Disk × Ledger) : Prop :=
  ∃ hc : x.1 ∈ allowed, (x.1.work H hown hc).Delivers x.1 (.client (.ok x.2)) files

/-- What is true in every state of a session. -/
structure Session.Orderly (s : Session) : Prop where
  trusted : Trusted H (locations allowed) own s.files
  running : ∀ x ∈ s.running, x.Continues H hown s.files
  opened : ∀ x ∈ s.opened, Delivered H hown x s.files
  apart : (s.running.map (·.call.location) ++ s.opened.map (·.1.location)).Nodup

variable {H hown} {files files' : Disk × Ledger} {place : Location}

theorem waits_of_moves {c : Call} (hc : c ∈ allowed)
    (hmoves : Moves H (locations allowed) own place files files') (hne : c.location ≠ place) :
    (c.work H hown hc).Waits files files' :=
  ⟨hmoves.trusted, hmoves.elsewhere c.location ⟨c, hc, rfl⟩ hne⟩

theorem Running.Continues.moves {x : Running} (h : x.Continues H hown files)
    (hmoves : Moves H (locations allowed) own place files files') (hne : x.call.location ≠ place) :
    x.Continues H hown files' := by
  obtain ⟨hc, hkeeps⟩ := h
  exact ⟨hc, fun s' hw => hkeeps s' ((waits_of_moves hc hmoves hne).trans hw)⟩

theorem Delivered.moves {x : Call × FullClient} (h : Delivered H hown x files)
    (hmoves : Moves H (locations allowed) own place files files') (hne : x.1.location ≠ place) :
    Delivered H hown x files' := by
  obtain ⟨hc, hdelivers⟩ := h
  exact ⟨hc, hdelivers.waits (waits_of_moves hc hmoves hne)⟩

theorem Session.Orderly.perm {s : Session} (h : s.Orderly H hown) {running : List Running}
    (hp : s.running.Perm running) : ({ s with running } : Session).Orderly H hown where
  trusted := h.trusted
  running := fun x hx => h.running x (hp.mem_iff.mpr hx)
  opened := h.opened
  apart := ((hp.map _).append_right _).nodup h.apart

/-- After a step of the first call, all others go on as before. -/
theorem Session.Orderly.moves {s : Session} {x : Running} {others : List Running}
    (h : s.Orderly H hown) (hrunning : s.running = x :: others)
    (hmoves : Moves H (locations allowed) own x.call.location s.files files') :
    ({ s with files := files', running := others } : Session).Orderly H hown := by
  have hapart := h.apart
  rw [hrunning, List.map_cons, List.cons_append, List.nodup_cons] at hapart
  obtain ⟨hnot, hnodup⟩ := hapart
  refine ⟨hmoves.trusted, fun y hy => ?_, fun y hy => ?_, hnodup⟩
  · refine (h.running y (hrunning ▸ List.mem_cons_of_mem _ hy)).moves hmoves fun heq => hnot ?_
    exact List.mem_append_left _ (List.mem_map.mpr ⟨y, hy, heq⟩)
  · refine (h.opened y hy).moves hmoves fun heq => hnot ?_
    exact List.mem_append_right _ (List.mem_map.mpr ⟨y, hy, heq⟩)

theorem Session.Orderly.begins {s : Session} (h : s.Orderly H hown) {c : Call} (hc : c ∈ allowed)
    (hrunning : ∀ x ∈ s.running, x.call.location ≠ c.location)
    (hopened : ∀ x ∈ s.opened, x.1.location ≠ c.location) :
    ({ s with running := ⟨c, c.program H⟩ :: s.running } : Session).Orderly H hown := by
  refine ⟨h.trusted, List.forall_mem_cons.mpr ⟨⟨hc, fun s' hw => ?_⟩, h.running⟩, h.opened, ?_⟩
  · exact keeps_program H hown hc hw.trusted
  · rw [List.map_cons, List.cons_append, List.nodup_cons]
    refine ⟨fun hmem => ?_, h.apart⟩
    rcases List.mem_append.mp hmem with hmem | hmem
    · obtain ⟨x, hx, heq⟩ := List.mem_map.mp hmem
      exact hrunning x hx heq
    · obtain ⟨x, hx, heq⟩ := List.mem_map.mp hmem
      exact hopened x hx heq

section

variable {s : Session} {c : Call} {others : List Running}

theorem Session.Orderly.head {p : Program Files Call.Answer} (h : s.Orderly H hown)
    (hrunning : s.running = ⟨c, p⟩ :: others) :
    ∃ hc : c ∈ allowed, Keeps (c.work H hown hc).Beside (c.work H hown hc).Safe
      (fun a s' => Trusted H (locations allowed) own s' ∧ (c.work H hown hc).Delivers c a s')
      p s.files := by
  obtain ⟨hc, hkeeps⟩ := h.running ⟨c, p⟩ (hrunning ▸ List.mem_cons_self)
  exact ⟨hc, hkeeps s.files (.refl h.trusted)⟩

theorem Session.Orderly.served {r : Files.Request} {next : Files.Answer r → Program Files Call.Answer}
    {a : Files.Answer r} (h : s.Orderly H hown) (hrunning : s.running = ⟨c, .ask r next⟩ :: others)
    (hnotes : Disk.Notes c.handed r s.files a files') :
    ({ s with files := files', running := ⟨c, next a⟩ :: others } : Session).Orderly H hown := by
  obtain ⟨hc, hsafe, hnext⟩ := h.head hrunning
  have h' := h.moves hrunning (hsafe.served a files' hnotes)
  have hcontinues : (⟨c, next a⟩ : Running).Continues H hown files' :=
    ⟨hc, fun s' hw => hnext a s' ⟨files', hnotes, hw⟩⟩
  have hapart := h.apart
  rw [hrunning] at hapart
  exact ⟨h'.trusted, List.forall_mem_cons.mpr ⟨hcontinues, h'.running⟩, h'.opened, hapart⟩

theorem Session.Orderly.cut {r : Files.Request} {next : Files.Answer r → Program Files Call.Answer}
    (h : s.Orderly H hown) (hrunning : s.running = ⟨c, .ask r next⟩ :: others)
    (hcut : Disk.CutBeside r s.files files') :
    ({ s with files := files', running := others } : Session).Orderly H hown := by
  obtain ⟨hc, hsafe, -⟩ := h.head hrunning
  exact h.moves hrunning (hsafe.cut files' hcut)

theorem Session.Orderly.returns {f : FullClient} (h : s.Orderly H hown)
    (hrunning : s.running = ⟨c, .done (.client (.ok f))⟩ :: others) :
    ({ s with running := others, opened := (c, f) :: s.opened } : Session).Orderly H hown := by
  obtain ⟨hc, -, hdelivers⟩ := h.head hrunning
  have h' := h.moves hrunning h.trusted.moves_refl
  have hapart := h.apart
  rw [hrunning] at hapart
  exact ⟨h'.trusted, h'.running, List.forall_mem_cons.mpr ⟨⟨hc, hdelivers⟩, h'.opened⟩,
    List.perm_middle.symm.nodup hapart⟩

theorem Session.Orderly.closes {x : Call × FullClient} {opened : List (Call × FullClient)}
    (h : s.Orderly H hown) (hp : s.opened.Perm (x :: opened)) :
    ({ s with opened } : Session).Orderly H hown := by
  refine ⟨h.trusted, h.running, fun y hy => ?_, ?_⟩
  · exact h.opened y (hp.mem_iff.mpr (List.mem_cons_of_mem _ hy))
  · have hapart := ((hp.map (·.1.location)).append_left _).nodup h.apart
    exact hapart.sublist (.append (.refl _) (List.sublist_cons_self _ _))

end

theorem Session.Orderly.step {s s' : Session} (h : s.Orderly H hown) (hstep : Step H allowed s s') :
    s'.Orderly H hown := by
  cases hstep with
  | begins c hc hrunning hopened => exact h.begins hc hrunning hopened
  | served a hp hnotes => exact (h.perm hp).served rfl hnotes
  | cut hp hcut => exact (h.perm hp).cut rfl hcut
  | ends hp => exact (h.perm hp).moves rfl h.trusted.moves_refl
  | returns hp => exact (h.perm hp).returns rfl
  | closes hp => exact h.closes hp

variable (hown) in
theorem Session.Reachable.orderly (hstart : ∀ c ∈ allowed, ∀ id, start.lookup c.location ≠ some (.file id))
    {s : Session} (h : Reachable H allowed start s) : s.Orderly H hown := by
  induction h with
  | start =>
    have htrusted : Trusted H (locations allowed) own (start, fun _ => none) := by
      refine trusted_of_no_file ?_
      rintro place ⟨c, hc, rfl⟩ id
      exact hstart c hc id
    exact ⟨htrusted, List.forall_mem_nil _, List.forall_mem_nil _, .nil⟩
  | step _ hstep ih => exact ih.step hstep

/-- A file that is marked holds the whole dataset for the cache of the call that last created it,
whatever calls were begun before, and wherever they failed or were cut off. A file is therefore found
to be of use only if its dataset is whole. -/
theorem marked_files_complete (H : Hasher) {allowed : Set Call} {start : Disk}
    (hstart : ∀ c ∈ allowed, ∀ id, start.lookup c.location ≠ some (.file id)) {s : Session}
    (h : Session.Reachable H allowed start s) :
    (∀ c ∈ allowed, ∀ id, s.files.1.lookup c.location = some (.file id) →
      Marked (s.files.1.file id) → Complete H (s.files.2 id) (s.files.1.file id)) ∧
    ∀ place size force file,
      ⟨.prepare place size force, .done (.memo (.ok (.found file)))⟩ ∈ s.running →
      ∃ id, file.referent = .file id ∧ s.files.1.lookup place.path.location = some (.file id) ∧
        (s.files.1.file id).size = size.toNat + 8 ∧ Marked (s.files.1.file id) ∧
        Complete H (s.files.2 id) (s.files.1.file id) := by
  have hown : Belong allowed fun _ _ => True := fun _ _ _ _ => trivial
  have horderly := h.orderly hown hstart
  constructor
  · intro c hc id hid
    exact (horderly.trusted.sound c.location ⟨c, hc, rfl⟩ id hid).complete
  · intro place size force file hmem
    obtain ⟨hc, hkeeps⟩ := horderly.running _ hmem
    obtain ⟨-, id, c, cache, hhas, hmarked, hsize⟩ := hkeeps s.files (.refl horderly.trusted)
    have hcomplete := hhas.sound.complete hmarked
    obtain ⟨-, hreferent, hlookup, rfl, rfl⟩ := hhas
    exact ⟨id, hreferent, hlookup, hsize, hmarked, hcomplete⟩

theorem one_lt_size : 0 + 1 < UInt32.size := by decide

/-- A call that generates a dataset of one page. -/
def pageBuild : Call :=
  .build ⟨Path.join, ⟨"/dags"⟩, 1, .zero⟩ 128 ⟨.ofSeed .keccak 0 one_lt_size .zero, .zero, none⟩
    ⟨none, false, false⟩

/-- A call that finds the file of this dataset. -/
def pageFind : Call := .prepare ⟨Path.join, ⟨"/dags"⟩, 1, .zero⟩ 128 false

/-- The file that one call has generated is found by the next one, and is complete. -/
theorem marked_files_complete_page :
    (∀ c ∈ Set.univ, ∀ id, (Disk.scratch "dags").lookup (Call.location c) ≠ some (.file id)) ∧
    ∃ files file, Session.Reachable .keccak Set.univ (Disk.scratch "dags")
        ⟨files, [⟨pageFind, .done (.memo (.ok (.found file)))⟩], []⟩ ∧
      ∃ id, file.referent = .file id ∧ Complete .keccak (files.2 id) (files.1.file id) := by
  have hstart : ∀ c ∈ Set.univ, ∀ id,
      (Disk.scratch "dags").lookup (Call.location c) ≠ some (.file id) :=
    fun _ _ => Disk.lookup_scratch _ _
  obtain ⟨l, hbuilt⟩ := Session.Reachable.start.answers ⟨Disk.scratch "dags", #[], #[]⟩
    (fun _ => .goOn) (show pageBuild ∈ Set.univ from trivial)
  obtain ⟨l', hfound⟩ := (hbuilt.step (.ends (.refl _))).answers _ (fun _ => .goOn)
    (show pageFind ∈ Set.univ from trivial)
  obtain ⟨file, hfile⟩ := Call.Answer.eq_found (a := (Program.run
    (Surroundings.serveFiles fun _ => .goOn) (pageFind.program .keccak) (Program.run
      (Surroundings.serveFiles fun _ => .goOn) (pageBuild.program .keccak)
      ⟨Disk.scratch "dags", #[], #[]⟩).2).1) (by decide +kernel)
  rw [hfile] at hfound
  obtain ⟨id, hreferent, -, -, -, hcomplete⟩ :=
    (marked_files_complete .keccak hstart hfound).2 _ _ _ file (List.mem_singleton.mpr rfl)
  exact ⟨hstart, _, file, hfound, id, hreferent, hcomplete⟩

end ProofOfWork.DagFile
