import ProofOfWork.Proofs.Client.Effect

/-! Why a call for a client with a dataset in a file fails. What was asked of the file system and of
the caller up to the end of the call tells it: a request that could not be carried out, or a report
that was answered with a stop. The light client is handed back, and is as good as before for another
attempt. -/

namespace ProofOfWork

open Program Files DagFile

/-- Surroundings with all that was asked of them, the latest first. -/
def Serving.recorded {σ : Type} (W : Serving Files σ) : Serving Files (σ × List Exchange) :=
  fun r s a s' => W r s.1 a s'.1 ∧ s'.2 = ⟨r, a⟩ :: s.2

theorem Program.Reaches.recorded {σ α : Type} {W : Serving Files σ} {p p' : Program Files α}
    {s s' : σ} (h : Reaches W p s p' s') (history : List Exchange) :
    ∃ history', Reaches W.recorded p (s, history) p' (s', history') := by
  induction h generalizing history with
  | refl => exact ⟨history, .refl _ _⟩
  | @ask r next s s' s'' a p' hW _ ih =>
    obtain ⟨history', hreaches⟩ := ih (⟨r, a⟩ :: history)
    refine ⟨history', .ask ?_ hreaches⟩
    exact ⟨hW, rfl⟩

/-- A file that cannot be opened is taken for none, and one whose start cannot be read for one that is
of no use. -/
def Files.Request.Forgiven : Request → Prop
  | .openExisting _ => True
  | .readMagic _ => True
  | _ => False

/-- A request was refused, and the call cannot go on without it. -/
def Files.Exchange.Fatal (x : Exchange) : Prop :=
  Disk.Refuses x.request x.answer ∧ ¬x.request.Forgiven

namespace DagFile

def Broken (history : List Exchange) : Prop := ∃ x ∈ history, x.Fatal

/-- A report was answered with a stop. -/
def Stopped (history : List Exchange) : Prop :=
  ∃ percent, ⟨.caller (.report percent), .stop⟩ ∈ history

/-- A generation was reached. -/
def Started (history : List Exchange) : Prop :=
  ∃ bytes inParallel, ⟨.caller (.log (.generating bytes inParallel)), ()⟩ ∈ history

def Quiet (history : List Exchange) : Prop := ¬Broken history ∧ ¬Stopped history

/-- What is behind an error. -/
def Explains (history : List Exchange) : Error → Prop
  | .io _ _ _ => Broken history ∧ ¬Stopped history
  | .cancelled => Started history ∧ Stopped history ∧ ¬Broken history
  | .invalid _ => False
  | .noDefaultDirectory => False

/-- However a call fails, its history explains it. -/
abbrev telling {σ : Type} (W : Serving Files σ) : Terms (σ × List Exchange) :=
  .of W.recorded fun e s => Explains s.2 e

section

variable {history : List Exchange} {x : Exchange}

theorem broken_cons : Broken (x :: history) ↔ x.Fatal ∨ Broken history := by
  simp [Broken]

theorem stopped_cons : Stopped (x :: history) ↔
    (∃ percent, ⟨.caller (.report percent), .stop⟩ = x) ∨ Stopped history := by
  simp [Stopped, exists_or]

theorem Started.cons (h : Started history) (x : Exchange) : Started (x :: history) := by
  obtain ⟨bytes, inParallel, hmem⟩ := h
  exact ⟨bytes, inParallel, List.mem_cons_of_mem x hmem⟩

theorem broken_cons_caller (r : Caller.Request) (a : Caller.Answer r) :
    Broken (⟨.caller r, a⟩ :: history) ↔ Broken history := by
  rw [broken_cons, or_iff_right]
  exact fun hfatal => hfatal.1

theorem stopped_cons_report (percent : UInt32) (verdict : Verdict) :
    Stopped (⟨.caller (.report percent), verdict⟩ :: history) ↔
      verdict = .stop ∨ Stopped history := by
  rw [stopped_cons]
  refine or_congr_left ⟨?_, ?_⟩
  · rintro ⟨_, heq⟩
    cases heq
    rfl
  · rintro rfl
    exact ⟨percent, rfl⟩

/-- Only reports are answered with a stop. -/
theorem stopped_cons_of_ne {r : Request} (hr : ∀ percent, r ≠ .caller (.report percent))
    (a : Answer r) : Stopped (⟨r, a⟩ :: history) ↔ Stopped history := by
  rw [stopped_cons, or_iff_right]
  rintro ⟨percent, heq⟩
  cases heq
  exact hr percent rfl

theorem stopped_cons_of_onFiles {r : Request} (hr : r.OnFiles) (a : Answer r) :
    Stopped (⟨r, a⟩ :: history) ↔ Stopped history := by
  apply stopped_cons_of_ne
  rintro percent rfl
  exact hr

theorem Quiet.log (h : Quiet history) (event : Event) :
    Quiet (⟨.caller (.log event), ()⟩ :: history) := by
  rw [Quiet, broken_cons_caller, stopped_cons_of_ne (by simp)]
  exact h

end

section

variable {σ : Type} {W : Serving Files σ} {s : σ × List Exchange}

theorem Quiet.notes (h : Quiet s.2) (event : Event) :
    Notes (telling W) event (fun s => Quiet s.2) s := by
  refine ⟨trivial, fun _ s' hs => ?_⟩
  show Quiet s'.2
  rw [hs.2]
  exact h.log event

theorem Quiet.asks (h : Quiet s.2) {r : Request} (hr : r.OnFiles)
    (hfatal : ∀ a, ¬(⟨r, a⟩ : Exchange).Fatal) : Asks (telling W) r (fun _ s => Quiet s.2) s := by
  refine ⟨trivial, fun a s' hs => ?_⟩
  show Quiet s'.2
  rw [hs.2, Quiet, broken_cons, stopped_cons_of_onFiles hr, or_iff_right (hfatal a)]
  exact h

/-- Only a request that is refused, and that the call cannot go on without, is noted as a failure. -/
theorem steady_telling (W : Serving Files σ) : Steady (telling W) fun s => Quiet s.2 := by
  constructor
  · rintro r s hvital h
    have hr : r.OnFiles := by
      cases r with
      | caller r => exact hvital
      | _ => trivial
    have hforgiven : ¬r.Forgiven := by
      rintro hforgiven
      cases r <;> first | exact hforgiven | exact hvital
    refine ⟨trivial, fun a s' hs => ?_⟩
    have hstopped : ¬Stopped s'.2 := by
      rw [hs.2, stopped_cons_of_onFiles hr]
      exact h.2
    have hbroken : Broken s'.2 ↔ Disk.Refuses r a := by
      rw [hs.2, broken_cons, or_iff_left h.1]
      exact and_iff_left hforgiven
    refine ⟨fun ha => ⟨mt hbroken.mp ha, hstopped⟩, fun ha activity path cause _ => ?_⟩
    -- the failure is noted in the log, and then the call ends
    refine ⟨trivial, fun _ s'' hs' => ?_⟩
    show Broken s''.2 ∧ ¬Stopped s''.2
    rw [hs'.2, broken_cons_caller, stopped_cons_of_ne (by simp)]
    exact ⟨hbroken.mpr ha, hstopped⟩
  · exact fun path s h => h.asks trivial fun _ h => h.2 trivial
  · exact fun file s h => h.asks trivial fun _ h => h.2 trivial
  · exact fun file offset data s h => h.asks trivial fun _ h => h.1
  · exact fun event s _ h => h.notes event

/-! ### Filling a file -/

variable {H : Hasher} {c : Cache} {count : UInt32} {place : Place} {size : UInt64}

/-- A generation in a file makes no request that is refused. It is recorded without its memory. -/
theorem follows_telling (W : Serving Files σ) (file : Handle) :
    Generation.Follows H c count (fun (_ : Unit) _ _ => ())
      (fun r s a s' => Ends W.recorded (FullClient.intoFile file r) s a s') (fun _ _ => True)
      fun m s => Started s.2 ∧ ¬Broken s.2 ∧ (Stopped s.2 ↔ ∃ node, (node, .stop) ∈ m.calls) := by
  rintro node r m s - ⟨hstarted, hbroken, hstopped⟩
  refine ⟨trivial, fun a s' he => ?_⟩
  rcases r with (percent | event | others) | ⟨index, n⟩
  all_goals
    obtain ⟨-, hs⟩ := ends_perform.mp he
    rw [hs]
    refine ⟨hstarted.cons _, ?_, ?_⟩
  · rwa [broken_cons_caller]
  · rw [stopped_cons_report, hstopped]
    simp [Generation.Record.after, exists_or, eq_comm]
  · rwa [broken_cons_caller]
  · rwa [stopped_cons_of_ne (by simp)]
  · rwa [broken_cons_caller]
  · rwa [stopped_cons_of_ne (by simp)]
  · rw [broken_cons, or_iff_right]
    · exact hbroken
    · exact fun hfatal => hfatal.1
  · rwa [stopped_cons_of_ne (by simp)]

theorem keeps_nodes_telling (file : Handle) (inParallel : Bool) (hstarted : Started s.2)
    (h : Quiet s.2) :
    Keeps W.recorded (fun _ _ => True)
      (fun outcome s' => Started s'.2 ∧ ¬Broken s'.2 ∧ (outcome = .cancelled ↔ Stopped s'.2))
      ((Generation.nodes H c inParallel count).run (FullClient.intoFile file)) s := by
  refine Keeps.through (P := fun _ _ => True) (fun _ _ _ => keeps_trivial _ _) ?_
  have F : Generation.Follows H c count _ _ _ _ := follows_telling W file
  refine (Generation.keeps_nodes () F inParallel ⟨hstarted, h.1, ?_⟩).mono (fun _ _ h => h) ?_
  · simp [Generation.Record.start, h.2]
  · rintro outcome s' ⟨m, ⟨hstarted, hbroken, hstopped⟩, htells⟩
    exact ⟨hstarted, hbroken, htells.cancelled.trans hstopped.symm⟩

theorem tells_mapFile (hcount : Dataset.nodeCount size.toNat = .ok count) (options : FullOptions)
    (h : Quiet s.2) :
    Yields (telling W) (fun _ s => Quiet s.2) (FullClient.mapFile H place size c options) s := by
  refine (steady_telling W).mapFile hcount h fun file s h => ?_
  refine Yields.noted (fun s => Started s.2 ∧ Quiet s.2) (fun outcome s =>
    Started s.2 ∧ ¬Broken s.2 ∧ (outcome = .cancelled ↔ Stopped s.2)) ?_ ?_ ?_ ?_
  · refine ⟨trivial, fun _ s' hs => ?_⟩
    show Started s'.2 ∧ Quiet s'.2
    rw [hs.2]
    exact ⟨⟨_, _, List.mem_cons_self⟩, h.log _⟩
  · exact fun s h => keeps_nodes_telling file options.parallel h.1 h.2
  · rintro s ⟨hstarted, hbroken, hstopped⟩
    exact ⟨hstarted, hstopped.mp rfl, hbroken⟩
  · rintro s ⟨-, hbroken, hstopped⟩
    exact Quiet.notes ⟨hbroken, fun h => by cases hstopped.mpr h⟩ _

end

end DagFile

theorem Disk.ends_recording_serveFiles {α : Type} (verdict : Array UInt32 → Verdict)
    (p : Program Files α) (s : Surroundings × List Exchange) :
    Ends Disk.Serves.recorded p (s.1.disk, s.2)
      (p.run (Disk.recording (Surroundings.serveFiles verdict)) s).1
      ((p.run (Disk.recording (Surroundings.serveFiles verdict)) s).2.1.disk,
        (p.run (Disk.recording (Surroundings.serveFiles verdict)) s).2.2) :=
  Disk.ends_recording Surroundings.disk (fun r s => .inl (Disk.does_serveFiles _ r s)) p s

namespace FullClient

/-- The error of a call that fails. -/
def cause? : Except FullError FullClient → Option Error
  | .ok _ => none
  | .error e => some e.cause

section

variable {σ : Type} {W : Serving Files σ} {H : Hasher} {place : Place} {size : UInt64}
  {light : LightClient} {options : FullOptions} {s s' : σ} {history : List Exchange}
  {answer : Except FullError FullClient} {count : UInt32}

theorem inFile_of_error {cause : Invalid} (hcount : Dataset.nodeCount size.toNat = .error cause) :
    inFile H place size light options = .done (.error ⟨light, .invalid cause⟩) := by
  rw [inFile, mapFile, hcount]
  rfl

theorem keeps_inFile_telling (hcount : Dataset.nodeCount size.toNat = .ok count) :
    Keeps W.recorded (fun _ _ => True)
      (fun answer s' => (∀ f, answer = .ok f → Quiet s'.2) ∧
        ∀ e, answer = .error e → e.light = light ∧ Explains s'.2 e.cause)
      (inFile H place size light options) (s, []) := by
  have hquiet : Quiet [] := by simp [Quiet, Broken, Stopped]
  refine Yields.inFile (tells_mapFile hcount options hquiet) ?_ ?_
  · exact fun _ _ h => ⟨fun _ _ => h, nofun⟩
  · exact fun _ _ h => ⟨nofun, fun _ he => Except.error.inj he ▸ ⟨rfl, h⟩⟩

end

/-- A call with the light client returns a client wherever all requests are carried out and no report
is answered with a stop, be there a file in the place of its file or nothing. -/
def Succeeds (H : Hasher) (light : LightClient) : Prop :=
  ∀ (τ υ : Type) (disk : τ → Disk) (told : τ → υ)
    (serve : (r : Files.Request) → StateM τ (Files.Answer r)), Works disk told serve →
    (∀ percent t, (serve (.caller (.report percent)) t).1 = .goOn) →
    ∀ place size count options t, Fits place size (disk t) →
      Dataset.nodeCount size.toNat = .ok count →
      ∃ f t', (inFile H place size light options).run serve t = (.ok f, t')

theorem succeeds (H : Hasher) (light : LightClient) : Succeeds H light := by
  intro τ υ disk told serve hworks hgoOn place size count options t hfits hcount
  have hmade : (disk t).makeDirectories place.dir =
      (.ok (), ((disk t).makeDirectories place.dir).2) := Prod.ext hfits.made rfl
  obtain ⟨_, hanswer, -⟩ := (hworks.keeps_inFile (H := H) hgoOn ⟨rfl, rfl⟩ hmade hfits.ready hcount
    light options).run
  exact ⟨_, _, Prod.ext hanswer rfl⟩

/-- The error of a call for a client with a dataset in a file is told by what was asked on the way.
The size is checked first, before anything is asked. After that a call fails only if a request is
refused, other than one to open the file that is there or to read its start, or if a report is
answered with a stop. In all cases the light client is handed back, and serves for another attempt,
whatever is then in the place of the file. -/
theorem inFile_failure_told (H : Hasher) {σ : Type} {W : Serving Files σ} {place : Place}
    {size : UInt64} {light : LightClient} {options : FullOptions} {s s' : σ}
    {history : List Exchange} {answer : Except FullError FullClient}
    (h : Ends W.recorded (inFile H place size light options) (s, []) answer (s', history)) :
    ((∃ cause, cause? answer = some (.invalid cause)) ↔
      ∃ cause, Dataset.nodeCount size.toNat = .error cause) ∧
    ((∃ cause, Dataset.nodeCount size.toNat = .error cause) → history = [] ∧ s' = s) ∧
    ((∃ activity path cause, cause? answer = some (.io activity path cause)) ↔
      (∃ count, Dataset.nodeCount size.toNat = .ok count) ∧ ∃ x ∈ history, x.Fatal) ∧
    (cause? answer = some .cancelled ↔ Started history ∧ Stopped history) ∧
    cause? answer ≠ some .noDefaultDirectory ∧
    ∀ e, answer = .error e → e.light = light ∧ Succeeds H e.light := by
  cases hcount : Dataset.nodeCount size.toNat with
  | error cause =>
    rw [inFile_of_error hcount] at h
    cases h
    refine ⟨by simp [cause?], fun _ => ⟨rfl, rfl⟩, by simp [cause?], by simp [cause?, Started],
      by simp [cause?], fun e he => ?_⟩
    obtain rfl := Except.error.inj he
    exact ⟨rfl, succeeds H light⟩
  | ok count =>
    obtain ⟨hok, herror⟩ := (keeps_inFile_telling hcount).ends h
    have hback (e : FullError) (he : answer = .error e) : e.light = light ∧ Succeeds H e.light :=
      ⟨(herror e he).1, succeeds H e.light⟩
    show _ ∧ _ ∧ (_ ↔ _ ∧ Broken history) ∧ _
    cases answer with
    | ok f => simp [cause?, (hok f rfl).1, (hok f rfl).2]
    | error e =>
      obtain ⟨-, hcause⟩ := herror e rfl
      obtain ⟨light', cause⟩ := e
      cases cause with
      | invalid cause => exact hcause.elim
      | noDefaultDirectory => exact hcause.elim
      | io activity path cause =>
        obtain ⟨hbroken, hstopped⟩ := hcause
        refine ⟨?_, ?_, ?_, ?_, ?_, hback⟩ <;> simp [cause?, hbroken, hstopped]
      | cancelled =>
        obtain ⟨hstarted, hstopped, hbroken⟩ := hcause
        refine ⟨?_, ?_, ?_, ?_, ?_, hback⟩ <;> simp [cause?, hstarted, hstopped, hbroken]

/-- A caller stops the generation of a dataset, which leaves a file without the magic number. -/
def stoppedRun : Except FullError FullClient × Surroundings × List Exchange :=
  (inFile .keccak pagePlace 128 pageLight ⟨none, false, false⟩).run
    (Disk.recording (Surroundings.serveFiles fun _ => .stop)) (⟨Disk.scratch "dags", #[], #[]⟩, [])

theorem ends_stoppedRun :
    Ends Disk.Serves.recorded (inFile .keccak pagePlace 128 pageLight ⟨none, false, false⟩)
      (Disk.scratch "dags", []) stoppedRun.1 (stoppedRun.2.1.disk, stoppedRun.2.2) := by
  unfold stoppedRun
  exact Disk.ends_recording_serveFiles _ _ (⟨Disk.scratch "dags", #[], #[]⟩, [])

/-- What the call comes to, and what it leaves. These facts stand together so that the call is run
once for all of them. -/
theorem stoppedRun_leaves :
    cause? stoppedRun.1 = some .cancelled ∧
    (stoppedRun.2.1.disk.makeDirectories pagePlace.dir).1 = .ok () ∧
    stoppedRun.2.1.disk.lookup pagePlace.path.location = some (.file 0) ∧
    0 < stoppedRun.2.1.disk.contents.size ∧
    (stoppedRun.2.1.disk.file 0).size < 2 ^ 64 ∧
    (128 : UInt64).toNat + 8 ≤ stoppedRun.2.1.disk.maxFileSize := by
  decide +kernel

theorem fits_stoppedRun : Fits pagePlace 128 stoppedRun.2.1.disk := by
  obtain ⟨-, hmade, hlookup, hrange, hsize, hroom⟩ := stoppedRun_leaves
  have hsame := Disk.sameFiles_makeDirectories stoppedRun.2.1.disk pagePlace.dir
  constructor
  · rfl
  · exact hmade
  · intro hdirectory
    rw [(hsame.file_iff _ 0).mpr hlookup] at hdirectory
    cases hdirectory
  · exact utf8ByteSize_pagePlace
  · intro id hid
    rw [hlookup] at hid
    cases hid
    exact hrange
  · intro id hid
    rw [hlookup] at hid
    cases hid
    exact hsize
  · exact hroom

/-- The light client of the call that was stopped serves for another attempt, over the file that is
left. -/
theorem inFile_failure_told_page :
    Ends Disk.Serves.recorded (inFile .keccak pagePlace 128 pageLight ⟨none, false, false⟩)
      (Disk.scratch "dags", []) stoppedRun.1 (stoppedRun.2.1.disk, stoppedRun.2.2) ∧
    Stopped stoppedRun.2.2 ∧
    ∃ e, stoppedRun.1 = .error e ∧ e.cause = .cancelled ∧ e.light = pageLight ∧
      ∃ f t', (inFile .keccak pagePlace 128 e.light ⟨none, false, true⟩).run
        (Surroundings.serveFiles fun _ => .goOn) ⟨stoppedRun.2.1.disk, #[], #[]⟩ = (.ok f, t') := by
  have hcause := stoppedRun_leaves.1
  obtain ⟨-, -, -, hcancelled, -, hback⟩ := inFile_failure_told .keccak ends_stoppedRun
  refine ⟨ends_stoppedRun, (hcancelled.mp hcause).2, ?_⟩
  cases hrun : stoppedRun.1 with
  | ok f =>
    rw [hrun] at hcause
    contradiction
  | error e =>
    rw [hrun] at hcause
    obtain ⟨hlight, hsucceeds⟩ := hback e hrun
    refine ⟨e, rfl, Option.some.inj hcause, hlight, ?_⟩
    have hfits := fits_stoppedRun
    generalize stoppedRun.2.1.disk = d at hfits ⊢
    exact hsucceeds _ _ _ _ _ (works_serveFiles fun _ => .goOn) (fun _ _ => rfl) pagePlace 128 2 _
      ⟨d, #[], #[]⟩ hfits (by decide)

end FullClient

end ProofOfWork
