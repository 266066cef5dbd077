import ProofOfWork.Proofs.Client.Effect
import ProofOfWork.Proofs.DagFile.Probe

/-! What becomes of a file that is found where a DAG file is to be. A call that is not forced judges it
and leaves it alone. One that is of no use is made anew by a second call, which never takes what it
finds for such a file again, so that no client fails for that reason. -/

namespace ProofOfWork

open Program Files

/-- An event that says more than how far a call has come. -/
def Event.major : Event → Bool
  | failed .. | unreadable .. | stale .. | reusing .. | generating .. => true
  | _ => false

namespace Generation

variable {τ : Type} {H : Hasher} {c : Cache} {count : UInt32}

/-- Not a note of a major event. -/
def Minor : Generation.Request → Prop
  | .caller (.log event) => event.major = false
  | _ => True

theorem keeps_fillFrom_minor {W : Serving Generation τ} (step : UInt32) (remaining : Nat)
    (n : UInt32) (s : τ) :
    Keeps W (fun r _ => Minor r) (fun _ _ => True) (fillFrom H c count step remaining n) s := by
  induction remaining generalizing n s with
  | zero => trivial
  | succ remaining ih =>
    have hstore (s : τ) : Keeps W (fun r _ => Minor r) (fun _ _ => True)
        (store n (Dataset.item H c n) >>= fun _ => fillFrom H c count step remaining (n + 1)) s :=
      ⟨trivial, fun _ s' _ => ih _ s'⟩
    rw [fillFrom]
    split
    · refine ⟨rfl, fun _ s _ => ⟨trivial, fun verdict s _ => ?_⟩⟩
      cases verdict with
      | goOn => exact hstore s
      | stop => exact ⟨rfl, fun _ _ _ => trivial⟩
    · exact hstore s

theorem keeps_advance_minor {W : Serving Generation τ} (w : Worker) (stopped : Bool) (s : τ) :
    Keeps W (fun r _ => Minor r) (fun _ _ => True) (w.advance H c count stopped) s := by
  unfold Worker.advance
  split
  · trivial
  · refine ⟨trivial, fun verdict s _ => ?_⟩
    cases verdict <;> trivial
  · trivial
  · trivial
  · refine ⟨trivial, fun _ s _ => ?_⟩
    dsimp only
    split <;> trivial

theorem keeps_runWorkers_minor {W : Serving Generation τ} (steps : Nat) (team : List Worker)
    (stopped : Bool) (s : τ) :
    Keeps W (fun r _ => Minor r) (fun _ _ => True)
      (runWorkers H c count steps team stopped) s := by
  induction steps generalizing team stopped s with
  | zero => cases team <;> trivial
  | succ steps ih =>
    cases team with
    | nil => trivial
    | cons w others =>
      refine ⟨trivial, fun k s _ => (keeps_advance_minor _ stopped s).bind ?_⟩
      rintro ⟨left, stopped⟩ s -
      cases left with
      | some worker => exact ih _ _ _
      | none => exact ih _ _ _

theorem keeps_nodes_minor {W : Serving Generation τ} (inParallel : Bool) (s : τ) :
    Keeps W (fun r _ => Minor r) (fun _ _ => True) (nodes H c inParallel count) s := by
  cases inParallel with
  | false => exact keeps_fillFrom_minor _ _ _ s
  | true =>
    refine (keeps_runWorkers_minor _ _ _ s).bind fun stopped s _ => ?_
    cases stopped with
    | false => trivial
    | true => exact ⟨rfl, fun _ _ _ => trivial⟩

end Generation

/-- A request that neither takes a file as it is nor notes a major event. -/
def Files.Request.Calm : Files.Request → Prop
  | .caller (.log event) => event.major = false
  | .readMagic _ => False
  | .map _ => False
  | _ => True

open DagFile

namespace FullClient

variable {σ : Type} {W : Serving Files σ} {s : σ} {H : Hasher} {c : Cache} {count : UInt32}
  {place : Place} {size : UInt64}

theorem keeps_nodes_intoFile_calm (file : Handle) (inParallel : Bool) :
    Keeps W (fun r _ => r.Calm) (fun _ _ => True)
      ((Generation.nodes H c inParallel count).run (intoFile file)) s := by
  refine Keeps.through (P := fun r _ => Generation.Minor r) (fun r s hr => ?_)
    (Generation.keeps_nodes_minor inParallel s)
  rcases r with (percent | event | others) | ⟨index, node⟩
  · exact ⟨trivial, fun _ _ _ => trivial⟩
  · exact ⟨hr, fun _ _ _ => trivial⟩
  · exact ⟨trivial, fun _ _ _ => trivial⟩
  · exact ⟨trivial, fun _ _ _ => trivial⟩

theorem keeps_nodes_intoFile_noFailure (b : Activity) (file : Handle) (inParallel : Bool) :
    Keeps W (fun r _ => ∀ path cause, r ≠ .caller (.log (.failed b path cause))) (fun _ _ => True)
      ((Generation.nodes H c inParallel count).run (intoFile file)) s := by
  refine (keeps_nodes_intoFile_calm file inParallel).mono ?_ fun _ _ _ => trivial
  rintro _ s hcalm path cause rfl
  contradiction

/-- No failure in the activity `b` is noted, and none is the end. -/
abbrev avoiding (W : Serving Files σ) (b : Activity) : Terms σ where
  serving := W
  allows r _ := ∀ path cause, r ≠ .caller (.log (.failed b path cause))
  fails e _ := ∀ path cause, e ≠ .io b path cause

theorem notes_avoiding {b : Activity} {event : Event} {P : σ → Prop}
    (hevent : ∀ path cause, event ≠ .failed b path cause) (hP : ∀ s, P s) :
    Notes (avoiding W b) event P s := by
  refine ⟨fun path cause heq => ?_, fun _ s' _ => hP s'⟩
  injection heq with heq
  injection heq with heq
  exact hevent path cause heq

theorem steady_avoiding (W : Serving Files σ) :
    Steady (avoiding W .recreating) fun _ => True := by
  constructor
  · rintro r s hvital -
    refine ⟨?_, fun _ _ _ => ⟨fun _ => trivial, fun _ activity path cause hne => ?_⟩⟩
    · rintro path cause rfl
      exact hvital
    · refine notes_avoiding ?_ fun _ => ?_ <;>
      · rintro _ _ ⟨⟩
        exact hne rfl
  · exact fun _ _ _ => ⟨nofun, fun _ _ _ => trivial⟩
  · exact fun _ _ _ => ⟨nofun, fun _ _ _ => trivial⟩
  · exact fun _ _ _ _ _ => ⟨nofun, fun _ _ _ => trivial⟩
  · exact fun event s hevent _ => notes_avoiding (fun path cause => hevent _ path cause) fun _ => trivial

theorem avoids_mapFile (c : Cache) (options : FullOptions) :
    Yields (avoiding W .recreating) (fun _ _ => True) (mapFile H place size c options) s := by
  cases hcount : Dataset.nodeCount size.toNat with
  | error cause => exact Yields.mapFile_of_error hcount nofun
  | ok count =>
    refine (steady_avoiding W).mapFile hcount trivial fun file s _ => ?_
    refine Yields.noted (fun _ => True) (fun _ _ => True) ?_ ?_ ?_ ?_
    · exact notes_avoiding (by simp) fun _ => trivial
    · exact fun s _ => keeps_nodes_intoFile_noFailure .recreating file options.parallel
    · exact fun _ _ => nofun
    · exact fun s _ => notes_avoiding (by simp) fun _ => trivial

/-- A call that is not forced leaves a file as it is and answers what its size and first bytes say. A
call that is forced, or finds no file, never answers that there was one. And so the failure that is
kept for a second call which finds a file of no use again never occurs, whatever the surroundings
answer. -/
theorem prepare_exact (H : Hasher) {σ τ : Type} {disk : σ → Disk} {told : σ → τ}
    {serve : (r : Files.Request) → StateM σ (Files.Answer r)} (hworks : Works disk told serve)
    (place : Place) (size : UInt64) :
    (∀ s id, place.join = Path.join →
      (disk s).openExisting place.path true true = .ok ⟨.file id, true, true⟩ →
      ((disk s).file id).size < 2 ^ 64 →
      let x := (prepare place size false).run.run serve s
      disk x.2 = disk s ∧
        x.1 = .ok (judged size ⟨.file id, true, true⟩ ((disk s).file id).bytes)) ∧
    (∀ s force, force = true ∨ (∀ id, (disk s).lookup place.path.location ≠ some (.file id)) →
      ∀ memo, ((prepare place size force).run.run serve s).1 = .ok memo →
        ∃ file, memo = .created file) ∧
    ∀ (υ : Type) (W : Serving Files υ) s c options,
      Keeps W (fun r _ => ∀ path cause, r ≠ .caller (.log (.failed .recreating path cause)))
        (fun answer _ => ∀ path cause, answer ≠ .error (.io .recreating path cause))
        (mapFile H place size c options).run s := by
  refine ⟨?_, ?_, ?_⟩
  · intro s id hjoin hopen hlt x
    have hyields : Yields (.of (.of serve) fun _ _ => False)
        (fun memo s' => Sees disk told (disk s) (told s) s' ∧
          memo = judged size ⟨.file id, true, true⟩ ((disk s).file id).bytes)
        (prepare place size false) s := hworks.prepare_of_file ⟨rfl, rfl⟩ hjoin hopen hlt
    obtain ⟨memo, hmemo, hsees, rfl⟩ := hyields.exists_run_eq_ok
    exact ⟨hsees.1, hmemo⟩
  · rintro s force hforce memo hmemo
    have hcreated : Yields (.of (.of serve) fun _ _ => True) (fun memo _ => IsCreated memo)
        (prepare place size force) s := by
      cases force with
      | true =>
        exact ((steady_of fun _ _ _ _ => trivial).prepare trivial true).mono fun _ _ h => h.1 rfl
      | false => exact hworks.prepare_of_no_file ⟨rfl, rfl⟩ (hforce.resolve_left nofun)
    exact hcreated.of_run_eq_ok hmemo
  · intro υ W s c options
    exact Keeps.mono (avoids_mapFile c options) (fun _ _ h => h) fun _ _ hanswer path cause he =>
      hanswer.error he path cause rfl

theorem openExisting_pageDisk :
    pageDisk.openExisting pagePlace.path true true = .ok ⟨.file 0, true, true⟩ := by
  decide +kernel

theorem judged_pageFile :
    judged 128 ⟨.file 0, true, true⟩ pageFile = .found ⟨.file 0, true, true⟩ := by
  decide +kernel

theorem judged_half_pageFile :
    judged 64 ⟨.file 0, true, true⟩ pageFile = .stale (.size 64 128) := by
  decide +kernel

def pagePrepare (size : UInt64) (force : Bool) : Except Error Memo × Surroundings :=
  (prepare pagePlace size force).run.run (Surroundings.serveFiles fun _ => .goOn)
    ⟨pageDisk, #[], #[]⟩

/-- One page with the magic number is found where a page is looked for, and is of no use where half a
page is. -/
theorem prepare_exact_page :
    Works Surroundings.disk Surroundings.reports (Surroundings.serveFiles fun _ => .goOn) ∧
    (pagePrepare 128 false).2.disk = pageDisk ∧
    (pagePrepare 128 false).1 = .ok (.found ⟨.file 0, true, true⟩) ∧
    (pagePrepare 64 false).2.disk = pageDisk ∧
    (pagePrepare 64 false).1 = .ok (.stale (.size 64 128)) ∧
    ∀ memo, (pagePrepare 128 true).1 = .ok memo → ∃ file, memo = .created file := by
  have hworks := works_serveFiles fun _ => .goOn
  have hbytes : (pageDisk.file 0).bytes = pageFile := Contents.bytes_ofBytes pageFile
  have hlt : (pageDisk.file 0).size < 2 ^ 64 := by
    rw [← Contents.size_bytes, hbytes, size_pageFile]
    decide
  obtain ⟨hkept, hfound⟩ :=
    (prepare_exact .keccak hworks pagePlace 128).1 ⟨pageDisk, #[], #[]⟩ 0 rfl openExisting_pageDisk hlt
  obtain ⟨hkept', hstale⟩ :=
    (prepare_exact .keccak hworks pagePlace 64).1 ⟨pageDisk, #[], #[]⟩ 0 rfl openExisting_pageDisk hlt
  simp only [hbytes, judged_pageFile] at hfound
  simp only [hbytes, judged_half_pageFile] at hstale
  refine ⟨hworks, ?_, ?_, ?_, ?_, ?_⟩
  · rw [pagePrepare, hkept]
  · rw [pagePrepare, hfound]
  · rw [pagePrepare, hkept']
  · rw [pagePrepare, hstale]
  · exact (prepare_exact .keccak hworks pagePlace 128).2.1 ⟨pageDisk, #[], #[]⟩ true (.inl rfl)

end FullClient

end ProofOfWork
