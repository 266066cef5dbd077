import ProofOfWork.Client.Full
import ProofOfWork.Proofs.DagFile.Outline

/-! What a call for a client with a dataset in a file asks, request by request. A file that is of no use
is opened a second time, and that attempt makes one: the failure that is kept for a second attempt which
finds a file never occurs, on any terms. -/

namespace ProofOfWork.Files

open Program DagFile

variable {σ : Type} {T : Terms σ} {s : σ} {place : Place} {size : UInt64} {H : Hasher} {c : Cache}
  {count : UInt32} {file : Handle} {path : Path} {inParallel : Bool} {options : FullOptions}

theorem Yields.openFile {R : Handle × Bool → σ → Prop} {force : Bool} (First Second : Memo → σ → Prop)
    (hfirst : Yields T First (DagFile.prepare place size force) s)
    (hstale : ∀ reason s, First (.stale reason) s → Notes T (.stale place.path reason)
      (Yields T Second (DagFile.prepare place size true)) s)
    (hfound : ∀ file s, First (.found file) s → R (file, true) s)
    (hcreated : ∀ file s, First (.created file) s → R (file, false) s)
    (hagain : ∀ file s, Second (.created file) s → R (file, false) s) :
    Yields T R (FullClient.openFile place size force) s := by
  refine hfirst.bind fun memo s hmemo => ?_
  cases memo with
  | found file => exact Yields.pure (hfound file s hmemo)
  | created file => exact Yields.pure (hcreated file s hmemo)
  | stale reason =>
    refine Yields.note (hstale reason s hmemo) fun s hsecond => ?_
    -- on whatever terms the second attempt is made, it is forced and answers with a new file
    refine (hsecond.and ((steady_of fun _ _ _ _ => trivial).prepare trivial true)).bind ?_
    rintro memo s ⟨hmemo, hmade, -⟩
    obtain ⟨file, rfl⟩ := hmade rfl
    exact Yields.pure (hagain file s hmemo)

theorem Yields.noted {R : Unit → σ → Prop} {bytes : Nat} {generation : Program Files Generation.Outcome}
    (Started : σ → Prop) (Ended : Generation.Outcome → σ → Prop)
    (hstart : Notes T (.generating bytes inParallel) Started s)
    (hrun : ∀ s, Started s → Keeps T.serving T.allows Ended generation s)
    (hcancelled : ∀ s, Ended .cancelled s → T.fails .cancelled s)
    (hfinished : ∀ s, Ended .finished s → Notes T .generated (R ()) s) :
    Yields T R (ExceptT.mk (FullClient.noted (I := Files) bytes inParallel generation)) s := by
  refine ⟨hstart.1, fun a s' hs => (hrun s' (hstart.2 a s' hs)).bind fun outcome s hended => ?_⟩
  cases outcome with
  | cancelled => exact hcancelled s hended
  | finished => exact hfinished s hended

theorem Yields.fillFile {R : Unit → σ → Prop} (Filled Flushed Marked : σ → Prop)
    (hgenerate : Yields T (fun _ => Filled) (ExceptT.mk (FullClient.noted (I := Files)
      (count.toNat * Params.nodeBytes) inParallel
      ((Generation.nodes H c inParallel count).run (FullClient.intoFile file)))) s)
    (hflush : ∀ s, Filled s →
      Asks T (.sync file) (Comes T .flushingContents path fun _ => Flushed) s)
    (hmark : ∀ s, Flushed s → Asks T (.store file 0 magicBytes.bytes) (fun _ => Marked) s)
    (hlast : ∀ s, Marked s → Asks T (.sync file) (Comes T .writingMagic path R) s) :
    Yields T R (FullClient.fillFile H c inParallel count file path) s := by
  refine hgenerate.bind fun _ s hfilled => ?_
  refine Yields.call (r := .sync file) (g := id) (hflush s hfilled) fun _ s hflushed => ?_
  refine Yields.ask (r := .store _ _ _) (hmark s hflushed) fun _ s hmarked => ?_
  exact Yields.ask (r := .sync file) (hlast s hmarked) fun _ _ hcomes => Yields.orFail hcomes

theorem Yields.mapFile_of_error {R : Storage → σ → Prop} {cause : Invalid}
    (hcount : Dataset.nodeCount size.toNat = .error cause) (h : T.fails (.invalid cause) s) :
    Yields T R (FullClient.mapFile H place size c options) s := by
  unfold FullClient.mapFile
  rw [hcount]
  exact h

theorem Yields.mapFile {R : Storage → σ → Prop} (hcount : Dataset.nodeCount size.toNat = .ok count)
    (Opened Resized : Handle × Bool → σ → Prop) (Mapped : Handle × Bool → Nat → σ → Prop)
    (hopen : Yields T Opened (FullClient.openFile place size options.force) s)
    (hresize : ∀ opened s, Opened opened s →
      Asks T (.setLength opened.1 (size + Params.magicBytes.toUInt64))
        (Comes T .resizing place.path fun _ => Resized opened) s)
    (hmap : ∀ opened s, Resized opened s →
      Asks T (.map opened.1) (Comes T .mapping place.path (Mapped opened)) s)
    (hreuse : ∀ file length s, Mapped (file, true) length s →
      Notes T (.reusing place.path) (R (.mapped file place.path length)) s)
    (hfill : ∀ file length s, Mapped (file, false) length s →
      Yields T (fun _ => R (.mapped file place.path length))
        (FullClient.fillFile H c options.parallel count file place.path) s) :
    Yields T R (FullClient.mapFile H place size c options) s := by
  unfold FullClient.mapFile
  rw [hcount]
  show Yields T R (FullClient.openFile place size options.force >>= _) s
  refine hopen.bind fun opened s hopened => ?_
  obtain ⟨file, reuse⟩ := opened
  refine Yields.call (r := .setLength _ _) (g := id) (hresize _ s hopened) fun _ s hresized => ?_
  refine Yields.call (r := .map _) (g := id) (hmap _ s hresized) fun length s hmapped => ?_
  cases reuse with
  | true => exact Yields.note (hreuse file length s hmapped) fun _ hR => Yields.pure hR
  | false => exact (hfill file length s hmapped).bind fun _ _ hR => Yields.pure hR

/-- A failure hands the light client back. -/
theorem Yields.inFile {R : Storage → σ → Prop} {Q : Except FullError FullClient → σ → Prop}
    {light : LightClient} (h : Yields T R (FullClient.mapFile H place size light.cache options) s)
    (hok : ∀ storage s, R storage s → Q (.ok ⟨storage, size, light⟩) s)
    (herror : ∀ cause s, T.fails cause s → Q (.error ⟨light, cause⟩) s) :
    Keeps T.serving T.allows Q (FullClient.inFile H place size light options) s := by
  refine Keeps.bind h fun answer s hanswer => ?_
  cases answer with
  | ok storage => exact hok storage s hanswer
  | error cause => exact herror cause s hanswer

/-! ### Terms that keep a statement true -/

section

variable {I : σ → Prop} (hsteady : Steady T I)

include hsteady

theorem Steady.openFile (h : I s) (force : Bool) :
    Yields T (fun _ => I) (FullClient.openFile place size force) s := by
  have hprepare (s : σ) (h : I s) (force : Bool) :
      Yields T (fun _ => I) (DagFile.prepare place size force) s :=
    (hsteady.prepare h force).mono fun _ _ h => h.2
  refine Yields.openFile (fun _ => I) (fun _ => I) (hprepare s h force) ?_ ?_ ?_ ?_
  · exact fun reason s h => (hsteady.note _ s (by simp) h).mono fun _ s h => hprepare s h true
  all_goals exact fun _ _ h => h

theorem Steady.mapFile (hcount : Dataset.nodeCount size.toNat = .ok count) (h : I s)
    (hgenerate : ∀ file s, I s → Yields T (fun _ => I) (ExceptT.mk (FullClient.noted (I := Files)
      (count.toNat * Params.nodeBytes) options.parallel
      ((Generation.nodes H c options.parallel count).run (FullClient.intoFile file)))) s) :
    Yields T (fun _ => I) (FullClient.mapFile H place size c options) s := by
  refine Yields.mapFile hcount (fun _ => I) (fun _ => I) (fun _ _ => I) ?_ ?_ ?_ ?_ ?_
  · exact hsteady.openFile h options.force
  · exact fun _ _ h => hsteady.call trivial (by decide) (fun _ => .rfl) h fun _ _ h => h
  · exact fun _ _ h => hsteady.call trivial (by decide) (fun _ => .rfl) h fun _ _ h => h
  · exact fun _ _ s h => hsteady.note _ s (by simp) h
  · intro file length s h
    refine Yields.fillFile I I I (hgenerate file s h) ?_ ?_ ?_
    · exact fun _ h => hsteady.call trivial (by decide) (fun _ => .rfl) h fun _ _ h => h
    · exact fun s h => hsteady.store file 0 _ s h
    · exact fun _ h => hsteady.call trivial (by decide) (fun _ => .rfl) h fun _ _ h => h

end

end ProofOfWork.Files
