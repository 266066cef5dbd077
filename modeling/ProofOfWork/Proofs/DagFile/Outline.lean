import ProofOfWork.DagFile.Prepare
import ProofOfWork.Proofs.DagFile.Serves
import ProofOfWork.Proofs.DagFile.Yields

/-! What the opening of a DAG file asks, request by request. On any terms, what is to be shown of each
request is put between what is true before it and what is true after it, and the function ends as is
wanted. -/

namespace ProofOfWork

/-- An answer that is not that of a file that was there. -/
def DagFile.IsCreated (memo : DagFile.Memo) : Prop := ∃ file, memo = .created file

namespace Files

open Program DagFile

section

variable {σ : Type} {T : Terms σ} {R : Memo → σ → Prop} {s : σ} {place : Place} {path : Path}
  {file : Handle} {size : UInt64} {force : Bool}

theorem Yields.createSized (Made Sought Written : Handle → σ → Prop)
    (hcreate : Asks T (.create path) (Comes T .creating path Made) s)
    (hseek : ∀ file s, Made file s → Asks T (.seek file (size + Params.magicBytes.toUInt64 - 1))
      (Comes T .seekingEnd path fun _ => Sought file) s)
    (hwrite : ∀ file s, Sought file s →
      Asks T (.write file (size + Params.magicBytes.toUInt64 - 1) ⟨#[0x0a]⟩)
        (Comes T .writingEnd path fun _ => Written file) s)
    (hflush : ∀ file s, Written file s →
      Asks T (.flush file) (Comes T .flushingEnd path fun _ => R (.created file)) s) :
    Yields T R (createSized path size) s := by
  refine Yields.call (r := .create path) (g := id) hcreate fun file s hmade => ?_
  refine Yields.call (r := .seek _ _) (g := id) (hseek file s hmade) fun _ s hsought => ?_
  refine Yields.call (r := .write _ _ _) (g := id) (hwrite file s hsought) fun _ s hwritten => ?_
  exact Yields.call (r := .flush _) (g := id) (hflush file s hwritten) fun _ _ hR => Yields.pure hR

theorem Yields.probe (Sized : UInt64 → σ → Prop) (Started : ByteVector 8 → σ → Prop)
    (hsize : Asks T (.size file) (Comes T .queryingSize path Sized) s)
    (hother : ∀ found s, Sized found s → storedSize found ≠ some size →
      R (.stale (.size size ((storedSize found).getD 0))) s)
    (hread : ∀ found s, Sized found s → storedSize found = some size →
      Asks T (.readMagic file)
        (Meets (fun cause => Notes T (.unreadable path cause) (R (.stale (.magic none)))) Started) s)
    (hwrong : ∀ bytes s, Started bytes s → magicOf bytes ≠ Params.magic →
      R (.stale (.magic (some (magicOf bytes)))) s)
    (hright : ∀ bytes s, Started bytes s → magicOf bytes = Params.magic → R (.found file) s) :
    Yields T R (probe file path size) s := by
  refine Yields.call (r := .size file) (g := id) hsize fun found s hsized => ?_
  dsimp only
  split
  case isTrue hne => exact Yields.pure (hother found s hsized hne)
  case isFalse heq =>
    refine Yields.ask (hread found s hsized (Decidable.not_not.mp heq)) fun answer s hanswer => ?_
    cases answer with
    | error cause => exact Yields.note hanswer fun _ hR => Yields.pure hR
    | ok bytes =>
      dsimp only
      split
      case isTrue hne => exact Yields.pure (hwrong bytes s hanswer hne)
      case isFalse heq => exact Yields.pure (hright bytes s hanswer (Decidable.not_not.mp heq))

theorem Yields.prepare (Noted : σ → Prop)
    (hdirectory : Asks T (.makeDirectory place.dir) (Comes T .makingDirectory place.dir fun _ =>
      Notes T (.preparing place.path force) Noted) s)
    (hforced : ∀ s, Noted s → force = true → Yields T R (DagFile.createSized place.path size) s)
    (hopen : ∀ s, Noted s → force = false → Asks T (.openExisting place.path)
      (Meets (fun cause => Notes T (.noExisting place.path cause)
          (Yields T R (DagFile.createSized place.path size)))
        fun file => Yields T R (DagFile.probe file place.path size)) s) :
    Yields T R (prepare place size force) s := by
  refine Yields.call (r := .makeDirectory _) (g := id) hdirectory fun _ s hnotes => ?_
  refine Yields.note hnotes fun s hnoted => ?_
  cases force with
  | true => exact hforced s hnoted rfl
  | false =>
    refine Yields.ask (hopen s hnoted rfl) fun answer s hanswer => ?_
    cases answer with
    | ok file => exact hanswer
    | error cause => exact Yields.note hanswer fun _ hcreate => hcreate

end

/-! ### Terms that keep a statement true -/

/-- A request that an action cannot go on without. -/
def Request.Vital : Request → Prop
  | .caller _ => False
  | .openExisting _ => False
  | .readMagic _ => False
  | .store _ _ _ => False
  | _ => True

/-- A statement stays true, whatever is asked, but where an action cannot go on it may fail. -/
structure Steady {σ : Type} (T : Terms σ) (I : σ → Prop) : Prop where
  vital : ∀ r s, r.Vital → I s → Asks T r (fun a s' => (¬Disk.Refuses r a → I s') ∧
    (Disk.Refuses r a → ∀ activity path cause, activity ≠ .recreating →
      Fails T activity path cause s')) s
  openExisting : ∀ path s, I s → Asks T (.openExisting path) (fun _ => I) s
  readMagic : ∀ file s, I s → Asks T (.readMagic file) (fun _ => I) s
  store : ∀ file offset data s, I s → Asks T (.store file offset data) (fun _ => I) s
  note : ∀ event s, (∀ activity path cause, event ≠ .failed activity path cause) → I s →
    Notes T event I s

section

variable {σ β : Type} {T : Terms σ} {I : σ → Prop} {s : σ} {place : Place} {path : Path}
  {size : UInt64} (hsteady : Steady T I)

include hsteady

theorem Steady.call {r : Request} {g : Answer r → Except IoError β} {activity : Activity}
    {Q : β → σ → Prop} (hvital : r.Vital) (hne : activity ≠ .recreating)
    (hrefuses : ∀ a, Disk.Refuses r a ↔ ∃ cause, g a = .error cause) (h : I s)
    (hQ : ∀ b s', I s' → Q b s') :
    Asks T r (fun a => Comes T activity path Q (g a)) s := by
  refine (hsteady.vital r s hvital h).mono fun a s' hanswer => ?_
  cases hg : g a with
  | ok b => exact hQ b s' (hanswer.1 (by simp [hrefuses, hg]))
  | error cause => exact hanswer.2 ((hrefuses a).mpr ⟨cause, hg⟩) activity path cause hne

theorem Steady.createSized (h : I s) :
    Yields T (fun memo s => IsCreated memo ∧ I s) (DagFile.createSized path size) s := by
  refine Yields.createSized (fun _ => I) (fun _ => I) (fun _ => I) ?_ ?_ ?_ ?_
  · exact hsteady.call trivial (by decide) (fun _ => .rfl) h fun _ _ h => h
  · exact fun _ _ h => hsteady.call trivial (by decide) (fun _ => .rfl) h fun _ _ h => h
  · exact fun _ _ h => hsteady.call trivial (by decide) (fun _ => .rfl) h fun _ _ h => h
  · exact fun file _ h =>
      hsteady.call trivial (by decide) (fun _ => .rfl) h fun _ _ h => ⟨⟨file, rfl⟩, h⟩

theorem Steady.probe (h : I s) (file : Handle) :
    Yields T (fun memo s => ¬IsCreated memo ∧ I s) (DagFile.probe file path size) s := by
  refine Yields.probe (fun _ => I) (fun _ => I) ?_ ?_ ?_ ?_ ?_
  · exact hsteady.call trivial (by decide) (fun _ => .rfl) h fun _ _ h => h
  · exact fun _ _ h _ => ⟨by simp [IsCreated], h⟩
  · refine fun _ s h _ => (hsteady.readMagic file s h).mono fun answer s h => ?_
    cases answer with
    | ok bytes => exact h
    | error cause =>
      exact (hsteady.note _ s (by simp) h).mono fun _ _ h => ⟨by simp [IsCreated], h⟩
  · exact fun _ _ h _ => ⟨by simp [IsCreated], h⟩
  · exact fun _ _ h _ => ⟨by simp [IsCreated], h⟩

theorem Steady.prepare (h : I s) (force : Bool) :
    Yields T (fun memo s => (force = true → IsCreated memo) ∧ I s)
      (DagFile.prepare place size force) s := by
  have hcreate (s : σ) (h : I s) :
      Yields T (fun memo s => (force = true → IsCreated memo) ∧ I s)
        (DagFile.createSized place.path size) s :=
    (hsteady.createSized h).mono fun _ _ h => ⟨fun _ => h.1, h.2⟩
  refine Yields.prepare I ?_ (fun s h _ => hcreate s h) ?_
  · exact hsteady.call trivial (by decide) (fun _ => .rfl) h
      fun _ s h => hsteady.note _ s (by simp) h
  · rintro s h rfl
    refine (hsteady.openExisting place.path s h).mono fun answer s h => ?_
    cases answer with
    | ok file => exact (hsteady.probe h file).mono fun _ _ h => ⟨nofun, h.2⟩
    | error cause => exact (hsteady.note _ s (by simp) h).mono fun _ s h => hcreate s h

end

/-- Where any request may be made, and any failure of a call may be the end, nothing is in the way. -/
theorem steady_of {σ : Type} {W : Serving Files σ} {fails : Error → σ → Prop}
    (hfails : ∀ activity path cause s, fails (.io activity path cause) s) :
    Steady (.of W fails) fun _ => True := by
  have hasks (r : Request) (s : σ) : Asks (.of W fails) r (fun _ _ => True) s :=
    ⟨trivial, fun _ _ _ => trivial⟩
  constructor
  · exact fun _ _ _ _ => ⟨trivial, fun _ _ _ => ⟨fun _ => trivial, fun _ _ _ _ _ =>
      ⟨trivial, fun _ s _ => hfails _ _ _ s⟩⟩⟩
  · exact fun path s _ => hasks (.openExisting path) s
  · exact fun file s _ => hasks (.readMagic file) s
  · exact fun file offset data s _ => hasks (.store file offset data) s
  · exact fun event s _ _ => hasks (.caller (.log event)) s

end Files

end ProofOfWork
