import ProofOfWork.Proofs.Client.Failures
import ProofOfWork.Proofs.Client.Recreate

/-! What is said in a run of an action over files: its requests and their answers in order, and among
them the events that it notes. A failure is noted as it arises, and so it is the last event of an
action that ends with it. -/

namespace ProofOfWork

open Program

namespace Files

/-- A run of a program: its requests with their answers, and its value. -/
inductive Dialogue {α : Type} : Program Files α → List Exchange → α → Prop
  | done (value : α) : Dialogue (.done value) [] value
  | ask {r : Request} {next : Answer r → Program Files α} {xs : List Exchange} {value : α}
      (answer : Answer r) : Dialogue (next answer) xs value →
      Dialogue (.ask r next) (⟨r, answer⟩ :: xs) value

section

variable {α β : Type} {p : Program Files α} {xs ys zs zs' : List Exchange} {a b : α}

/-- A dialogue is nowhere the beginning of another. -/
theorem Dialogue.unique (h : Dialogue p xs a) (h' : Dialogue p ys b) (heq : xs ++ zs = ys ++ zs') :
    xs = ys ∧ a = b := by
  induction h generalizing ys with
  | done value =>
    cases h'
    exact ⟨rfl, rfl⟩
  | ask answer _ ih =>
    cases h' with
    | ask answer' h' =>
      rw [List.cons_append, List.cons_append, List.cons.injEq] at heq
      obtain ⟨hx, heq⟩ := heq
      cases hx
      obtain ⟨rfl, rfl⟩ := ih h' heq
      exact ⟨rfl, rfl⟩

theorem Dialogue.of_bind {f : α → Program Files β} {b : β} (h : Dialogue (p >>= f) xs b) :
    ∃ a ys zs, xs = ys ++ zs ∧ Dialogue p ys a ∧ Dialogue (f a) zs b := by
  induction p generalizing xs with
  | done a => exact ⟨a, [], xs, rfl, .done a, h⟩
  | ask r next ih =>
    cases h with
    | ask answer h =>
      obtain ⟨a, ys, zs, rfl, hp, hf⟩ := ih answer h
      exact ⟨a, ⟨r, answer⟩ :: ys, zs, rfl, .ask answer hp, hf⟩

theorem Dialogue.of_ends {σ : Type} {W : Serving Files σ} {s s' : σ × List Exchange}
    (h : Ends W.recorded p s a s') : ∃ xs, Dialogue p xs a ∧ s'.2 = xs.reverse ++ s.2 := by
  induction p generalizing s with
  | done value =>
    cases h
    exact ⟨[], .done a, rfl⟩
  | ask r next ih =>
    cases h with
    | @ask _ _ _ s₁ _ answer _ hs h =>
      obtain ⟨xs, hdialogue, heq⟩ := ih answer h
      refine ⟨⟨r, answer⟩ :: xs, .ask answer hdialogue, ?_⟩
      rw [heq, hs.2, List.reverse_cons, List.append_assoc, List.singleton_append]

/-- The requests of a program that makes such requests alone, whatever it is answered. -/
theorem Dialogue.requests {P : Request → Prop} {Q : α → Unit → Prop}
    (hp : Keeps (fun _ _ _ _ => True) (fun r _ => P r) Q p ()) (h : Dialogue p xs a) :
    ∀ x ∈ xs, P x.request := by
  induction h with
  | done value => exact List.forall_mem_nil _
  | ask answer _ ih => exact List.forall_mem_cons.mpr ⟨hp.1, ih (hp.2 answer () trivial)⟩

end

/-! ### Events -/

def Exchange.event? : Exchange → Option Event
  | ⟨.caller (.log event), _⟩ => some event
  | _ => none

/-- The events that are noted. -/
def told (xs : List Exchange) : List Event := xs.filterMap Exchange.event?

@[simp] theorem told_append (xs ys : List Exchange) : told (xs ++ ys) = told xs ++ told ys :=
  List.filterMap_append

@[simp] theorem told_log (event : Event) (a : Unit) (xs : List Exchange) :
    told (⟨.caller (.log event), a⟩ :: xs) = event :: told xs := rfl

theorem told_cons_of_ne {r : Request} (hr : ∀ event, r ≠ .caller (.log event)) (a : Answer r)
    (xs : List Exchange) : told (⟨r, a⟩ :: xs) = told xs := by
  have hnone : Exchange.event? ⟨r, a⟩ = none := by
    unfold Exchange.event?
    split
    · rename_i event _ heq
      cases heq
      exact (hr event rfl).elim
    · rfl
  exact List.filterMap_cons_none hnone

/-- The failure that an action ends with. -/
def failure? {α : Type} : Except Error α → Option Error
  | .ok _ => none
  | .error e => some e

/-- The note of a failure. -/
def noteOf : Option Error → List Event
  | some (.io activity path cause) => [.failed activity path cause]
  | _ => []

/-- All that is said is kept in order. -/
def Said : Serving Files (List Exchange) := fun r xs a xs' => xs' = xs ++ [⟨r, a⟩]

theorem ends_said {α : Type} {p : Program Files α} {xs xs' : List Exchange} {a : α} :
    Ends Said p xs a xs' ↔ ∃ ys, xs' = xs ++ ys ∧ Dialogue p ys a := by
  induction p generalizing xs with
  | done b =>
    constructor
    · intro h
      cases h
      exact ⟨[], (List.append_nil _).symm, .done _⟩
    · rintro ⟨ys, rfl, h⟩
      cases h
      rw [List.append_nil]
      exact .refl _ _
  | ask r next ih =>
    constructor
    · intro h
      cases h with
      | ask hs h =>
        obtain ⟨ys, rfl, hd⟩ := (ih _).mp h
        obtain rfl := hs
        exact ⟨⟨r, _⟩ :: ys, by simp, .ask _ hd⟩
    · rintro ⟨ys, rfl, h⟩
      cases h with
      | ask answer hd => exact .ask rfl ((ih answer).mpr ⟨_, by simp, hd⟩)

/-- The surroundings that only keep what is said. -/
abbrev hearing (fails : Error → List Exchange → Prop) : Terms (List Exchange) := .of Said fails

section

variable {α β : Type}

/-- Whatever `x` is answered, what is said and the value have `P`. -/
def Always (P : List Exchange → Except Error α → Prop) (x : Action α) : Prop :=
  ∀ xs answer, Dialogue x.run xs answer → P xs answer

variable {P : List Exchange → Except Error α → Prop} {x : Action α} {xs : List Exchange}
  {fails : Error → List Exchange → Prop} {R : α → List Exchange → Prop}

theorem always_of_yields
    (h : Yields (hearing fun e xs => P xs (.error e)) (fun a xs => P xs (.ok a)) x []) :
    Always P x := by
  intro xs answer hd
  have hanswer := Keeps.ends h (ends_said.mpr ⟨xs, rfl, hd⟩)
  cases answer with
  | ok a => exact hanswer
  | error e => exact hanswer

theorem keeps_said (p : Program Files β) (xs : List Exchange) :
    Keeps Said (fun _ _ => True) (fun b xs' => ∃ ys, xs' = xs ++ ys ∧ Dialogue p ys b) p xs :=
  (keeps_trivial p xs).and_ends.mono (fun _ _ h => h) fun _ _ h => ends_said.mp h.2

/-- What is said by an action that comes after others. -/
theorem Always.after (h : Always P x) (hok : ∀ ys a, P ys (.ok a) → R a (xs ++ ys))
    (herror : ∀ ys e, P ys (.error e) → fails e (xs ++ ys)) : Yields (hearing fails) R x xs := by
  refine Keeps.mono (keeps_said x.run xs) (fun _ _ h => h) ?_
  rintro answer _ ⟨ys, rfl, hd⟩
  cases answer with
  | ok a => exact hok ys a (h ys _ hd)
  | error e => exact herror ys e (h ys _ hd)

theorem asks_said {r : Request} {Q : Answer r → List Exchange → Prop}
    (hQ : ∀ a, Q a (xs ++ [⟨r, a⟩])) : Asks (hearing fails) r Q xs := by
  refine ⟨trivial, fun a _ hs => ?_⟩
  obtain rfl := hs
  exact hQ a

theorem comes_said {r : Request} {g : Answer r → Except IoError β} {activity : Activity}
    {path : Path} {Q : β → List Exchange → Prop}
    (hok : ∀ a b, g a = .ok b → Q b (xs ++ [⟨r, a⟩]))
    (herror : ∀ a cause, g a = .error cause → fails (.io activity path cause)
      (xs ++ [⟨r, a⟩, ⟨.caller (.log (.failed activity path cause)), ()⟩])) :
    Asks (hearing fails) r (fun a => Comes (hearing fails) activity path Q (g a)) xs := by
  refine asks_said fun a => meets_of (fun cause hg => asks_said fun _ => ?_) (hok a)
  rw [List.append_assoc]
  exact herror a cause hg

/-! ### Major events -/

/-- The major events that are noted are `marks`, and then the failure that is the end. -/
def Marks (marks : List Event) (xs : List Exchange) (failure : Option Error) : Prop :=
  ∃ events, told xs = events ++ noteOf failure ∧ events.filter Event.major = marks

variable {marks marks' : List Event} {xs ys : List Exchange} {failure : Option Error}

theorem Marks.log (h : Marks marks xs failure) (event : Event) (a : Unit) :
    Marks ((if event.major then [event] else []) ++ marks) (⟨.caller (.log event), a⟩ :: xs)
      failure := by
  obtain ⟨events, htold, rfl⟩ := h
  refine ⟨event :: events, ?_, ?_⟩
  · rw [told_log, htold, List.cons_append]
  · rw [List.filter_cons]
    split <;> rfl

theorem Marks.cons_of_ne {r : Request} (hr : ∀ event, r ≠ .caller (.log event)) (a : Answer r)
    (h : Marks marks xs failure) : Marks marks (⟨r, a⟩ :: xs) failure := by
  rwa [Marks, told_cons_of_ne hr]

theorem Marks.cons {r : Request} (hr : r.Calm) (a : Answer r) (h : Marks marks xs failure) :
    Marks marks (⟨r, a⟩ :: xs) failure := by
  by_cases hlog : ∃ event, r = .caller (.log event)
  · obtain ⟨event, rfl⟩ := hlog
    have hminor : event.major = false := hr
    have hlog := h.log event a
    rwa [hminor, if_neg nofun, List.nil_append] at hlog
  · exact h.cons_of_ne (not_exists.mp hlog) a

theorem Marks.calm (hxs : ∀ x ∈ xs, x.request.Calm) (h : Marks marks ys failure) :
    Marks marks (xs ++ ys) failure := by
  induction xs with
  | nil => exact h
  | cons x xs ih =>
    obtain ⟨hx, hxs⟩ := List.forall_mem_cons.mp hxs
    exact (ih hxs).cons hx x.answer

theorem Marks.append (h : Marks marks xs none) (h' : Marks marks' ys failure) :
    Marks (marks ++ marks') (xs ++ ys) failure := by
  obtain ⟨events, htold, rfl⟩ := h
  obtain ⟨events', htold', rfl⟩ := h'
  refine ⟨events ++ events', ?_, List.filter_append ..⟩
  rw [told_append, htold, htold', noteOf, List.append_nil, List.append_assoc]
  nofun

/-- A file was mapped into memory. -/
def IsMapped (xs : List Exchange) : Prop := ∃ file length, ⟨.map file, .ok length⟩ ∈ xs

theorem isMapped_append : IsMapped (xs ++ ys) ↔ IsMapped xs ∨ IsMapped ys := by
  simp [IsMapped, exists_or]

/-- A request that does not take a file as it is. -/
def Request.Idle (r : Request) : Prop := ∀ file, r ≠ .readMagic file ∧ r ≠ .map file

theorem Request.Calm.idle {r : Request} (h : r.Calm) : r.Idle := by
  rintro file
  constructor <;> rintro rfl <;> contradiction

theorem not_isMapped_of_idle (h : ∀ x ∈ xs, x.request.Idle) : ¬IsMapped xs := by
  rintro ⟨file, length, hmem⟩
  exact (h _ hmem file).2 rfl

/-- No major event is noted but the failure that is the end, and no file is taken as it is. -/
structure Calmly (xs : List Exchange) (failure : Option Error) : Prop where
  marks : Marks [] xs failure
  idle : ∀ x ∈ xs, x.request.Idle

theorem Calmly.cons {r : Request} (h : Calmly xs failure) (a : Answer r) (hr : r.Calm) :
    Calmly (⟨r, a⟩ :: xs) failure :=
  ⟨h.marks.cons hr a, List.forall_mem_cons.mpr ⟨hr.idle, h.idle⟩⟩

theorem calmly_nil : Calmly [] none := ⟨⟨[], rfl, rfl⟩, List.forall_mem_nil _⟩

theorem calmly_failed {activity : Activity} {path : Path} {cause : IoError} :
    Calmly [⟨.caller (.log (.failed activity path cause)), ()⟩]
      (some (.io activity path cause)) :=
  ⟨⟨[], rfl, rfl⟩, List.forall_mem_singleton.mpr (by simp [Request.Idle])⟩

theorem Calmly.append (h : Calmly xs none) (h' : Calmly ys failure) : Calmly (xs ++ ys) failure :=
  ⟨h.marks.append h'.marks, List.forall_mem_append.mpr ⟨h.idle, h'.idle⟩⟩

/-- A calm call goes on with what is so after all that is said calmly. -/
theorem comes_calmly {r : Request} (hr : r.Calm) {g : Answer r → Except IoError β}
    {activity : Activity} {path : Path} {I : List Exchange → Option Error → Prop}
    (hI : ∀ ys failure, Calmly ys failure → I (xs ++ ys) failure) :
    Asks (hearing fun e xs => I xs (some e)) r (fun a =>
      Comes (hearing fun e xs => I xs (some e)) activity path (fun _ xs => I xs none) (g a)) xs :=
  comes_said (fun a _ _ => hI _ _ (calmly_nil.cons a hr)) fun a _ _ =>
    hI _ _ (calmly_failed.cons a hr)

end

end Files

end ProofOfWork
