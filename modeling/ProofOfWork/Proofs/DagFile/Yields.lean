import ProofOfWork.DagFile.Files
import ProofOfWork.Proofs.Serving

/-! What an action over files comes to, in surroundings that may answer in more than one way: what is
true of its value when it succeeds, and of its error when it fails. -/

namespace ProofOfWork.Files

open Program

/-- The terms on which actions are run: who answers, which requests may be made, and which errors an
action may end with. -/
structure Terms (σ : Type) where
  serving : Serving Files σ
  allows : Request → σ → Prop
  fails : Error → σ → Prop

/-- Terms on which any request may be made. -/
def Terms.of {σ : Type} (W : Serving Files σ) (fails : Error → σ → Prop) : Terms σ :=
  ⟨W, fun _ _ => True, fails⟩

variable {σ ε α β : Type}

/-- An answer is a value with `Q`, or an error with `E`. -/
def Meets (E : ε → σ → Prop) (Q : β → σ → Prop) : Except ε β → σ → Prop
  | .ok b, s => Q b s
  | .error e, s => E e s

/-- On the terms `T`, `x` ends with a value and in a state with `R`, or fails. -/
def Yields (T : Terms σ) (R : α → σ → Prop) (x : Action α) (s : σ) : Prop :=
  Keeps T.serving T.allows (Meets T.fails R) x.run s

/-- A request may be made, and is answered so that `Q` is true. -/
def Asks (T : Terms σ) (r : Request) (Q : Answer r → σ → Prop) (s : σ) : Prop :=
  T.allows r s ∧ ∀ a s', T.serving r s a s' → Q a s'

/-- An event may be noted, and `Q` is true then. -/
abbrev Notes (T : Terms σ) (event : Event) (Q : σ → Prop) (s : σ) : Prop :=
  Asks T (.caller (.log event)) (fun _ => Q) s

/-- The failure of an activity may be noted and be the end. -/
def Fails (T : Terms σ) (activity : Activity) (path : Path) (cause : IoError) (s : σ) : Prop :=
  Notes T (.failed activity path cause) (T.fails (.io activity path cause)) s

/-- The answer to a call is a value with `Q`, or else the activity may fail. -/
abbrev Comes (T : Terms σ) (activity : Activity) (path : Path) (Q : β → σ → Prop) :
    Except IoError β → σ → Prop := Meets (Fails T activity path) Q

variable {T : Terms σ} {R : α → σ → Prop} {Q : β → σ → Prop} {s : σ}

theorem meets_of {E : ε → σ → Prop} {answer : Except ε β} (hE : ∀ e, answer = .error e → E e s)
    (hQ : ∀ b, answer = .ok b → Q b s) : Meets E Q answer s := by
  cases answer with
  | ok b => exact hQ b rfl
  | error e => exact hE e rfl

theorem Meets.mono {E E' : ε → σ → Prop} {Q' : β → σ → Prop} {answer : Except ε β}
    (h : Meets E Q answer s) (hE : ∀ e, E e s → E' e s) (hQ : ∀ b, Q b s → Q' b s) :
    Meets E' Q' answer s := by
  cases answer with
  | ok b => exact hQ b h
  | error e => exact hE e h

theorem Meets.ok {E : ε → σ → Prop} {answer : Except ε β} {b : β} (h : Meets E Q answer s)
    (hb : answer = .ok b) : Q b s := by
  rw [hb] at h
  exact h

theorem Meets.error {E : ε → σ → Prop} {answer : Except ε β} {e : ε} (h : Meets E Q answer s)
    (he : answer = .error e) : E e s := by
  rw [he] at h
  exact h

theorem Asks.mono {r : Request} {P P' : Answer r → σ → Prop} (h : Asks T r P s)
    (hP : ∀ a s', P a s' → P' a s') : Asks T r P' s :=
  ⟨h.1, fun a s' hs => hP a s' (h.2 a s' hs)⟩

theorem Asks.comes {r : Request} {g : Answer r → Except IoError β} {activity : Activity} {path : Path}
    {Q' : β → σ → Prop} (h : Asks T r (fun a => Comes T activity path Q (g a)) s)
    (hQ : ∀ b s', Q b s' → Q' b s') : Asks T r (fun a => Comes T activity path Q' (g a)) s :=
  h.mono fun _ s' hanswer => hanswer.mono (fun _ h => h) (hQ · s')

theorem Yields.pure {a : α} (h : R a s) : Yields T R (Pure.pure a) s := h

theorem Yields.bind {x : Action β} {f : β → Action α} (h : Yields T Q x s)
    (hf : ∀ b s', Q b s' → Yields T R (f b) s') : Yields T R (x >>= f) s := by
  refine Keeps.bind h fun answer s' hanswer => ?_
  cases answer with
  | ok b => exact hf b s' hanswer
  | error e => exact hanswer

theorem Yields.mono {R' : α → σ → Prop} {x : Action α} (h : Yields T R x s)
    (hR : ∀ a s', R a s' → R' a s') : Yields T R' x s :=
  Keeps.mono h (fun _ _ hr => hr) fun _ s' hanswer => hanswer.mono (fun _ h => h) (hR · s')

/-- What `x` comes to wherever it is run. -/
theorem Yields.and {R' : α → σ → Prop} {x : Action α} (h : Yields T R x s)
    (h' : Yields (.of T.serving fun _ _ => True) R' x s) :
    Yields T (fun a s => R a s ∧ R' a s) x s := by
  refine (Keeps.and h h').mono (fun _ _ hr => hr.1) fun answer s' hanswer => ?_
  cases answer with
  | ok a => exact hanswer
  | error e => exact hanswer.1

theorem Yields.ask {r : Request} {P : Answer r → σ → Prop} {f : Answer r → Action α}
    (h : Asks T r P s) (hf : ∀ a s', P a s' → Yields T R (f a) s') :
    Yields T R (liftM (perform r) >>= f) s :=
  ⟨h.1, fun a s' hs => hf a s' (h.2 a s' hs)⟩

theorem Yields.note {event : Event} {P : σ → Prop} {f : Unit → Action α} (h : Notes T event P s)
    (hf : ∀ s', P s' → Yields T R (f ()) s') :
    Yields T R (liftM (Caller.log (I := Files) event) >>= f) s :=
  Yields.ask (r := .caller (.log event)) h fun _ s' => hf s'

theorem Yields.fail {activity : Activity} {path : Path} {cause : IoError}
    (h : Fails T activity path cause s) : Yields T R (Files.fail activity path cause) s :=
  Yields.note h fun _ hfails => hfails

theorem Yields.orFail {activity : Activity} {path : Path} {answer : Except IoError β}
    (h : Comes T activity path Q answer s) : Yields T Q (Files.orFail activity path answer) s := by
  cases answer with
  | ok b => exact h
  | error cause => exact Yields.fail h

/-- A call whose failure is that of the action. -/
theorem Yields.call {r : Request} {g : Answer r → Except IoError β} {activity : Activity}
    {path : Path} {f : β → Action α} (h : Asks T r (fun a => Comes T activity path Q (g a)) s)
    (hf : ∀ b s', Q b s' → Yields T R (f b) s') :
    Yields T R (liftM (perform r) >>= fun a => Files.orFail activity path (g a) >>= f) s :=
  Yields.ask h fun _ _ hcomes => (Yields.orFail hcomes).bind hf

/-! ### Surroundings that are a function -/

section

variable {serve : (r : Request) → StateM σ (Answer r)} {E : Error → σ → Prop} {x : Action α}

theorem Yields.of_run_eq_ok (h : Yields (.of (.of serve) E) R x s) {a : α}
    (ha : (x.run.run serve s).1 = .ok a) : R a (x.run.run serve s).2 :=
  (Keeps.run h).ok ha

theorem Yields.exists_run_eq_ok (h : Yields (.of (.of serve) fun _ _ => False) R x s) :
    ∃ a, (x.run.run serve s).1 = .ok a ∧ R a (x.run.run serve s).2 := by
  cases ha : (x.run.run serve s).1 with
  | ok a => exact ⟨a, rfl, h.of_run_eq_ok ha⟩
  | error e => exact ((Keeps.run h).error ha).elim

end

end ProofOfWork.Files
