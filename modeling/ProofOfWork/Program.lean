/-! Programs that ask their surroundings. A program is a tree of requests: what it does next depends
only on the answers so far. The same program is run over a pure state, over a terminal, or over
every answer that surroundings of some kind may give. -/

namespace ProofOfWork

/-- The requests that a kind of program makes, and the type of the answer to each. -/
structure Interface where
  Request : Type
  Answer : Request → Type

/-- A program that ends in an `α`. -/
inductive Program (I : Interface) (α : Type) : Type
  | done (value : α)
  | ask (request : I.Request) (next : I.Answer request → Program I α)

namespace Program

variable {I J : Interface} {α β γ : Type}

/-- The program that makes one request and ends in its answer. -/
def perform (request : I.Request) : Program I (I.Answer request) := .ask request .done

/-- `p`, and then the program that its value selects. -/
def bind : Program I α → (α → Program I β) → Program I β
  | .done a, f => f a
  | .ask r next, f => .ask r fun answer => (next answer).bind f

instance : Monad (Program I) where
  pure := .done
  bind := bind

@[simp] theorem pure_eq_done (a : α) : (pure a : Program I α) = .done a := rfl

@[simp] theorem done_bind (a : α) (f : α → Program I β) : (Program.done a >>= f) = f a := rfl

@[simp] theorem ask_bind (r : I.Request) (next : I.Answer r → Program I α)
    (f : α → Program I β) :
    (Program.ask r next >>= f) = .ask r fun answer => next answer >>= f := rfl

theorem bind_done (p : Program I α) : (p >>= Program.done) = p := by
  induction p with
  | done a => rfl
  | ask r next ih => simp only [ask_bind, ih]

theorem bind_assoc (p : Program I α) (f : α → Program I β) (g : β → Program I γ) :
    (p >>= f >>= g) = p >>= fun a => f a >>= g := by
  induction p with
  | done a => rfl
  | ask r next ih => simp only [ask_bind, ih]

instance : LawfulMonad (Program I) :=
  LawfulMonad.mk' (Program I) bind_done (fun _ _ => rfl) bind_assoc

/-- The effect of a program when `answer` serves its requests. -/
@[specialize] def run {m : Type → Type} [Monad m] (answer : (r : I.Request) → m (I.Answer r)) :
    Program I α → m α
  | .done a => pure a
  | .ask r next => do (next (← answer r)).run answer

@[simp] theorem run_done {m : Type → Type} [Monad m] (answer : (r : I.Request) → m (I.Answer r))
    (a : α) : (Program.done a).run answer = pure a := rfl

theorem run_ask {m : Type → Type} [Monad m] (answer : (r : I.Request) → m (I.Answer r))
    (r : I.Request) (next : I.Answer r → Program I α) :
    (Program.ask r next).run answer = (do (next (← answer r)).run answer) := rfl

theorem run_bind {m : Type → Type} [Monad m] [LawfulMonad m]
    (answer : (r : I.Request) → m (I.Answer r)) (p : Program I α) (f : α → Program I β) :
    (p >>= f).run answer = p.run answer >>= fun a => (f a).run answer := by
  induction p with
  | done a => simp
  | ask r next ih => simp [run_ask, ih]

/-- The value of a program whose requests have fixed answers. -/
def eval (answer : (r : I.Request) → I.Answer r) (p : Program I α) : α :=
  Id.run (p.run answer)

end Program

end ProofOfWork
