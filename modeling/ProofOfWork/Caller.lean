import ProofOfWork.Event
import ProofOfWork.Program

/-! What a long computation asks of its caller: to hear how far it has come and to say whether to go
on, to note events, and, where several workers could take the next step, to say which one does. -/

namespace ProofOfWork

/-- Whether a computation is to go on. -/
inductive Verdict
  | goOn
  | stop
deriving DecidableEq

namespace Caller

/-- A request to the caller. -/
inductive Request
  /-- The computation has come as far as `percent`. -/
  | report (percent : UInt32)
  | log (event : Event)
  /-- One of `others + 1` workers is to take a step. -/
  | pick (others : Nat)

/-- The type of the answer to a request. -/
abbrev Answer : Request → Type
  | .report _ => Verdict
  | .log _ => Unit
  | .pick others => Fin (others + 1)

end Caller

/-- The requests to the caller and their answers. -/
abbrev Caller : Interface := ⟨Caller.Request, Caller.Answer⟩

/-- A surrounding that passes on what a computation asks of its caller. -/
class HasCaller (I : Interface) where
  ask (r : Caller.Request) : Program I (Caller.Answer r)

instance : HasCaller Caller := ⟨fun r => .perform (I := Caller) r⟩

namespace Caller

variable {I : Interface} [HasCaller I]

/-- Tells the caller how far the computation has come. -/
def report (percent : UInt32) : Program I Verdict := HasCaller.ask (.report percent)

/-- Notes an event. -/
def log (event : Event) : Program I Unit := HasCaller.ask (.log event)

/-- Lets the caller choose one of `others + 1` workers. -/
def pick (others : Nat) : Program I (Fin (others + 1)) := HasCaller.ask (.pick others)

end Caller

end ProofOfWork
