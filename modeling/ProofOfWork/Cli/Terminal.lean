import ProofOfWork.Cli.Report

/-! What a command asks of the system it runs on. -/

namespace ProofOfWork.Cli

namespace Terminal

inductive Request
  /-- Writes to the standard output. -/
  | out (text : String)
  /-- Writes to the standard error output. -/
  | err (text : String)
  /-- The milliseconds since some moment in the past. -/
  | clock
  | files (r : Files.Request)
  /-- Reads a node in the memory of a mapped file. -/
  | load (file : Handle) (offset : Nat)

/-- The type of the answer to a request. -/
abbrev Answer : Request → Type
  | .out _ => Unit
  | .err _ => Unit
  | .clock => Nat
  | .files r => Files.Answer r
  | .load .. => Node

end Terminal

/-- The requests of commands and their answers. -/
abbrev Terminal : Interface := ⟨Terminal.Request, Terminal.Answer⟩

namespace Terminal

def perform (r : Request) : Program Terminal (Answer r) := .perform (I := Terminal) r

def out (text : String) : Program Terminal Unit := perform (.out text)

def err (text : String) : Program Terminal Unit := perform (.err text)

def clock : Program Terminal Nat := perform .clock

/-- Prints the progress of a generation, unless output is to be quiet, and never stops it. -/
def report (colour quiet : Bool) (percent : UInt32) : Program Terminal Verdict := do
  if !quiet then err (progressLine colour percent)
  return .goOn

/-- Passes on what a computation asks of its caller. Reports of progress are printed. -/
def serveCaller (colour quiet : Bool) : (r : Caller.Request) → Program Terminal (Caller.Answer r)
  | .report percent => report colour quiet percent
  | .log event => perform (.files (.caller (.log event)))
  | .pick others => perform (.files (.caller (.pick others)))

/-- Passes on what a computation asks of the file system. -/
def serveFiles (colour quiet : Bool) (r : Files.Request) : Program Terminal (Files.Answer r) :=
  match r with
  | .caller r => serveCaller colour quiet r
  | r => perform (.files r)

end Terminal

end ProofOfWork.Cli
