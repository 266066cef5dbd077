import ProofOfWork.Cli.Terminal
import ProofOfWork.Surroundings

/-! A terminal that is a value: what is printed is kept, files are on a disk that is a value, and no
time passes. -/

namespace ProofOfWork.Cli

/-- What was printed, and the surroundings it was printed in. -/
structure Transcript where
  out : String
  err : String
  around : Surroundings

namespace Transcript

/-- A computation that prints. -/
abbrev Printing (α : Type) := StateM Transcript α

/-- Serves the requests of commands. -/
def serve : (r : Terminal.Request) → Printing (Terminal.Answer r)
  | .out text => modify fun t => { t with out := t.out ++ text }
  | .err text => modify fun t => { t with err := t.err ++ text }
  | .clock => return 0
  | .files r => fun t =>
    let (answer, around) := (Surroundings.serveFiles (fun _ => .goOn) r).run t.around
    (answer, { t with around })
  | .load file offset => return (← get).around.disk.loadNode file offset

end Transcript

end ProofOfWork.Cli
