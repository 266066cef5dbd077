import ProofOfWork.Caller
import ProofOfWork.Dataset.Item
import ProofOfWork.Dataset.Size

/-! Generation of a whole dataset. One worker goes through the nodes in order; several workers each
take a chunk of one report's length, in any order of steps. A generation only writes nodes: where
they go, memory or a file, is left to whoever runs it. -/

namespace ProofOfWork

namespace Generation

/-- A request of a generation: to its caller, or to keep a node. -/
inductive Request
  | caller (r : Caller.Request)
  | store (index : UInt32) (node : Node)

/-- The type of the answer to a request. -/
abbrev Answer : Request → Type
  | .caller r => Caller.Answer r
  | .store .. => Unit

end Generation

/-- The requests of a generation and their answers. -/
abbrev Generation : Interface := ⟨Generation.Request, Generation.Answer⟩

instance : HasCaller Generation := ⟨fun r => .perform (I := Generation) (.caller r)⟩

namespace Generation

open Caller

variable (H : Hasher) (c : Cache)

/-- How a generation ends. -/
inductive Outcome
  | finished
  | cancelled
deriving DecidableEq

/-- Keeps a node. -/
def store (index : UInt32) (node : Node) : Program Generation Unit :=
  .perform (I := Generation) (.store index node)

/-- Generates the last `remaining` nodes of `count`, from node `n` on, with a report before every
`step`-th node. -/
def fillFrom (count step : UInt32) : (remaining : Nat) → (n : UInt32) → Program Generation Outcome
  | 0, _ => return .finished
  | remaining + 1, n => do
    if n % step = 0 then
      let percent := Dataset.percent n count
      log (.progress percent)
      if (← report percent) = .stop then
        log (.cancelledAt n)
        return .cancelled
    store n (Dataset.item H c n)
    fillFrom count step remaining (n + 1)

/-- Generates `count` nodes in order. -/
def sequential (count : UInt32) : Program Generation Outcome :=
  fillFrom H c count (Dataset.reportStep count) count.toNat 0

/-- Where a worker stands in its chunk. -/
inductive Stage
  /-- It is about to look whether the generation was stopped, before it reports. -/
  | starting
  | reporting
  /-- Its report was answered with a stop, which it is about to tell the others. -/
  | stopping
  /-- It is about to look whether the generation was stopped, before it writes a node. -/
  | checking
  | writing
deriving DecidableEq

/-- A worker that has `remaining` nodes to write, from node `next` on. -/
structure Worker where
  stage : Stage
  next : UInt32
  remaining : Nat
deriving DecidableEq

/-- The steps that a worker takes at most. -/
def Worker.steps (w : Worker) : Nat :=
  match w.stage with
  | .starting => 2 * w.remaining + 2
  | .reporting => 2 * w.remaining + 1
  | .stopping => 1
  | .checking => 2 * w.remaining
  | .writing => 2 * w.remaining - 1

/-- The steps that workers take at most. -/
def stepsLeft : List Worker → Nat
  | [] => 0
  | w :: team => w.steps + stepsLeft team

/-- One step of a worker, given whether the generation was stopped: the worker after it, unless its
work is over, and whether the generation is now stopped. -/
def Worker.advance (count : UInt32) (w : Worker) (stopped : Bool) :
    Program Generation (Option Worker × Bool) :=
  match w.stage with
  | .starting =>
    return (if stopped then none else some { w with stage := .reporting }, stopped)
  | .reporting => do
    match ← report (Dataset.percent w.next count) with
    | .goOn => return (some { w with stage := .checking }, stopped)
    | .stop => return (some { w with stage := .stopping }, stopped)
  | .stopping => return (none, true)
  | .checking =>
    return (if stopped then none else some { w with stage := .writing }, stopped)
  | .writing => do
    store w.next (Dataset.item H c w.next)
    if w.remaining ≤ 1 then return (none, stopped)
    return (some ⟨.checking, w.next + 1, w.remaining - 1⟩, stopped)

/-- Lets workers take at most `steps` steps, each time one that the caller picks. The value tells
whether the generation was stopped. -/
def runWorkers (count : UInt32) : (steps : Nat) → List Worker → (stopped : Bool) →
    Program Generation Bool
  | 0, _, stopped => return stopped
  | _, [], stopped => return stopped
  | steps + 1, w :: others, stopped => do
    let k ← pick others.length
    let (left, stopped) ← ((w :: others).get k).advance H c count stopped
    match left with
    | some worker => runWorkers count steps ((w :: others).set k worker) stopped
    | none => runWorkers count steps ((w :: others).eraseIdx k) stopped

/-- The workers for `count` nodes, each with a chunk of `step` nodes but the last. -/
def workers (count step : UInt32) : List Worker :=
  (List.range ((count.toNat + step.toNat - 1) / step.toNat)).map fun i =>
    let first := i * step.toNat
    ⟨.starting, first.toUInt32, min step.toNat (count.toNat - first)⟩

/-- Generates `count` nodes by several workers. -/
def parallel (count : UInt32) : Program Generation Outcome := do
  let team := workers count (Dataset.reportStep count)
  let stopped ← runWorkers H c count (stepsLeft team) team false
  if stopped then
    log .cancelled
    return .cancelled
  return .finished

/-- Generates `count` nodes by one worker or several. -/
def nodes (inParallel : Bool) (count : UInt32) : Program Generation Outcome :=
  if inParallel then parallel H c count else sequential H c count

end Generation

namespace Dataset

/-- A memory with node `index` written to it, as far as the memory reaches. -/
def setNode (memory : ByteArray) (index : UInt32) (node : Node) : ByteArray :=
  let offset := Params.nodeBytes * index.toNat
  if offset + Params.nodeBytes ≤ memory.size then
    node.bytes.bytes.copySlice 0 memory offset Params.nodeBytes
  else memory

/-- Runs a generation whose nodes go into a memory of some kind by way of `put`. -/
def keepBy {σ : Type} (put : σ → UInt32 → Node → σ) :
    (r : Generation.Request) → StateT σ (Program Caller) (Generation.Answer r)
  | .caller r => fun memory => do
    let answer ← Program.perform (I := Caller) r
    return (answer, memory)
  | .store index node => fun memory => return ((), put memory index node)

/-- Fills a memory with the dataset of its size. The memory that is left is also given if the
generation is cancelled or the size is not accepted. -/
def fill (H : Hasher) (c : Cache) (inParallel : Bool) (memory : ByteArray) :
    Program Caller (Except Error Unit × ByteArray) :=
  match nodeCount memory.size with
  | .error e => return (.error (.invalid e), memory)
  | .ok count => do
    let (outcome, memory) ←
      (Generation.nodes H c inParallel count).run (I := Generation) (keepBy setNode) memory
    match outcome with
    | .finished => return (.ok (), memory)
    | .cancelled => return (.error .cancelled, memory)

end Dataset

end ProofOfWork
