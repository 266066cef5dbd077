import ProofOfWork.Cli.Parse
import ProofOfWork.Cli.Terminal

/-! Running a command. A failure ends it and is printed; otherwise its report is. -/

namespace ProofOfWork.Cli

/-- Why a command fails. -/
inductive Failure
  | badValue (e : BadValue)
  | library (e : Error)
  | buildingCache (block : UInt64) (e : Error)
  | preparingDag (block : UInt64) (e : Error)
deriving DecidableEq

/-- The text of an error, and what lies behind it if that is an error of its own. -/
def withCause (e : Error) : String :=
  match e with
  | .io _ _ cause => e.message ++ ": " ++ cause.message
  | _ => e.message

def Failure.message : Failure → String
  | badValue e => e.message
  | library e => withCause e
  | buildingCache block e =>
    "building cache for block " ++ toString block.toNat ++ ": " ++ withCause e
  | preparingDag block e =>
    "preparing DAG for block " ++ toString block.toNat ++ ": " ++ withCause e

/-- What commands share: the hash functions, whether text is coloured, whether it is left out, and
the directory for DAG files that is used when none is named. -/
structure Context where
  hasher : Hasher
  colour : Bool
  quiet : Bool
  defaultDir : Option Path

/-- A command under way. -/
abbrev Work (α : Type) := ExceptT Failure (Program Terminal) α

/-- The value of a computation, or a failure. -/
def orFailure {ε α : Type} (failure : ε → Failure) (result : Except ε α) : Work α :=
  ExceptT.mk (pure (result.mapError failure))

/-- The failure of a computation with parameters that are not accepted. -/
def refused (e : Invalid) : Failure := .library (.invalid e)

/-- The report on the seed of a block. -/
def seedReport (H : Hasher) (block : UInt64) : Except Failure Report := do
  let _ ← (Epoch.check block).mapError refused
  return .seed block (Epoch.seed H block)

/-- The report on the sizes for a block. -/
def sizesReport (H : Hasher) (block : UInt64) : Except Failure Report :=
  ((EpochInfo.ofBlock? H block).mapError refused).map (.sizes block)

/-- The report on the hash that a claimed mix digest leads to. -/
def checkReport (H : Hasher) (header nonce mix : String) (goal : Goal) : Except BadValue Report := do
  let header ← readHash header
  let nonce ← readNonce nonce
  let mix ← readHash mix
  let result := Target.quickHash H header nonce mix
  return .check result (← goal.verdict result)

namespace Context

variable (c : Context)

/-- Builds the light client of a block. -/
def buildLight (block : UInt64) : Work LightClient := do
  if !c.quiet then Terminal.out ((cacheRow (Epoch.cacheSize block)).render c.colour)
  let client : Program Terminal (Except Error LightClient) :=
    (LightClient.ofBlock c.hasher block).run (I := Caller) (Terminal.serveCaller c.colour c.quiet)
  orFailure (.buildingCache block) (← client)

/-- Builds the full client of a block. -/
def buildFull (block : UInt64) (options : FullOptions) : Work FullClient := do
  let light ← c.buildLight block
  let client : Program Terminal (Except FullError FullClient) :=
    (FullClient.ofEpoch c.hasher Path.join c.defaultDir light options).run (I := Files)
      (Terminal.serveFiles c.colour c.quiet)
  orFailure (fun e => .preparingDag block e.cause) (← client)

/-- A node of a full client's dataset. -/
def node (client : FullClient) (index : UInt32) : Program Terminal Node :=
  match client.storage with
  | .memory dataset => return (Hashimoto.nodeAt? dataset index).getD .zero
  | .mapped file _ _ => Terminal.perform (.load file (DagFile.nodeStart index))

/-- The hash over a full client's dataset. -/
def fullHash (client : FullClient) (header : Hash256) (nonce : UInt64) : Work PowHash := do
  let program ← orFailure refused (Hashimoto.program c.hasher client.dagSize header nonce)
  let hash : Program Terminal PowHash := program.run (I := NodeLookup) (node client)
  hash

/-- The report on a hash that was asked for at the moment `started`. -/
def hashReport (request : HashRequest) (nonce : UInt64) (hash : PowHash) (started : Nat) :
    Work Report := do
  let meets ← orFailure .badValue (request.goal.verdict hash.result)
  return .hash request.block nonce hash meets ((← Terminal.clock) - started)

/-- The header and the nonce of a request. -/
def input (request : HashRequest) : Work (Hash256 × UInt64) :=
  orFailure .badValue do return (← readHash request.header, ← readNonce request.nonce)

/-- Computes a hash from the cache. -/
def light (request : HashRequest) : Work Report := do
  let (header, nonce) ← input request
  let started ← Terminal.clock
  let client ← c.buildLight request.block
  let hash ← orFailure refused (client.compute c.hasher header nonce)
  hashReport request nonce hash started

/-- Computes a hash from the DAG file. -/
def full (request : HashRequest) (options : FullOptions) : Work Report := do
  let (header, nonce) ← input request
  let started ← Terminal.clock
  let client ← c.buildFull request.block options
  hashReport request nonce (← c.fullHash client header nonce) started

/-- Makes a DAG file, if there is none of use. -/
def makedag (block : UInt64) (options : FullOptions) : Work Report := do
  let started ← Terminal.clock
  let client ← c.buildFull block options
  return .dag block client.path? client.size ((← Terminal.clock) - started)

/-- Does what a command asks for. -/
def perform : Command → Work Report
  | .seedhash block => orFailure id (seedReport c.hasher block)
  | .sizes block => orFailure id (sizesReport c.hasher block)
  | .light request => c.light request
  | .makedag block options => c.makedag block options
  | .full request options => c.full request options
  | .check header nonce mix goal => orFailure .badValue (checkReport c.hasher header nonce mix goal)

end Context

/-- Runs a command, and answers the exit code. Colours are used if the system has them and the
command does not refuse them. -/
def Args.run (args : Args) (hasher : Hasher) (colours : Bool) (defaultDir : Option Path) :
    Program Terminal UInt32 := do
  let colour := colours && !args.noColor
  if !args.json then Terminal.out (banner colour)
  match ← (Context.perform ⟨hasher, colour, args.json, defaultDir⟩ args.command).run with
  | .ok report =>
    Terminal.out (report.render args.json colour)
    return 0
  | .error e =>
    Terminal.err (Role.failure.paint colour "Error:" ++ " " ++ e.message ++ "\n")
    return 1

/-- How the program is used. -/
def usage : String :=
  let lines := CommandName.all.map fun name =>
    let options := name.options.map fun o => "[--" ++ o.name ++ "]"
    "  " ++ programName ++ " " ++ name.text ++ " " ++ " ".intercalate options ++ "\n"
  "Usage:\n" ++ String.join lines

/-- Runs the program with the arguments of the command line, and answers the exit code. -/
def start (arguments : List String) (hasher : Hasher) (colours : Bool) (defaultDir : Option Path) :
    Program Terminal UInt32 := do
  match Args.parse arguments with
  | .ok args => args.run hasher colours defaultDir
  | .error .help =>
    Terminal.out usage
    return 0
  | .error .version =>
    Terminal.out (programName ++ " " ++ programVersion ++ "\n")
    return 0
  | .error (.misused e) =>
    Terminal.err ("error: " ++ e.message ++ "\n\n" ++ usage)
    return 2

end ProofOfWork.Cli
