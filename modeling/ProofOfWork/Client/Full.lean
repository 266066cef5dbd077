import ProofOfWork.Client.Light
import ProofOfWork.DagFile.Nodes
import ProofOfWork.DagFile.Prepare
import ProofOfWork.Dataset.Generation
import ProofOfWork.Text.Quoted

/-! Full clients, which hold a whole dataset, in memory or in a DAG file that is mapped into memory. -/

namespace ProofOfWork

/-- Where a dataset is. -/
inductive Storage
  /-- In the first `length` bytes of a file, after the magic number. -/
  | mapped (file : Handle) (path : Path) (length : Nat)
  | memory (dataset : ByteArray)

/-- A dataset of `size` bytes with the client for its cache. -/
structure FullClient where
  storage : Storage
  size : UInt64
  light : LightClient

/-- A full client that could not be had. The light client for it is handed back. -/
structure FullError where
  light : LightClient
  cause : Error

def FullError.message (e : FullError) : String :=
  "Could not build full DAG handle: " ++ e.cause.message

/-- How a DAG file is opened and its dataset generated. -/
structure FullOptions where
  /-- The directory for the file, if it is not the default one. -/
  dir : Option Path
  /-- Whether the file is made anew even if there is one of use. -/
  force : Bool
  /-- Whether several workers generate the dataset. -/
  parallel : Bool
deriving DecidableEq

namespace FullClient

open Files Caller

variable (H : Hasher)

/-- Runs a generation with its nodes stored in a mapped file, after the magic number. -/
def intoFile (file : Handle) : (r : Generation.Request) → Program Files (Generation.Answer r)
  | .caller r => perform (.caller r)
  | .store index node => perform (.store file (DagFile.nodeStart index) node.bytes.bytes)

/-- Notes the start and the success of a generation in the log. -/
def noted {I : Interface} [HasCaller I] (bytes : Nat) (parallel : Bool)
    (generation : Program I Generation.Outcome) : Program I (Except Error Unit) := do
  log (.generating bytes parallel)
  match ← generation with
  | .finished =>
    log .generated
    return .ok ()
  | .cancelled => return .error .cancelled

/-- Opens the DAG file, and a second time to make it anew if it is of no use. The value tells whether
the dataset in it is to be used as it is. -/
def openFile (place : DagFile.Place) (size : UInt64) (force : Bool) : Action (Handle × Bool) := do
  match ← DagFile.prepare place size force with
  | .found file => return (file, true)
  | .created file => return (file, false)
  | .stale reason =>
    log (I := Files) (.stale place.path reason)
    match ← DagFile.prepare place size true with
    | .created file => return (file, false)
    | other => fail .recreating place.path (.other .other other.debug)

/-- Generates a dataset of `count` nodes into a mapped file and then marks the file as complete. -/
def fillFile (c : Cache) (parallel : Bool) (count : UInt32) (file : Handle) (path : Path) :
    Action Unit := do
  let generation : Program Files Generation.Outcome :=
    (Generation.nodes H c parallel count).run (I := Generation) (intoFile file)
  ExceptT.mk (noted (count.toNat * Params.nodeBytes) parallel generation)
  orFail .flushingContents path (← perform (.sync file))
  perform (.store file 0 DagFile.magicBytes.bytes)
  orFail .writingMagic path (← perform (.sync file))

/-- The dataset of `size` bytes in a DAG file, which is opened or made. -/
def mapFile (place : DagFile.Place) (size : UInt64) (c : Cache) (options : FullOptions) :
    Action Storage := do
  let count ← ExceptT.mk (pure (orInvalid (Dataset.nodeCount size.toNat)))
  let path := place.path
  let (file, reuse) ← openFile place size options.force
  orFail .resizing path (← perform (.setLength file (size + Params.magicBytes.toUInt64)))
  let length ← orFail .mapping path (← perform (.map file))
  if reuse then log (I := Files) (.reusing path)
  else fillFile H c options.parallel count file path
  return .mapped file path length

/-- A client whose dataset of an explicit size is in a DAG file. The directory is that of `place`,
not that of the options. -/
def inFile (place : DagFile.Place) (size : UInt64) (light : LightClient) (options : FullOptions) :
    Program Files (Except FullError FullClient) := do
  match ← (mapFile H place size light.cache options).run with
  | .ok storage => return .ok ⟨storage, size, light⟩
  | .error cause => return .error ⟨light, cause⟩

/-- A client for the epoch of a light client, whose dataset is in a DAG file in the directory of the
options or in the default one. -/
def ofEpoch (join : Path → String → Path) (defaultDir : Option Path) (light : LightClient)
    (options : FullOptions) : Program Files (Except FullError FullClient) :=
  match light.epochBlock, options.dir.or defaultDir with
  | .error e, _ => return .error ⟨light, .invalid e⟩
  | .ok _, none => return .error ⟨light, .noDefaultDirectory⟩
  | .ok block, some dir =>
    inFile H ⟨join, dir, Params.revision, light.seed⟩ (Epoch.datasetSize block) light options

/-- The bytes of a dataset with node `index` written to them. -/
def putNode (dataset : Contents) (index : UInt32) (node : Node) : Contents :=
  dataset.write (Params.nodeBytes * index.toNat) node.bytes.bytes

/-- A dataset of `size` bytes in memory. Until it is finished only the nodes so far take up memory. -/
def fillMemory (size : UInt64) (c : Cache) (parallel : Bool) :
    Program Caller (Except Error ByteArray) :=
  match Dataset.nodeCount size.toNat with
  | .error e => return .error (.invalid e)
  | .ok count => do
    log (.generating size.toNat parallel)
    let generation := Generation.nodes H c parallel count
    let (outcome, dataset) ←
      generation.run (I := Generation) (Dataset.keepBy putNode) (Contents.empty.resize size.toNat)
    match outcome with
    | .finished =>
      log .generated
      return .ok (dataset.read 0 size.toNat)
    | .cancelled => return .error .cancelled

/-- A client whose dataset of an explicit size is in memory. -/
def inMemoryWithSize (size : UInt64) (light : LightClient) (parallel : Bool) :
    Program Caller (Except FullError FullClient) := do
  match ← fillMemory H size light.cache parallel with
  | .ok dataset => return .ok ⟨.memory dataset, size, light⟩
  | .error cause => return .error ⟨light, cause⟩

/-- A client for the epoch of a light client, whose dataset is in memory. -/
def inMemory (light : LightClient) (parallel : Bool) :
    Program Caller (Except FullError FullClient) :=
  match light.epochBlock with
  | .ok block => inMemoryWithSize H (Epoch.datasetSize block) light parallel
  | .error e => return .error ⟨light, .invalid e⟩

variable {H}

/-- The bytes of the dataset. In a mapped file they are what the file holds now. -/
def dag (f : FullClient) (d : Disk) : ByteArray :=
  match f.storage with
  | .memory dataset => dataset
  | .mapped file _ length => d.mapped file Params.magicBytes length

/-- The number of bytes of the dataset as it is in memory. -/
def dagSize (f : FullClient) : Nat :=
  match f.storage with
  | .memory dataset => dataset.size
  | .mapped _ _ length => length - Params.magicBytes

/-- Node `index` of the dataset, if it has one. The rest of the dataset is not looked at. -/
def node? (f : FullClient) (d : Disk) (index : UInt32) : Option Node :=
  match f.storage with
  | .memory dataset => Hashimoto.nodeAt? dataset index
  | .mapped file _ length =>
    let start := DagFile.nodeStart index
    if start + Params.nodeBytes ≤ length then some (d.loadNode file start) else none

variable (H) in
/-- The hash over the dataset, if the dataset reaches as far as the hash looks. -/
def compute (f : FullClient) (d : Disk) (header : Hash256) (nonce : UInt64) :
    Except Invalid (Option PowHash) := do
  return (← Hashimoto.program H f.dagSize header nonce).run (m := Option) (f.node? d)

/-- The path of the DAG file, if the dataset is in one. -/
def path? (f : FullClient) : Option Path :=
  match f.storage with
  | .mapped _ path _ => some path
  | .memory _ => none

/-- The text that shows a client to a developer. -/
def debug (f : FullClient) : String :=
  let path :=
    match f.path? with
    | some path => "Some(" ++ Text.quoted path.text ++ ")"
    | none => "None"
  "Full \x7b full_size: " ++ toString f.size.toNat ++ ", path: " ++ path ++ ", light: " ++
    f.light.debug ++ " \x7d"

end FullClient

end ProofOfWork
