import ProofOfWork.Cli.Run
import ProofOfWork.Surroundings

/-! The program. Its requests are served by the system, except that the bytes of an open file are
held in memory, and written to the file when it is flushed or synced. -/

namespace ProofOfWork.Main

/-- The files that were opened, by number: their bytes, and where they are. -/
structure OpenFiles where
  around : Surroundings
  paths : Array Path

/-- What an error of the system means. -/
def meaning (e : IO.Error) : IoError :=
  match e with
  | .noFileOrDirectory .. => .os .noEntry
  | .permissionDenied .. => .os .accessDenied
  | .alreadyExists .. => .os .alreadyExists
  | .resourceExhausted .. => .os .noSpace
  | e => .other .other (toString e)

/-- The answer of a call to the system. -/
def attempt {α : Type} (call : IO α) : IO (Except IoError α) := do
  match ← call.toBaseIO with
  | .ok a => return .ok a
  | .error e => return .error (meaning e)

/-- Enters a file that was opened. -/
def enter (files : IO.Ref OpenFiles) (path : Path) (bytes : ByteArray) : IO Handle :=
  files.modifyGet fun ⟨⟨disk, reports, log⟩, paths⟩ =>
    let disk := { disk with contents := disk.contents.push (.ofBytes bytes) }
    (⟨.file paths.size, true, true⟩, ⟨⟨disk, reports, log⟩, paths.push path⟩)

/-- Writes the bytes of a file that was opened. -/
def save (files : IO.Ref OpenFiles) (file : Handle) : IO Unit := do
  let now ← files.get
  if let .file id := file.referent then
    if let some path := now.paths[id]? then
      let contents := now.around.disk.file id
      IO.FS.writeBinFile path.text (contents.read 0 contents.size)

/-- Serves a request to the file system. -/
def serveFiles (files : IO.Ref OpenFiles) (debug : Bool) (r : Files.Request) :
    IO (Files.Answer r) :=
  match r with
  | .caller (.log event) => do if event.level ≠ .debug ∨ debug then IO.eprintln event.line
  | .makeDirectory dir => attempt (IO.FS.createDirAll dir.text)
  | .openExisting path => attempt do enter files path (← IO.FS.readBinFile path.text)
  | .create path => attempt do
    IO.FS.writeBinFile path.text .empty
    enter files path .empty
  | .flush file => attempt (save files file)
  | .sync file => attempt (save files file)
  | r => files.modifyGet fun ⟨around, paths⟩ =>
    let (answer, around) := (Surroundings.serveFiles (fun _ => .goOn) r).run around
    (answer, ⟨around, paths⟩)

/-- Serves a request of a command. -/
def serve (files : IO.Ref OpenFiles) (debug : Bool) :
    (r : Cli.Terminal.Request) → IO (Cli.Terminal.Answer r)
  | .out text => do
    let out ← IO.getStdout
    out.putStr text
    out.flush
  | .err text => IO.eprint text
  | .clock => IO.monoMsNow
  | .files r => serveFiles files debug r
  | .load file offset => return (← files.get).around.disk.loadNode file offset

end ProofOfWork.Main

open ProofOfWork in
/-- Runs the program. -/
def main (arguments : List String) : IO UInt32 := do
  let wish : Cli.ColourWish :=
    ⟨← IO.getEnv "CLICOLOR", ← IO.getEnv "CLICOLOR_FORCE", ← IO.getEnv "NO_COLOR",
      ← (← IO.getStdout).isTty⟩
  let home ← IO.getEnv "HOME"
  let defaultDir := (home.filter (· ≠ "")).map fun home => DagFile.defaultDirectory ⟨home⟩
  let debug := ((Cli.Args.parse arguments).toOption.map Cli.Args.debug).getD false
  let files ← IO.mkRef (⟨⟨.scratch "", #[], #[]⟩, #[]⟩ : Main.OpenFiles)
  (Cli.start arguments .keccak wish.granted defaultDir).run (I := Cli.Terminal)
    (Main.serve files debug)
