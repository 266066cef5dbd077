import ProofOfWork.DagFile.Stale
import ProofOfWork.Error
import ProofOfWork.Text.Shortest

/-! What the library tells its log. -/

namespace ProofOfWork

/-- How much an event matters. -/
inductive Level
  | error
  | warn
  | info
  | debug
deriving DecidableEq

def Level.text : Level → String
  | error => "ERROR"
  | warn => "WARN"
  | info => "INFO"
  | debug => "DEBUG"

/-- Something worth a line in the log. -/
inductive Event
  | buildingCache (bytes nodes : Nat)
  | cacheReady
  | generating (bytes : Nat) (parallel : Bool)
  | progress (percent : UInt32)
  | cancelledAt (node : UInt32)
  | cancelled
  | generated
  | preparing (path : Path) (force : Bool)
  | noExisting (path : Path) (cause : IoError)
  | unreadable (path : Path) (cause : IoError)
  | stale (path : Path) (reason : Stale)
  | reusing (path : Path)
  | failed (activity : Activity) (path : Path) (cause : IoError)
deriving DecidableEq

namespace Event

def level : Event → Level
  | buildingCache .. | cacheReady | generating .. | cancelledAt _ | cancelled | generated
  | reusing _ => .info
  | progress _ | preparing .. | noExisting .. => .debug
  | stale .. => .warn
  | unreadable .. | failed .. => .error

def message : Event → String
  | buildingCache .. => "Building cache"
  | cacheReady => "Cache ready"
  | generating .. => "Generating DAG"
  | progress _ => "DAG progress"
  | cancelledAt _ | cancelled => "DAG generation cancelled"
  | generated => "DAG generated"
  | preparing .. => "Preparing DAG file"
  | noExisting .. => "No existing DAG file"
  | unreadable .. => "Could not read from DAG file"
  | stale .. => "Existing DAG file is stale, recreating"
  | reusing _ => "DAG file already existed; reusing"
  | failed activity .. => activity.text

/-- Sizes are logged in mebibytes, positionally from `0.0001` to below `10 ^ 16`. -/
def megabytes (bytes : Nat) : String :=
  (Decimal.Layout.mk (-4) 15).render (Decimal.Interval.ofFraction bytes 20).shortest

/-- The names and values that go with an event. -/
def fields : Event → List (String × String)
  | buildingCache bytes nodes => [("cache_mb", megabytes bytes), ("nodes", toString nodes)]
  | generating bytes parallel =>
    [("dataset_mb", megabytes bytes), ("parallel", toString parallel)]
  | progress percent => [("percent", toString percent.toNat)]
  | cancelledAt node => [("item", toString node.toNat)]
  | preparing path force => [("path", path.text), ("force_create", toString force)]
  | noExisting path cause | unreadable path cause | failed _ path cause =>
    [("path", path.text), ("error", cause.message)]
  | stale path reason => [("path", path.text), ("stale", reason.debug)]
  | reusing path => [("path", path.text)]
  | cacheReady | cancelled | generated => []

/-- The line of an event: level, message, and then the names with their values. -/
def line (e : Event) : String :=
  e.fields.foldl (fun line (name, value) => line ++ " " ++ name ++ "=" ++ value)
    (e.level.text ++ " " ++ e.message)

end Event

end ProofOfWork
