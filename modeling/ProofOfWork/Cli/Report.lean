import ProofOfWork.Cli.Style
import ProofOfWork.Cli.Value
import ProofOfWork.Client.Full
import ProofOfWork.Text.Json

/-! What the commands print when they succeed, as text with a label before each value, or as JSON. -/

namespace ProofOfWork.Cli

/-- The name and version of the program. -/
def programName : String := "okcash-pow"

def programVersion : String := "0.1.0"

/-- What stands above all text output. -/
def banner (colour : Bool) : String :=
  "\n" ++ Role.programName.paint colour programName ++ " " ++
    Role.programVersion.paint colour
      ("v" ++ programVersion ++ " | Ethash revision " ++ toString Params.revision.toNat) ++ "\n\n"

/-- A text with blanks after it to a width. -/
def padRight (width : Nat) (s : String) : String :=
  s ++ String.ofList (List.replicate (width - s.length) ' ')

/-- A text with blanks before it to a width. -/
def padLeft (width : Nat) (s : String) : String :=
  String.ofList (List.replicate (width - s.length) ' ') ++ s

/-- A line with a label. -/
structure Row where
  label : String
  /-- What the value is, if it has a colour. -/
  role : Option Role
  value : String

def Row.render (colour : Bool) (r : Row) : String :=
  let value := r.role.elim r.value fun role => role.paint colour r.value
  Role.label.paint colour (padRight 15 (r.label ++ ":")) ++ " " ++ value ++ "\n"

/-- The row that says how large a cache is, in mebibytes. -/
def cacheRow (bytes : UInt64) : Row :=
  ⟨"Cache", none, Decimal.onePlace bytes.toNat (1024 * 1024) ++ " MB"⟩

/-- The progress of a generation, which overwrites what stands on the line. -/
def progressLine (colour : Bool) (percent : UInt32) : String :=
  "\r" ++ Role.activity.paint colour "Generating DAG" ++ " " ++
    padLeft 3 (toString percent.toNat) ++ "%" ++ (if 100 ≤ percent then "\n" else "")

/-- What a command found. -/
inductive Report
  | seed (block : UInt64) (seed : Hash256)
  | sizes (block : UInt64) (info : EpochInfo)
  /-- A hash, and whether it meets the boundary that was given. -/
  | hash (block nonce : UInt64) (hash : PowHash) (meets : Option Bool) (milliseconds : Nat)
  | dag (block : UInt64) (path : Option Path) (bytes : UInt64) (milliseconds : Nat)
  | check (result : Hash256) (meets : Option Bool)

namespace Report

def verdictRow (meets : Bool) : Row :=
  if meets then ⟨"Boundary", some .met, "met"⟩ else ⟨"Boundary", some .notMet, "not met"⟩

def hashRow (label : String) (hash : Hash256) : Row := ⟨label, some .hash, hash.toHex⟩

def bytesRow (label : String) (bytes : UInt64) : Row :=
  ⟨label, none, toString bytes.toNat ++ " bytes"⟩

def timeRow (milliseconds : Nat) : Row := ⟨"Elapsed", none, toString milliseconds ++ " ms"⟩

/-- The text of a report. -/
def text (colour : Bool) (report : Report) : String :=
  let rows (rs : List Row) : String := String.join (rs.map (Row.render colour))
  match report with
  | .seed _ s => s.toHex ++ "\n"
  | .sizes _ info =>
    rows [⟨"Epoch", none, toString info.epoch.toNat⟩, hashRow "Seed hash" info.seed,
      bytesRow "Cache" info.cacheBytes, bytesRow "Dataset" info.datasetBytes]
  | .hash _ _ h meets milliseconds =>
    rows ([hashRow "Mix hash" h.mixHash, hashRow "Result" h.result] ++
      meets.toList.map verdictRow ++ [timeRow milliseconds])
  | .dag _ path bytes milliseconds =>
    rows (path.toList.map (fun p => ⟨"DAG file", some .hash, p.text⟩) ++
      [bytesRow "Dataset" bytes, timeRow milliseconds])
  | .check result meets => rows (hashRow "Result" result :: meets.toList.map verdictRow)

/-- The fields of a report. -/
def fields : Report → List (String × Json.Value)
  | .seed block s => [("block", .number block.toNat), ("seed_hash", .text s.toHex)]
  | .sizes block info =>
    [("block", .number block.toNat), ("epoch", .number info.epoch.toNat),
      ("seed_hash", .text info.seed.toHex), ("cache_bytes", .number info.cacheBytes.toNat),
      ("dataset_bytes", .number info.datasetBytes.toNat)]
  | .hash block nonce h meets milliseconds =>
    [("block", .number block.toNat), ("nonce", .number nonce.toNat),
      ("mix_hash", .text h.mixHash.toHex), ("result", .text h.result.toHex)] ++
      meets.toList.map (fun b => ("meets_boundary", .bool b)) ++
      [("elapsed_ms", .number milliseconds)]
  | .dag block path bytes milliseconds =>
    [("block", .number block.toNat), ("path", path.elim .null fun p => .text p.text),
      ("dataset_bytes", .number bytes.toNat), ("elapsed_ms", .number milliseconds)]
  | .check result meets =>
    [("result", .text result.toHex), ("meets_boundary", meets.elim .null .bool)]

/-- What is printed of a report. -/
def render (json colour : Bool) (report : Report) : String :=
  if json then Json.object report.fields ++ "\n" else report.text colour

end Report

end ProofOfWork.Cli
