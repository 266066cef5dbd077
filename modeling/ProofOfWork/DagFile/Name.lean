import ProofOfWork.Disk.Path
import ProofOfWork.Hasher
import ProofOfWork.Text.Hex

/-! Names of DAG files. A name holds the format revision and the whole seed, so that the files of
different epochs never share a name. -/

namespace ProofOfWork.DagFile

/-- The name of the DAG file for a seed. -/
def name (revision : UInt32) (seed : Hash256) : String :=
  "full-R" ++ toString revision.toNat ++ "-" ++ seed.toHex

/-- The path of the DAG file for a seed, where `join` gives the path of a name in a directory. -/
def path (join : Path → String → Path) (dir : Path) (revision : UInt32) (seed : Hash256) : Path :=
  join dir (name revision seed)

/-- The directory for DAG files in a user's home directory. -/
def defaultDirectory (home : Path) : Path := home.join ".okcash"

end ProofOfWork.DagFile
