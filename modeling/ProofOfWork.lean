import ProofOfWork.Cli.BoundaryReport
import ProofOfWork.Cli.Transcript
import ProofOfWork.Main
import ProofOfWork.Proofs.Bytes
import ProofOfWork.Proofs.Node
import ProofOfWork.Proofs.Client.File
import ProofOfWork.Proofs.Client.Mapped
import ProofOfWork.Proofs.Client.Memory
import ProofOfWork.Proofs.Client.Session
import ProofOfWork.Proofs.DagFile.Attempts
import ProofOfWork.Proofs.DagFile.Name
import ProofOfWork.Proofs.DagFile.Yields
import ProofOfWork.Proofs.DagFile.Outline
import ProofOfWork.Proofs.Client.Outline
import ProofOfWork.Proofs.DagFile.Prepare
import ProofOfWork.Proofs.DagFile.Serves
import ProofOfWork.Proofs.DagFile.Trusted
import ProofOfWork.Proofs.Dataset.Bytes
import ProofOfWork.Proofs.Disk.Contents
import ProofOfWork.Proofs.Disk.Files
import ProofOfWork.Proofs.Disk.Location
import ProofOfWork.Proofs.Generation.Crew
import ProofOfWork.Proofs.Generation.Memory
import ProofOfWork.Proofs.Generation.Parallel
import ProofOfWork.Proofs.Generation.Record
import ProofOfWork.Proofs.Generation.Schedule
import ProofOfWork.Proofs.Hashimoto
import ProofOfWork.Proofs.Serving
import ProofOfWork.Proofs.Text.Hex
import ProofOfWork.Proofs.Hashimoto.Lookups
import ProofOfWork.Proofs.Hashimoto.Flat
import ProofOfWork.Proofs.Client.Survival
import ProofOfWork.Proofs.Disk.Directories
import ProofOfWork.Proofs.DagFile.Working
import ProofOfWork.Proofs.Client.Effect
import ProofOfWork.Proofs.Prime
import ProofOfWork.Proofs.Epoch
import ProofOfWork.Proofs.Target
import ProofOfWork.Proofs.Client.Usable
import ProofOfWork.Proofs.Client.Epoch
import ProofOfWork.Proofs.Cache
import ProofOfWork.Proofs.Epoch.Words
import ProofOfWork.Proofs.Generation.Prefix
import ProofOfWork.Proofs.DagFile.Probe
import ProofOfWork.Proofs.Client.Recreate
import ProofOfWork.Proofs.Dataset.Indices
import ProofOfWork.Proofs.DagFile.Created
import ProofOfWork.Proofs.Generation.Reports
import ProofOfWork.Proofs.Cli.Progress
import ProofOfWork.Proofs.Text.Numeral
import ProofOfWork.Proofs.Cli.Value
import ProofOfWork.Proofs.Cli.Parse
import ProofOfWork.Proofs.Cli.Check
import ProofOfWork.Proofs.Client.Dialogue
import ProofOfWork.Proofs.DagFile.Log
import ProofOfWork.Proofs.Client.Log
