import ProofOfWork.Params

/-! Parameters that the proof of work does not accept. -/

namespace ProofOfWork

/-- Why a parameter is not accepted. -/
inductive Invalid
  | cacheSizeUneven (size : Nat)
  | cacheSizeTooLarge (size : Nat)
  | datasetSizeUneven (size : Nat)
  | datasetSizeTooLarge (size : Nat)
  | blockTooHigh (block epoch : Nat)
  /-- The handle belongs to no epoch, so it has no dataset size of its own. -/
  | noEpoch
deriving DecidableEq

def Invalid.message : Invalid → String
  | cacheSizeUneven size =>
    s!"cache size {size} is not a non-zero multiple of {Params.nodeBytes}"
  | cacheSizeTooLarge size => s!"cache size {size} too large"
  | datasetSizeUneven size =>
    s!"dataset size {size} is not a non-zero multiple of {Params.mixBytes}"
  | datasetSizeTooLarge size => s!"dataset size {size} too large"
  | blockTooHigh block epoch =>
    s!"block {block} is in epoch {epoch}, past the last supported epoch {Params.maxEpoch}"
  | noEpoch =>
    "light handle was built from an explicit seed and has no epoch; pass a dataset size"

end ProofOfWork
