/-! Why an existing DAG file is of no use. -/

namespace ProofOfWork

/-- Why an existing DAG file must be made again. -/
inductive Stale
  /-- The dataset in it has another size. -/
  | size (expected found : UInt64)
  /-- It starts with another number than a complete file, or its start cannot be read. -/
  | magic (found : Option UInt64)
deriving DecidableEq

/-- The text that shows the reason to a developer. -/
def Stale.debug : Stale → String
  | size expected found =>
    "SizeMismatch \x7b expected: " ++ toString expected.toNat ++ ", found: " ++
      toString found.toNat ++ " \x7d"
  | magic none => "MagicMismatch \x7b found: None \x7d"
  | magic (some v) => "MagicMismatch \x7b found: Some(" ++ toString v.toNat ++ ") \x7d"

end ProofOfWork
