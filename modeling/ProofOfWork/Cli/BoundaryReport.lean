import ProofOfWork.Cli.Report

/-! A report on the boundary of a difficulty: its bytes, its zero bits, and how it compares with
itself, with a slightly smaller hash and with the greatest one. -/

namespace ProofOfWork.Cli.BoundaryReport

/-- The difficulty that the arguments name. Only the first one counts, and it is `5` if that is no
number. -/
def difficulty (arguments : List String) : UInt64 :=
  match arguments with
  | [] => 5
  | text :: _ => ((Numeral.read .decimal text.toList).toOption).getD 5

/-- The zero bits before the first one bit of a byte. -/
def leadingZeros (b : UInt8) : Nat := 8 - if b = 0 then 0 else b.toNat.log2 + 1

/-- The zero bits before the first one bit. -/
def leadingZeroBits (bytes : List UInt8) : Nat :=
  let zeros := bytes.takeWhile (· == 0)
  8 * zeros.length + (bytes[zeros.length]?.map leadingZeros).getD 0

/-- Bytes with the last one that is not zero made smaller by one. -/
def justBelow : List UInt8 → List UInt8
  | [] => []
  | b :: rest =>
    if rest.all (· == 0) then (if b = 0 then b else b - 1) :: rest else b :: justBelow rest

theorem length_justBelow (bytes : List UInt8) : (justBelow bytes).length = bytes.length := by
  induction bytes with
  | nil => rfl
  | cons b rest ih => by_cases h : rest.all (· == 0) <;> simp [justBelow, h, ih]

/-- The hash just below one that is not zero. -/
def smaller (hash : Hash256) : Hash256 :=
  ⟨⟨(justBelow hash.toList).toArray⟩, (length_justBelow hash.toList).trans hash.length_toList⟩

/-- Bytes in rows of eight, each after the position of its first byte. -/
def bytesText (bytes : List UInt8) : String :=
  String.join <| (bytes.zipIdx).map fun (b, i) =>
    let start := if i % 8 = 0 then "\n" ++ (if i < 10 then "0" else "") ++ toString i ++ ": " else ""
    start ++ String.ofList (Hex.byteDigits b) ++ " "

/-- The report on a difficulty. -/
def text (difficulty : UInt64) : String :=
  let boundary := Target.ofDifficulty difficulty
  let passes (hash : Hash256) : String := toString (Target.meets hash boundary) ++ "\n"
  String.join
    ["Difficulty: ", toString difficulty.toNat, "\n",
      "Boundary (hex): ", boundary.toHex, "\n",
      "\nBoundary bytes:\n", bytesText boundary.toList, "\n\n",
      "Leading zero bits: ", toString (leadingZeroBits boundary.toList), "\n",
      "boundary passes:      ", passes boundary,
      "smaller hash passes:  ", passes (smaller boundary),
      "all-ones hash passes: ", passes (.replicate 0xFF)]

end ProofOfWork.Cli.BoundaryReport
