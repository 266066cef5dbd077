import ProofOfWork.Target
import ProofOfWork.Text.Numeral

/-! Hashes, nonces and targets as they are given on the command line. -/

namespace ProofOfWork.Cli

/-- Why a text is not the value it should be. -/
inductive BadValue
  | notHex (text : String) (cause : Hex.Error)
  /-- The text stands for `found` bytes. -/
  | notHash (text : String) (found : Nat)
  | notNonce (text : String) (base : Numeral.Base) (cause : Numeral.Error)
deriving DecidableEq

def BadValue.message : BadValue → String
  | notHex text cause => "invalid hex: " ++ text ++ ": " ++ cause.message
  | notHash text found => "expected 32 bytes, got " ++ toString found ++ " in " ++ text
  | notNonce text .decimal cause => "invalid nonce: " ++ text ++ ": " ++ cause.message
  | notNonce text .hexadecimal cause => "invalid hex nonce: " ++ text ++ ": " ++ cause.message

/-- What is left of a text when every `0x` at its start is dropped. -/
def dropMarks : List Char → List Char
  | '0' :: 'x' :: rest => dropMarks rest
  | text => text

/-- The hash that a text in hexadecimal stands for, with or without `0x` before it. -/
def readHash (text : String) : Except BadValue Hash256 :=
  match Hex.decode (dropMarks text.toList) with
  | .error cause => .error (.notHex text cause)
  | .ok bytes =>
    match ByteVector.ofByteArray? ⟨bytes.toArray⟩ with
    | some hash => .ok hash
    | none => .error (.notHash text bytes.length)

/-- The nonce that a text stands for, which is hexadecimal if it starts with `0x`. -/
def readNonce (text : String) : Except BadValue UInt64 :=
  match text.toList with
  | '0' :: 'x' :: digits =>
    (Numeral.read .hexadecimal digits).mapError (.notNonce text .hexadecimal)
  | digits => (Numeral.read .decimal digits).mapError (.notNonce text .decimal)

/-- What a hash is held against: the text of a boundary, or a difficulty, or nothing. -/
structure Goal where
  boundary : Option String
  difficulty : Option UInt64
deriving DecidableEq

namespace Goal

/-- The boundary that is meant. The text of a boundary counts more than a difficulty. -/
def target? (g : Goal) : Except BadValue (Option Hash256) :=
  match g.boundary, g.difficulty with
  | some text, _ => (readHash text).map some
  | none, some difficulty => .ok (some (Target.ofDifficulty difficulty))
  | none, none => .ok none

/-- Whether a hash meets the boundary, if there is one. -/
def verdict (g : Goal) (hash : Hash256) : Except BadValue (Option Bool) :=
  g.target?.map fun boundary => boundary.map (Target.meets hash)

end Goal

end ProofOfWork.Cli
