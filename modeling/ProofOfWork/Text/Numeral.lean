import ProofOfWork.Text.Hex

/-! Whole numbers of 64 bits read from text, in decimal or hexadecimal digits. A plus sign may stand
before the digits. -/

namespace ProofOfWork.Numeral

/-- Why a text is not a number of 64 bits. -/
inductive Error
  | empty
  | badDigit
  | tooLarge
deriving DecidableEq

def Error.message : Error → String
  | empty => "cannot parse integer from empty string"
  | badDigit => "invalid digit found in string"
  | tooLarge => "number too large to fit in target type"

/-- What digits stand for. -/
inductive Base
  | decimal
  | hexadecimal
deriving DecidableEq

namespace Base

def radix : Base → Nat
  | decimal => 10
  | hexadecimal => 16

/-- The value of a digit. Hexadecimal digits are of either case. -/
def digitValue? (b : Base) (c : Char) : Option Nat := (Hex.digitValue? c).filter (· < b.radix)

end Base

/-- The number that `value` becomes when more digits follow. Of a character that is no digit and a
digit that makes the number too large, the first in the text counts. -/
def readDigits (b : Base) (value : Nat) : List Char → Except Error Nat
  | [] => .ok value
  | c :: rest =>
    match b.digitValue? c with
    | none => .error .badDigit
    | some digit =>
      let value := value * b.radix + digit
      if value < UInt64.size then readDigits b value rest else .error .tooLarge

/-- The number that a text stands for. -/
def read (b : Base) : List Char → Except Error UInt64
  | [] => .error .empty
  | ['+'] => .error .badDigit
  | '+' :: digits => (readDigits b 0 digits).map Nat.toUInt64
  | digits => (readDigits b 0 digits).map Nat.toUInt64

end ProofOfWork.Numeral
