import ProofOfWork.Bytes.Vector
import ProofOfWork.Text.Quoted

/-! Hexadecimal text: bytes are written as two lower-case digits each, and read from digits of
either case. -/

namespace ProofOfWork.Hex

/-- The lower-case digit of a number below sixteen. -/
def digit (n : Nat) : Char := if n < 10 then Char.ofNat (48 + n) else Char.ofNat (87 + n)

/-- The value of a hexadecimal digit of either case. -/
def digitValue? (c : Char) : Option Nat :=
  if '0' ≤ c ∧ c ≤ '9' then some (c.toNat - 48)
  else if 'a' ≤ c ∧ c ≤ 'f' then some (c.toNat - 87)
  else if 'A' ≤ c ∧ c ≤ 'F' then some (c.toNat - 55)
  else none

/-- The two digits of a byte, the high one first. -/
def byteDigits (b : UInt8) : List Char := [digit (b.toNat / 16), digit (b.toNat % 16)]

/-- The digits of a list of bytes. -/
def digits (bytes : List UInt8) : List Char := bytes.flatMap byteDigits

/-- The text of a byte string. -/
def encode (bytes : ByteArray) : String := String.ofList (digits bytes.data.toList)

/-- Why a text is not hexadecimal. -/
inductive Error
  /-- The text has an odd number of bytes. -/
  | oddLength
  /-- The first character that is no digit, and where it stands. -/
  | badDigit (character : Char) (position : Nat)
deriving DecidableEq

/-- The character whose code point is the first byte of another one's UTF-8 form. -/
def leadingByte (c : Char) : Char := Char.ofNat ((String.utf8EncodeChar c).headD 0).toNat

/-- The text for an error. A character that is no digit is shown by its first byte. -/
def Error.message : Error → String
  | oddLength => "Odd number of digits"
  | badDigit c position =>
    "Invalid character " ++ Text.quotedChar (leadingByte c) ++ " at position " ++ toString position

/-- The values of all digits, or the first character that is none. -/
def digitValues (position : Nat) : List Char → Except Error (List Nat)
  | [] => .ok []
  | c :: rest => do
    match digitValue? c with
    | none => throw (.badDigit c position)
    | some v => return v :: (← digitValues (position + 1) rest)

/-- The bytes of a list of digit values, two a byte. -/
def pairs : List Nat → List UInt8
  | high :: low :: rest => UInt8.ofNat (16 * high + low) :: pairs rest
  | _ => []

/-- The number of bytes of a text. -/
def byteCount : List Char → Nat
  | [] => 0
  | c :: rest => c.utf8Size + byteCount rest

/-- The bytes that a text stands for. The length is checked first, in bytes of the text. -/
def decode (text : List Char) : Except Error (List UInt8) := do
  if byteCount text % 2 = 1 then throw .oddLength
  return pairs (← digitValues 0 text)

end ProofOfWork.Hex

namespace ProofOfWork

/-- The hexadecimal text of a byte string. -/
def ByteVector.toHex {n : Nat} (v : ByteVector n) : String := Hex.encode v.bytes

end ProofOfWork
