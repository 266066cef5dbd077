import ProofOfWork.Text.Unprintable

/-! Text and characters in quotes, as a developer is shown them. -/

namespace ProofOfWork.Text

/-- A code point in hexadecimal, in braces. -/
def escapedCodePoint (c : Char) : List Char :=
  "\\u\x7b".toList ++ Nat.toDigits 16 c.toNat ++ ['\x7d']

/-- A character as it is written between quotes of the kind `quote`. -/
def escaped (quote : Char) (c : Char) : List Char :=
  if c = '\x00' then ['\\', '0']
  else if c = '\t' then ['\\', 't']
  else if c = '\r' then ['\\', 'r']
  else if c = '\n' then ['\\', 'n']
  else if c = '\\' ∨ c = quote then ['\\', c]
  else if isUnprintable c then escapedCodePoint c
  else [c]

/-- A text in double quotes. -/
def quoted (s : String) : String :=
  String.ofList ('"' :: s.toList.flatMap (escaped '"') ++ ['"'])

/-- A character in single quotes. -/
def quotedChar (c : Char) : String := String.ofList ('\'' :: escaped '\'' c ++ ['\''])

end ProofOfWork.Text
