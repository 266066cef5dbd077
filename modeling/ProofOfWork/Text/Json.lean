/-! Flat JSON objects, written with one field a line. -/

namespace ProofOfWork.Json

/-- The value of a field. -/
inductive Value
  | null
  | bool (b : Bool)
  | number (n : Nat)
  | text (s : String)
deriving DecidableEq

/-- A character as it is written in a text. Controls without a letter of their own are written by
their code point. -/
def escaped (c : Char) : List Char :=
  if c = '"' ∨ c = '\\' then ['\\', c]
  else if c = '\x08' then ['\\', 'b']
  else if c = '\t' then ['\\', 't']
  else if c = '\n' then ['\\', 'n']
  else if c = '\x0c' then ['\\', 'f']
  else if c = '\r' then ['\\', 'r']
  else if c.toNat < 32 then
    "\\u00".toList ++ [Nat.digitChar (c.toNat / 16), Nat.digitChar (c.toNat % 16)]
  else [c]

def quoted (s : String) : String := String.ofList ('"' :: s.toList.flatMap escaped ++ ['"'])

def Value.render : Value → String
  | null => "null"
  | bool b => toString b
  | number n => toString n
  | text s => quoted s

/-- An object with at least one field, in the order given. -/
def object (fields : List (String × Value)) : String :=
  let lines := fields.map fun (name, value) => "  " ++ quoted name ++ ": " ++ value.render
  "\x7b\n" ++ ",\n".intercalate lines ++ "\n\x7d"

end ProofOfWork.Json
