/-! Paths as text, with names between slashes. -/

namespace ProofOfWork

/-- The path of a file or directory. -/
structure Path where
  text : String
deriving DecidableEq

namespace Path

/-- The parts of a text between its slashes, empty ones included. -/
def splitSlash : List Char → List (List Char)
  | [] => [[]]
  | c :: rest =>
    match splitSlash rest with
    | [] => [[c]]
    | part :: parts => if c = '/' then [] :: part :: parts else (c :: part) :: parts

/-- The names of a path from the outermost on. Slashes side by side count as one. -/
def names (p : Path) : List String :=
  ((splitSlash p.text.toList).filter fun part => !part.isEmpty).map String.ofList

def endsWithSlash (p : Path) : Bool := p.text.toList.getLast? == some '/'

/-- The path of `name` in `dir`. A name that starts with a slash stands for itself. -/
def join (dir : Path) (name : String) : Path :=
  if name.toList.head? = some '/' then ⟨name⟩
  else if dir.text = "" ∨ dir.endsWithSlash then ⟨dir.text ++ name⟩
  else ⟨dir.text ++ "/" ++ name⟩

end Path

end ProofOfWork
