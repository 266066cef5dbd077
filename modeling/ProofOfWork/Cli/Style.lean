/-! Colours on a terminal. -/

namespace ProofOfWork.Cli

/-- What a piece of text is, as far as its colour goes. -/
inductive Role
  | programName
  | programVersion
  | label
  | hash
  | met
  | notMet
  | activity
  | failure
deriving DecidableEq

namespace Role

/-- The terminal code of a role's colour. -/
def code : Role → String
  | programName => "1;97"
  | programVersion => "92"
  | label => "32"
  | hash => "97"
  | met => "1;92"
  | notMet => "1;31"
  | activity => "36"
  | failure => "1;31"

/-- A text in the colour of its role, if there are to be colours. -/
def paint (colour : Bool) (role : Role) (text : String) : String :=
  if colour then "\x1b[" ++ role.code ++ "m" ++ text ++ "\x1b[0m" else text

end Role

/-- What the environment says about colours: the values of the variables for it, and whether the
output is a terminal. -/
structure ColourWish where
  /-- `CLICOLOR`. -/
  wanted : Option String
  /-- `CLICOLOR_FORCE`. -/
  forced : Option String
  /-- `NO_COLOR`. -/
  unwanted : Option String
  terminal : Bool

/-- Whether there are to be colours. A variable with the value `0` says no, except `NO_COLOR`, which
counts whenever it is set. -/
def ColourWish.granted (w : ColourWish) : Bool :=
  if w.forced.any (· != "0") then true
  else if w.unwanted.isSome then false
  else w.wanted.all (· != "0") && w.terminal

end ProofOfWork.Cli
