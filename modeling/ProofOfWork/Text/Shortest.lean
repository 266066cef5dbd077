/-! Decimal text of fractions with a binary denominator. A fraction that a double of 53 bits holds
exactly is written with the fewest digits from which the double is read back, or with a fixed number
of places. -/

namespace ProofOfWork.Decimal

/-- The decimal number `coefficient * 10 ^ exponent`. -/
structure Scaled where
  coefficient : Nat
  exponent : Int
deriving DecidableEq

/-- The numbers from `low / den` to `high / den`, which surround `value / den`. The ends belong to
them if `closed` holds. -/
structure Interval where
  low : Nat
  value : Nat
  high : Nat
  den : Nat
  closed : Bool

/-- The numbers that are read as the double `n / 2 ^ bits`, for `0 < n < 2 ^ 53`. Next to a power of
two the numbers below are closer together than those above. -/
def Interval.ofFraction (n bits : Nat) : Interval :=
  let shift := 52 - n.log2
  let mantissa := n <<< shift
  { low := 4 * mantissa - (if mantissa = 1 <<< 52 then 1 else 2)
    value := 4 * mantissa
    high := 4 * mantissa + 2
    den := 4 <<< (bits + shift)
    closed := mantissa % 2 = 0 }

/-- The numerator and denominator of a number scaled by `10 ^ (-exponent)`. -/
def rescale (num den : Nat) (exponent : Int) : Nat × Nat :=
  match exponent with
  | .ofNat k => (num, den * Nat.pow 10 k)
  | .negSucc k => (num * Nat.pow 10 (k + 1), den)

/-- Whether `coefficient * 10 ^ exponent` lies in the interval. -/
def Interval.contains (i : Interval) (coefficient : Nat) (exponent : Int) : Bool :=
  let (low, den) := rescale i.low i.den exponent
  let (high, _) := rescale i.high i.den exponent
  let c := coefficient * den
  if i.closed then low ≤ c && c ≤ high else low < c && c < high

/-- The multiple of `10 ^ exponent` in the interval that is nearest to its value, if there is one.
Of two at the same distance it is the even one. -/
def Interval.nearest? (i : Interval) (exponent : Int) : Option Nat :=
  let (value, den) := rescale i.value i.den exponent
  let below := value / den
  let rest := value % den
  let upFirst := den < 2 * rest || (den = 2 * rest && below % 2 = 1)
  let candidates := if upFirst then [below + 1, below] else [below, below + 1]
  candidates.find? fun c => i.contains c exponent

/-- The exponent `e` with `10 ^ e ≤ num / den < 10 ^ (e + 1)`, for a positive fraction above
`10 ^ (-fuel)`. -/
def magnitude (num den : Nat) : (fuel : Nat) → Int
  | 0 => 0
  | fuel + 1 =>
    if num < den then magnitude (10 * num) den fuel - 1
    else ((Nat.toDigits 10 (num / den)).length - 1 : Nat)

/-- The same number with at most `fuel` zeros at the end of its coefficient dropped. -/
def trimZeros : (fuel : Nat) → Scaled → Scaled
  | 0, s => s
  | fuel + 1, s =>
    if s.coefficient ≠ 0 ∧ s.coefficient % 10 = 0 then
      trimZeros fuel ⟨s.coefficient / 10, s.exponent + 1⟩
    else s

/-- The shortest decimal number in the interval that starts at its value's first digit, with at most
`17` digits. -/
def Interval.shortest (i : Interval) : Scaled :=
  let first := magnitude i.value i.den (Nat.log2 i.den + 1)
  let found := (List.range 17).findSome? fun (k : Nat) =>
    let exponent := first - k
    (i.nearest? exponent).map fun c => Scaled.mk c exponent
  trimZeros 17 (found.getD ⟨0, 0⟩)

/-- How decimal numbers are laid out: the exponents of the first digit that are written without an
exponent. -/
structure Layout where
  leastPositional : Int
  greatestPositional : Int

/-- The text of a number. Without an exponent there is at least one place after the point; with one
there is one digit before it. -/
def Layout.render (l : Layout) (s : Scaled) : String :=
  let digits := (toString s.coefficient).toList
  let first := s.exponent + (digits.length - 1 : Nat)
  if l.leastPositional ≤ first ∧ first ≤ l.greatestPositional then
    match first with
    | .negSucc k => String.ofList ("0.".toList ++ List.replicate k '0' ++ digits)
    | .ofNat k =>
      let padded := digits ++ List.replicate (k + 1 - digits.length) '0'
      let places := padded.drop (k + 1)
      String.ofList (padded.take (k + 1) ++ '.' :: if places.isEmpty then ['0'] else places)
  else
    let mantissa :=
      match digits with
      | d :: [] => [d]
      | d :: rest => d :: '.' :: rest
      | [] => []
    String.ofList (mantissa ++ 'e' :: (toString first).toList)

/-- The quotient rounded to the nearest integer, a half to the even one. -/
def roundDiv (num den : Nat) : Nat :=
  let below := num / den
  let rest := num % den
  if den < 2 * rest ∨ (den = 2 * rest ∧ below % 2 = 1) then below + 1 else below

/-- The text of `num / den` with one place after the point. -/
def onePlace (num den : Nat) : String :=
  let tenths := roundDiv (10 * num) den
  toString (tenths / 10) ++ "." ++ toString (tenths % 10)

end ProofOfWork.Decimal
