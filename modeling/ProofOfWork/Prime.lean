/-! Primes by trial division, and the search for the size that makes a number of units prime. -/

namespace ProofOfWork.Prime

/-- Whether none of `d`, `d + 2`, `d + 4`, … up to the square root of `n` divides `n`. -/
def noOddDivisorFrom (n d : Nat) : Bool :=
  if h : d * d ≤ n then
    if n % d = 0 then false
    else noOddDivisorFrom n (d + 2)
  else true
termination_by n + 1 - d
decreasing_by
  have : d ≤ n := by
    cases d with
    | zero => exact Nat.zero_le n
    | succ d => exact Nat.le_trans (Nat.le_mul_of_pos_left _ (Nat.succ_pos d)) h
  omega

/-- Whether `n` is prime. -/
def isPrime (n : Nat) : Bool :=
  if n < 2 then false
  else if n % 2 = 0 then n = 2
  else noOddDivisorFrom n 3

/-- The first prime among `n`, `n - 2`, `n - 4`, …, or the last of these numbers. -/
def searchDown (n : Nat) : Nat :=
  if isPrime n then n
  else if n < 2 then n
  else searchDown (n - 2)

end ProofOfWork.Prime
