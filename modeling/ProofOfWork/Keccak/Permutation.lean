/-! The permutation of 1600 bits behind Keccak: a state of 25 words of 64 bits, in five planes of
five lanes, goes through 24 rounds. -/

namespace ProofOfWork.Keccak

/-- The word with its bits rotated to the left by `k`, where `0 < k < 64`. -/
@[inline] def rotate (w : UInt64) (k : UInt64) : UInt64 := w <<< k ||| w >>> (64 - k)

/-- Five lanes, `x` from 0 to 4. -/
structure Plane where
  a : UInt64
  b : UInt64
  c : UInt64
  d : UInt64
  e : UInt64
deriving DecidableEq

namespace Plane

def zero : Plane := ⟨0, 0, 0, 0, 0⟩

@[inline] def xor (p q : Plane) : Plane :=
  ⟨p.a ^^^ q.a, p.b ^^^ q.b, p.c ^^^ q.c, p.d ^^^ q.d, p.e ^^^ q.e⟩

/-- Each lane is changed by the two lanes after it. -/
@[inline] def chi (p : Plane) : Plane :=
  ⟨p.a ^^^ (~~~p.b &&& p.c), p.b ^^^ (~~~p.c &&& p.d), p.c ^^^ (~~~p.d &&& p.e),
    p.d ^^^ (~~~p.e &&& p.a), p.e ^^^ (~~~p.a &&& p.b)⟩

end Plane

/-- Five planes, `y` from 0 to 4. -/
structure State where
  p0 : Plane
  p1 : Plane
  p2 : Plane
  p3 : Plane
  p4 : Plane
deriving DecidableEq

namespace State

def zero : State := ⟨.zero, .zero, .zero, .zero, .zero⟩

@[inline] def xor (s t : State) : State :=
  ⟨s.p0.xor t.p0, s.p1.xor t.p1, s.p2.xor t.p2, s.p3.xor t.p3, s.p4.xor t.p4⟩

/-- The state whose lane `x` of plane `y` is `f (5 * y + x)`. -/
def ofLanes (f : Nat → UInt64) : State :=
  ⟨⟨f 0, f 1, f 2, f 3, f 4⟩, ⟨f 5, f 6, f 7, f 8, f 9⟩, ⟨f 10, f 11, f 12, f 13, f 14⟩,
    ⟨f 15, f 16, f 17, f 18, f 19⟩, ⟨f 20, f 21, f 22, f 23, f 24⟩⟩

/-- Each column is changed by the parities of two columns beside it. -/
@[inline] def theta (s : State) : State :=
  let c := (((s.p0.xor s.p1).xor s.p2).xor s.p3).xor s.p4
  let d : Plane :=
    ⟨c.e ^^^ rotate c.b 1, c.a ^^^ rotate c.c 1, c.b ^^^ rotate c.d 1, c.c ^^^ rotate c.e 1,
      c.d ^^^ rotate c.a 1⟩
  ⟨s.p0.xor d, s.p1.xor d, s.p2.xor d, s.p3.xor d, s.p4.xor d⟩

/-- The lanes are rotated and moved to new places. -/
@[inline] def rhoPi (s : State) : State where
  p0 := ⟨s.p0.a, rotate s.p1.b 44, rotate s.p2.c 43, rotate s.p3.d 21, rotate s.p4.e 14⟩
  p1 := ⟨rotate s.p0.d 28, rotate s.p1.e 20, rotate s.p2.a 3, rotate s.p3.b 45, rotate s.p4.c 61⟩
  p2 := ⟨rotate s.p0.b 1, rotate s.p1.c 6, rotate s.p2.d 25, rotate s.p3.e 8, rotate s.p4.a 18⟩
  p3 := ⟨rotate s.p0.e 27, rotate s.p1.a 36, rotate s.p2.b 10, rotate s.p3.c 15, rotate s.p4.d 56⟩
  p4 := ⟨rotate s.p0.c 62, rotate s.p1.d 55, rotate s.p2.e 39, rotate s.p3.a 41, rotate s.p4.b 2⟩

@[inline] def chi (s : State) : State := ⟨s.p0.chi, s.p1.chi, s.p2.chi, s.p3.chi, s.p4.chi⟩

/-- One round, with its constant added to the first lane. -/
@[inline] def round (s : State) (constant : UInt64) : State :=
  let t := s.theta.rhoPi.chi
  { t with p0 := { t.p0 with a := t.p0.a ^^^ constant } }

/-- The constants of the 24 rounds. -/
def roundConstants : List UInt64 :=
  [0x0000000000000001, 0x0000000000008082, 0x800000000000808A, 0x8000000080008000,
   0x000000000000808B, 0x0000000080000001, 0x8000000080008081, 0x8000000000008009,
   0x000000000000008A, 0x0000000000000088, 0x0000000080008009, 0x000000008000000A,
   0x000000008000808B, 0x800000000000008B, 0x8000000000008089, 0x8000000000008003,
   0x8000000000008002, 0x8000000000000080, 0x000000000000800A, 0x800000008000000A,
   0x8000000080008081, 0x8000000000008080, 0x0000000080000001, 0x8000000080008008]

def permute (s : State) : State := roundConstants.foldl round s

end State

end ProofOfWork.Keccak
