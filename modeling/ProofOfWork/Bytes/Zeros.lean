/-! Long byte strings of zeros. -/

namespace ProofOfWork

/-- `n` zero bytes, put together from two halves, and these in the same way, as often as `depth`
says. -/
def zeroHalves : (depth n : Nat) → ByteArray
  | 0, n => ⟨Array.replicate n 0⟩
  | depth + 1, n =>
    let half := zeroHalves depth (n / 2)
    half ++ half ++ ⟨Array.replicate (n % 2) 0⟩

/-- `n` zero bytes. Those of more than a page are put together from parts of about a page. -/
def zeroBytes (n : Nat) : ByteArray := zeroHalves (n / 4096).log2 n

theorem size_zeroHalves (depth n : Nat) : (zeroHalves depth n).size = n := by
  induction depth generalizing n with
  | zero => exact Array.size_replicate
  | succ depth ih =>
    have rest : (ByteArray.mk (Array.replicate (n % 2) 0)).size = n % 2 := Array.size_replicate
    simp only [zeroHalves, ByteArray.size_append, ih, rest]
    omega

/-- There are `n` of them. -/
theorem size_zeroBytes (n : Nat) : (zeroBytes n).size = n := size_zeroHalves _ n

end ProofOfWork
