import Mathlib.GroupTheory.OrderOfElement

namespace LedgerSovereign.SchnorrGroup

variable {G : Type*} [AddCommGroup G] {B : G} {l : Nat}

theorem mod_nsmul (hB : addOrderOf B = l) (n : Nat) : (n % l) • B = n • B := by
  rw [← hB, mod_addOrderOf_nsmul]

/-- The response to a challenge `c` under the key `s` with the witness `x`; the
product is reduced before the witness is added. -/
def response (l c s x : Nat) : Nat :=
  (c * s % l + x) % l

theorem response_lt (hl : 0 < l) (c s x : Nat) : response l c s x < l :=
  Nat.mod_lt _ hl

theorem response_nsmul (hB : addOrderOf B = l) (c s x : Nat) :
    response l c s x • B = x • B + c • (s • B) := by
  rw [response, mod_nsmul hB, add_nsmul, mod_nsmul hB, mul_nsmul, add_comm,
    nsmul_left_comm]

/-- The commitment that a verifier recomputes. -/
theorem commitment_eq (hB : addOrderOf B = l) (c s x : Nat) :
    response l c s x • B - c • (s • B) = x • B := by
  rw [response_nsmul hB, add_sub_cancel_right]

end LedgerSovereign.SchnorrGroup
