import LedgerSovereign.LittleEndian
import LedgerSovereign.SchnorrGroup

namespace LedgerSovereign.SigningCrates

open LedgerSovereign.LittleEndian

/-- merlin's `Transcript` -/
structure Merlin where
  Transcript : Type
  new : (label : List UInt8) → Transcript
  appendMessage : Transcript → (label message : List UInt8) → Transcript
  challengeBytes : Transcript → (label : List UInt8) → (n : Nat) →
    Vector UInt8 n × Transcript

/-- curve25519-dalek's `Scalar` and `RistrettoPoint` -/
structure Dalek where
  Scalar : Type
  RistrettoPoint : Type
  group : AddCommGroup RistrettoPoint
  zero : Scalar
  fromBits : Vector UInt8 32 → Scalar
  fromBytesModOrderWide : Vector UInt8 64 → Scalar
  add : Scalar → Scalar → Scalar
  mul : Scalar → Scalar → Scalar
  toBytes : Scalar → Vector UInt8 32
  scalarMul : Scalar → RistrettoPoint → RistrettoPoint
  basepoint : RistrettoPoint
  compress : RistrettoPoint → Vector UInt8 32
  decompress : Vector UInt8 32 → Option RistrettoPoint

attribute [instance] Dalek.group

/-- The order of the group that the base point generates. -/
def groupOrder : Nat :=
  2 ^ 252 + 27742317777372353535851937790883648493

namespace Dalek

def value (dalek : Dalek) (s : dalek.Scalar) : Nat :=
  littleEndian (dalek.toBytes s).toList

/-- What the crate promises.  `from_bits` only clears the highest bit, while the
results of the operations are reduced, whatever their operands are. -/
structure Lawful (dalek : Dalek) : Prop where
  value_zero : dalek.value dalek.zero = 0
  value_fromBits : ∀ bytes,
    dalek.value (dalek.fromBits bytes) = littleEndian bytes.toList % 2 ^ 255
  value_wide : ∀ bytes, dalek.value (dalek.fromBytesModOrderWide bytes) =
    littleEndian bytes.toList % groupOrder
  value_add : ∀ a b,
    dalek.value (dalek.add a b) = (dalek.value a + dalek.value b) % groupOrder
  value_mul : ∀ a b,
    dalek.value (dalek.mul a b) = dalek.value a * dalek.value b % groupOrder
  scalarMul_eq : ∀ s p, dalek.scalarMul s p = dalek.value s • p
  order_basepoint : addOrderOf dalek.basepoint = groupOrder
  decompress_compress : ∀ p, dalek.decompress (dalek.compress p) = some p

end Dalek

end LedgerSovereign.SigningCrates
