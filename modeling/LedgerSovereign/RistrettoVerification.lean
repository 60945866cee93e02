import LedgerSovereign.RistrettoSigning
import Mathlib.Data.ZMod.Basic

namespace LedgerSovereign.RistrettoVerification

open LedgerSovereign.Constants
open LedgerSovereign.LittleEndian
open LedgerSovereign.RistrettoSigning
open LedgerSovereign.SchnorrGroup
open LedgerSovereign.SigningCrates

variable (merlin : Merlin) (dalek : Dalek)

/-- The challenge that a verifier computes from `signing_context(context)` and the
message, the public key and the commitment. -/
def verifierChallenge (pk commitment : Vector UInt8 32)
    (context message : List UInt8) : dalek.Scalar :=
  let t := merlin.new (ascii "SigningContext")
  let t := merlin.appendMessage t (ascii "") context
  let t := merlin.appendMessage t (ascii "sign-bytes") message
  let t := merlin.appendMessage t (ascii "proto-name") (ascii "Schnorr-sig")
  let t := merlin.appendMessage t (ascii "sign:pk") pk.toList
  let t := merlin.appendMessage t (ascii "sign:R") commitment.toList
  dalek.fromBytesModOrderWide (merlin.challengeBytes t (ascii "sign:c") 64).1

/-- What schnorrkel asks of a signature: the marker, a reduced scalar below it, and
the equation between the points. -/
structure Verifies (pk : Vector UInt8 32) (context message : List UInt8)
    (signature : Vector UInt8 64) : Prop where
  marked : signature[63]! &&& 128 = 128
  canonical : littleEndian (unmark (upperHalf signature)).toList < groupOrder
  equation : ∃ publicKey commitment, dalek.decompress pk = some publicKey ∧
    dalek.decompress (lowerHalf signature) = some commitment ∧
    let s := littleEndian (unmark (upperHalf signature)).toList
    let c := dalek.value
      (verifierChallenge merlin dalek pk (lowerHalf signature) context message)
    s • dalek.basepoint = commitment + c • publicKey ∧
      dalek.compress (s • dalek.basepoint - c • publicKey) = lowerHalf signature

theorem halves_signSr25519Phase2 (sk : Vector UInt8 64) (pk : Vector UInt8 32)
    (context message : List UInt8) (signature : Vector UInt8 64) :
    let result := signSr25519Phase2 merlin dalek sk pk context message signature
    let c := verifierChallenge merlin dalek pk (lowerHalf signature) context message
    lowerHalf result = lowerHalf signature ∧
      upperHalf result = mark (dalek.toBytes (dalek.add
        (dalek.mul (dalek.add dalek.zero c) (dalek.fromBits (lowerHalf sk)))
        (dalek.fromBits (upperHalf signature)))) := by
  intro result c
  constructor
  · change lowerHalf ((copyToUpper signature _).set 63 _) = _
    rw [lowerHalf_set, lowerHalf_copyToUpper]
  · change upperHalf ((copyToUpper signature _).set 63 _) = _
    rw [upperHalf_mark, upperHalf_copyToUpper]
    rfl

variable {dalek}

theorem value_verifierChallenge_lt (hdalek : dalek.Lawful)
    (pk commitment : Vector UInt8 32) (context message : List UInt8) :
    dalek.value (verifierChallenge merlin dalek pk commitment context message) <
      groupOrder := by
  rw [verifierChallenge, hdalek.value_wide]
  exact Nat.mod_lt _ (by decide)

theorem value_signature (hdalek : dalek.Lawful) {c : dalek.Scalar}
    (hc : dalek.value c < groupOrder) (s x : dalek.Scalar) :
    dalek.value (dalek.add (dalek.mul (dalek.add dalek.zero c) s) x) =
      response groupOrder (dalek.value c) (dalek.value s) (dalek.value x) := by
  rw [hdalek.value_add, hdalek.value_mul, hdalek.value_add, hdalek.value_zero,
    Nat.zero_add, Nat.mod_eq_of_lt hc, response]

theorem last_toBytes_lt {k : dalek.Scalar} (h : dalek.value k < groupOrder) :
    (dalek.toBytes k)[31].toNat < 128 :=
  last_lt_of_littleEndian_lt (h.trans (by decide))

theorem verifies_of_response (hdalek : dalek.Lawful) {secret witness : Vector UInt8 32}
    {context message : List UInt8} {signature : Vector UInt8 64} {k : dalek.Scalar}
    (hlower : lowerHalf signature = ristrettoScalarmult dalek witness)
    (hupper : upperHalf signature = mark (dalek.toBytes k))
    (hk : dalek.value k = response groupOrder
      (dalek.value (verifierChallenge merlin dalek (ristrettoScalarmult dalek secret)
        (ristrettoScalarmult dalek witness) context message))
      (dalek.value (dalek.fromBits secret)) (dalek.value (dalek.fromBits witness))) :
    Verifies merlin dalek (ristrettoScalarmult dalek secret) context message
      signature := by
  have hlt : dalek.value k < groupOrder := by
    rw [hk]
    exact response_lt (by decide) _ _ _
  have hlast := last_toBytes_lt hlt
  have hunmark : unmark (upperHalf signature) = dalek.toBytes k := by
    rw [hupper, unmark_mark hlast]
  have hscalar : littleEndian (unmark (upperHalf signature)).toList = dalek.value k := by
    rw [hunmark]
    rfl
  refine ⟨?_, ?_, dalek.scalarMul (dalek.fromBits secret) dalek.basepoint,
    dalek.scalarMul (dalek.fromBits witness) dalek.basepoint,
    hdalek.decompress_compress _, ?_, ?_, ?_⟩
  · have hbyte : signature[63]! = (upperHalf signature)[31] := by simp [upperHalf]
    rw [hbyte, hupper, mark, Vector.getElem_set_self]
    exact (or_and_marker hlast).2
  · rw [hscalar]
    exact hlt
  · rw [hlower]
    exact hdalek.decompress_compress _
  · rw [hscalar, hlower, hk, hdalek.scalarMul_eq, hdalek.scalarMul_eq]
    exact response_nsmul hdalek.order_basepoint _ _ _
  · rw [hscalar, hlower, hk, hdalek.scalarMul_eq,
      commitment_eq hdalek.order_basepoint, ← hdalek.scalarMul_eq]
    rfl

/-- Whatever the key, the context, the message, the random bytes and the buffer are:
when the caller stores the commitment to the first phase's witness, the second phase
completes a signature for the public key of the secret key. -/
theorem two_phase_signature_verifies (hdalek : dalek.Lawful) (sk : Vector UInt8 64)
    (context message : List UInt8) (randomBytes : Vector UInt8 32)
    (signature : Vector UInt8 64) :
    let pk := ristrettoScalarmult dalek (lowerHalf sk)
    let first := signSr25519Phase1 merlin sk pk context message randomBytes signature
    let stored := copyToLower first (ristrettoScalarmult dalek (upperHalf first))
    Verifies merlin dalek pk context message
      (signSr25519Phase2 merlin dalek sk pk context message stored) := by
  intro pk first stored
  obtain ⟨hlower, hupper⟩ :=
    halves_signSr25519Phase2 merlin dalek sk pk context message stored
  rw [lowerHalf_copyToLower] at hlower hupper
  rw [upperHalf_copyToLower] at hupper
  exact verifies_of_response merlin hdalek hlower hupper
    (value_signature hdalek (value_verifierChallenge_lt merlin hdalek _ _ _ _) _ _)

/-- Transcripts are framed as merlin's are; the challenges are those of no real
one. -/
def frame (bytes : List UInt8) : List UInt8 :=
  bytesOf 4 bytes.length ++ bytes

def sampleMerlin : Merlin where
  Transcript := List UInt8
  new label := frame label
  appendMessage t label message := t ++ frame label ++ frame message
  challengeBytes t label n :=
    let t := t ++ frame label ++ bytesOf 4 n
    (vectorOf n (littleEndian t % (2 ^ 521 - 1)), t)

theorem groupOrder_lt : groupOrder < 2 ^ 255 := by
  decide

instance : NeZero groupOrder :=
  ⟨by decide⟩

def reduced (n : Nat) : Fin (2 ^ 255) :=
  ⟨n % groupOrder, (Nat.mod_lt _ (by decide)).trans groupOrder_lt⟩

def pointOfBytes (bytes : Vector UInt8 32) : Option (ZMod groupOrder) :=
  if littleEndian bytes.toList < groupOrder then
    some (littleEndian bytes.toList : ZMod groupOrder)
  else none

theorem pointOfBytes_vectorOf (p : ZMod groupOrder) :
    pointOfBytes (vectorOf 32 p.val) = some p := by
  have hlt := ZMod.val_lt p
  rw [pointOfBytes, littleEndian_vectorOf (hlt.trans (by decide)), if_pos hlt,
    ZMod.natCast_val, ZMod.cast_id]

/-- The group of the order of the base point, with numbers for its points. -/
def sampleDalek : Dalek where
  Scalar := Fin (2 ^ 255)
  RistrettoPoint := ZMod groupOrder
  group := inferInstance
  zero := reduced 0
  fromBits bytes :=
    ⟨littleEndian bytes.toList % 2 ^ 255, Nat.mod_lt _ (Nat.two_pow_pos 255)⟩
  fromBytesModOrderWide bytes := reduced (littleEndian bytes.toList)
  add a b := reduced (a.val + b.val)
  mul a b := reduced (a.val * b.val)
  toBytes s := vectorOf 32 s.val
  scalarMul s p := s.val • p
  basepoint := 1
  compress p := vectorOf 32 p.val
  decompress := pointOfBytes

theorem value_sampleDalek (s : sampleDalek.Scalar) :
    sampleDalek.value s = Fin.val (n := 2 ^ 255) s := by
  apply littleEndian_vectorOf
  exact (Fin.isLt (n := 2 ^ 255) s).trans (by decide)

theorem sampleDalek_lawful : sampleDalek.Lawful where
  value_zero := by
    rw [value_sampleDalek]
    rfl
  value_fromBits bytes := value_sampleDalek _
  value_wide bytes := value_sampleDalek _
  value_add a b := by
    rw [value_sampleDalek, value_sampleDalek, value_sampleDalek]
    rfl
  value_mul a b := by
    rw [value_sampleDalek, value_sampleDalek, value_sampleDalek]
    rfl
  scalarMul_eq s p := by
    rw [value_sampleDalek]
    rfl
  order_basepoint := ZMod.addOrderOf_one groupOrder
  decompress_compress p := by
    dsimp only [sampleDalek]
    exact pointOfBytes_vectorOf p

theorem two_phase_signature_verifies_sample :
    let sk := vectorOf 64 (2 ^ 511 + 2 ^ 255 + 7)
    let pk := ristrettoScalarmult sampleDalek (lowerHalf sk)
    let first := signSr25519Phase1 sampleMerlin sk pk (ascii "good")
      (ascii "test message") (vectorOf 32 5) (vectorOf 64 0)
    Verifies sampleMerlin sampleDalek pk (ascii "good") (ascii "test message")
      (signSr25519Phase2 sampleMerlin sampleDalek sk pk (ascii "good")
        (ascii "test message")
        (copyToLower first (ristrettoScalarmult sampleDalek (upperHalf first)))) :=
  two_phase_signature_verifies sampleMerlin sampleDalek_lawful _ _ _ _ _

end LedgerSovereign.RistrettoVerification
