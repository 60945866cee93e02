import LedgerSovereign.NonceBinding

namespace LedgerSovereign.SignatureUniqueness

open LedgerSovereign.Constants
open LedgerSovereign.LittleEndian
open LedgerSovereign.NonceBinding
open LedgerSovereign.RistrettoSigning
open LedgerSovereign.RistrettoVerification
open LedgerSovereign.SchnorrGroup
open LedgerSovereign.SigningCrates

section Group

variable {G : Type*} [AddCommGroup G] {B R : G} {l c c' s s' x : Nat}

theorem natCast_eq_of_nsmul (hB : addOrderOf B = l) {m n : Nat} (h : m • B = n • B) :
    (m : ZMod l) = n := by
  rw [ZMod.natCast_eq_natCast_iff, ← hB]
  exact nsmul_eq_nsmul_iff_modEq.mp h

/-- Two responses with one commitment. -/
theorem responses_differ (hB : addOrderOf B = l) (h : s • B = R + c • (x • B))
    (h' : s' • B = R + c' • (x • B)) : (s : ZMod l) - s' = (c - c') * x := by
  have hsum : (s + c' * x) • B = (s' + c * x) • B := by
    rw [add_nsmul, add_nsmul, mul_nsmul', mul_nsmul', h, h', add_right_comm]
  have hmod := natCast_eq_of_nsmul hB hsum
  rw [Nat.cast_add, Nat.cast_add, Nat.cast_mul, Nat.cast_mul] at hmod
  rw [sub_mul, sub_eq_sub_iff_add_eq_add, hmod, add_comm]

end Group

theorem littleEndian_inj {u v : Vector UInt8 32}
    (h : littleEndian u.toList = littleEndian v.toList) : u = v := by
  rw [← Vector.toList_inj]
  apply List.map_injective_iff.mpr (fun a b => UInt8.toNat_inj.mp)
  apply Nat.ofDigits_inj_of_len_eq (b := 256) (by decide) _ _ _ h
  · simp
  · intro d hd
    obtain ⟨b, -, rfl⟩ := List.mem_map.mp hd
    exact b.toNat_lt
  · intro d hd
    obtain ⟨b, -, rfl⟩ := List.mem_map.mp hd
    exact b.toNat_lt

/-- The marker is all that `unmark` removes. -/
theorem mark_unmark {v : Vector UInt8 32} (h : v[31]! &&& 128 = 128) :
    mark (unmark v) = v := by
  have hall : ∀ n : Fin 256, UInt8.ofNat n &&& 128 = 128 →
      (UInt8.ofNat n &&& 127) ||| 128 = UInt8.ofNat n := by
    decide +kernel
  have hbyte := hall ⟨v[31].toNat, v[31].toNat_lt⟩
  rw [UInt8.ofNat_toNat] at hbyte
  rw [getElem!_pos v 31 (by decide)] at h
  rw [mark, unmark, Vector.getElem_set_self, hbyte h, Vector.set_set]
  exact Vector.set_getElem_self _

variable (merlin : Merlin) {dalek : Dalek}

/-- The numbers in the upper half of a signature, and in a challenge. -/
def responseOf (signature : Vector UInt8 64) : Nat :=
  littleEndian (unmark (upperHalf signature)).toList

def challengeOf (dalek : Dalek) (pk : Vector UInt8 32) (context message : List UInt8)
    (signature : Vector UInt8 64) : Nat :=
  dalek.value (verifierChallenge merlin dalek pk (lowerHalf signature) context message)

theorem eq_of_response {signature other : Vector UInt8 64}
    (hmarked : signature[63]! &&& 128 = 128) (hmarked' : other[63]! &&& 128 = 128)
    (hlower : lowerHalf signature = lowerHalf other)
    (hresponse : responseOf signature = responseOf other) : signature = other := by
  have hupper : ∀ v : Vector UInt8 64, v[63]! &&& 128 = 128 →
      mark (unmark (upperHalf v)) = upperHalf v := by
    intro v hv
    apply mark_unmark
    simpa [upperHalf] using hv
  apply eq_of_halves hlower
  rw [← hupper signature hmarked, ← hupper other hmarked', littleEndian_inj hresponse]

/-- What acceptance says under the public key of a secret. -/
theorem equations_of_verifies (hdalek : dalek.Lawful) {secret : Vector UInt8 32}
    {context message : List UInt8} {signature : Vector UInt8 64}
    (h : Verifies merlin dalek (ristrettoScalarmult dalek secret) context message
      signature) :
    let pk := ristrettoScalarmult dalek secret
    let c := challengeOf merlin dalek pk context message signature
    ∃ commitment, dalek.decompress (lowerHalf signature) = some commitment ∧
      responseOf signature • dalek.basepoint = commitment +
        c • (dalek.value (dalek.fromBits secret) • dalek.basepoint) ∧
      dalek.compress (responseOf signature • dalek.basepoint -
        c • (dalek.value (dalek.fromBits secret) • dalek.basepoint)) =
          lowerHalf signature := by
  intro pk c
  obtain ⟨publicKey, commitment, hpk, hcommitment, hsum, hcompress⟩ := h.equation
  rw [ristrettoScalarmult, hdalek.decompress_compress, Option.some.injEq,
    hdalek.scalarMul_eq] at hpk
  rw [← hpk] at hsum hcompress
  exact ⟨commitment, hcommitment, hsum, hcompress⟩

/-- Accepted signatures with one commitment. -/
theorem responses_of_verifies (hdalek : dalek.Lawful) {secret : Vector UInt8 32}
    {context message context' message' : List UInt8} {signature other : Vector UInt8 64}
    (h : Verifies merlin dalek (ristrettoScalarmult dalek secret) context message
      signature)
    (h' : Verifies merlin dalek (ristrettoScalarmult dalek secret) context' message'
      other)
    (hlower : lowerHalf signature = lowerHalf other) :
    let pk := ristrettoScalarmult dalek secret
    let c := challengeOf merlin dalek pk context message signature
    let c' := challengeOf merlin dalek pk context' message' other
    ((responseOf signature : ZMod groupOrder) - responseOf other =
        (c - c') * dalek.value (dalek.fromBits secret)) ∧
      (c = c' → signature = other) := by
  intro pk c c'
  obtain ⟨commitment, hcommitment, hsum, -⟩ := equations_of_verifies merlin hdalek h
  obtain ⟨commitment', hcommitment', hsum', -⟩ := equations_of_verifies merlin hdalek h'
  rw [← hlower, hcommitment, Option.some.injEq] at hcommitment'
  rw [← hcommitment'] at hsum'
  have hdiffer := responses_differ hdalek.order_basepoint hsum hsum'
  refine ⟨hdiffer, fun hsame => eq_of_response h.marked h'.marked hlower ?_⟩
  change (_ : ZMod groupOrder) - _ = ((c : ZMod groupOrder) - c') * _ at hdiffer
  rw [hsame, sub_self, zero_mul, sub_eq_zero, ZMod.natCast_eq_natCast_iff] at hdiffer
  exact Nat.ModEq.eq_of_lt_of_lt hdiffer h.canonical h'.canonical

/-- The response that the second phase puts behind the commitment. -/
theorem responseOf_signSr25519Phase2 (hdalek : dalek.Lawful) (sk stored : Vector UInt8 64)
    (pk : Vector UInt8 32) (context message : List UInt8) :
    let result := signSr25519Phase2 merlin dalek sk pk context message stored
    responseOf result = response groupOrder
      (challengeOf merlin dalek pk context message result)
      (dalek.value (dalek.fromBits (lowerHalf sk)))
      (dalek.value (dalek.fromBits (upperHalf stored))) := by
  intro result
  obtain ⟨hlower, hupper⟩ :=
    halves_signSr25519Phase2 merlin dalek sk pk context message stored
  have hc := value_verifierChallenge_lt merlin hdalek pk (lowerHalf stored) context message
  have hvalue := value_signature hdalek hc (dalek.fromBits (lowerHalf sk))
    (dalek.fromBits (upperHalf stored))
  have hlast := last_toBytes_lt (hvalue.trans_lt (response_lt (by decide) _ _ _))
  rw [responseOf, hupper, unmark_mark hlast, challengeOf, hlower]
  exact hvalue

theorem verifies_of_stored (hdalek : dalek.Lawful) (sk : Vector UInt8 64)
    {stored : Vector UInt8 64} (context message : List UInt8)
    (hstored : lowerHalf stored = ristrettoScalarmult dalek (upperHalf stored)) :
    let pk := ristrettoScalarmult dalek (lowerHalf sk)
    Verifies merlin dalek pk context message
      (signSr25519Phase2 merlin dalek sk pk context message stored) := by
  intro pk
  obtain ⟨hlower, hupper⟩ :=
    halves_signSr25519Phase2 merlin dalek sk pk context message stored
  apply verifies_of_response merlin hdalek (hlower.trans hstored) hupper
  rw [← hstored]
  exact value_signature hdalek (value_verifierChallenge_lt merlin hdalek _ _ _ _) _ _

/-- Whatever the caller stored in the lower half between the phases, and whatever the
upper half is, the second phase makes a signature that is accepted exactly when the
lower half is the commitment to the upper one; and then no other signature with this
commitment is accepted. -/
theorem second_phase_verifies_iff (hdalek : dalek.Lawful) (sk stored : Vector UInt8 64)
    (context message : List UInt8) :
    let pk := ristrettoScalarmult dalek (lowerHalf sk)
    let result := signSr25519Phase2 merlin dalek sk pk context message stored
    (Verifies merlin dalek pk context message result ↔
      lowerHalf stored = ristrettoScalarmult dalek (upperHalf stored)) ∧
    (lowerHalf stored = ristrettoScalarmult dalek (upperHalf stored) →
      ∀ other, Verifies merlin dalek pk context message other →
        lowerHalf other = lowerHalf stored → other = result) := by
  intro pk result
  have hlower :=
    (halves_signSr25519Phase2 merlin dalek sk pk context message stored).1
  constructor
  · constructor
    · intro h
      obtain ⟨-, -, -, hcompress⟩ := equations_of_verifies merlin hdalek h
      rw [responseOf_signSr25519Phase2 merlin hdalek,
        commitment_eq hdalek.order_basepoint, ← hdalek.scalarMul_eq] at hcompress
      rw [← hlower, ← hcompress]
      rfl
    · exact verifies_of_stored merlin hdalek sk context message
  · intro hstored other hother hsame
    have hcommitments : lowerHalf other = lowerHalf result := hsame.trans hlower.symm
    apply (responses_of_verifies merlin hdalek hother
      (verifies_of_stored merlin hdalek sk context message hstored) hcommitments).2
    rw [challengeOf, challengeOf, hcommitments]

def sampleKey : Vector UInt8 64 :=
  vectorOf 64 (2 ^ 511 + 2 ^ 255 + 7)

/-- A witness with its commitment. -/
def sampleStored : Vector UInt8 64 :=
  copyToLower (copyToUpper (vectorOf 64 0) (vectorOf 32 11))
    (ristrettoScalarmult sampleDalek (vectorOf 32 11))

theorem sampleStored_committed :
    lowerHalf sampleStored = ristrettoScalarmult sampleDalek (upperHalf sampleStored) := by
  rw [sampleStored, lowerHalf_copyToLower, upperHalf_copyToLower, upperHalf_copyToUpper]

def sampleSignature (message : List UInt8) : Vector UInt8 64 :=
  signSr25519Phase2 sampleMerlin sampleDalek sampleKey
    (ristrettoScalarmult sampleDalek (lowerHalf sampleKey)) (ascii "good") message
    sampleStored

theorem second_phase_verifies_iff_sample :
    Verifies sampleMerlin sampleDalek
      (ristrettoScalarmult sampleDalek (lowerHalf sampleKey)) (ascii "good")
      (ascii "test message") (sampleSignature (ascii "test message")) :=
  (second_phase_verifies_iff sampleMerlin sampleDalek_lawful sampleKey sampleStored
    (ascii "good") (ascii "test message")).1.mpr sampleStored_committed

/-- Two second phases on one witness, each with its commitment stored.  Their responses
tell the secret scalar, as soon as the difference of the challenges has an inverse. -/
theorem reused_witness_reveals_secret (hdalek : dalek.Lawful) (sk : Vector UInt8 64)
    {stored stored' : Vector UInt8 64}
    (hstored : lowerHalf stored = ristrettoScalarmult dalek (upperHalf stored))
    (hstored' : lowerHalf stored' = ristrettoScalarmult dalek (upperHalf stored'))
    (hreused : upperHalf stored = upperHalf stored')
    (context message context' message' : List UInt8) :
    let pk := ristrettoScalarmult dalek (lowerHalf sk)
    let secret := dalek.value (dalek.fromBits (lowerHalf sk))
    let first := signSr25519Phase2 merlin dalek sk pk context message stored
    let second := signSr25519Phase2 merlin dalek sk pk context' message' stored'
    let c := challengeOf merlin dalek pk context message first
    let c' := challengeOf merlin dalek pk context' message' second
    ((responseOf first : ZMod groupOrder) - responseOf second = (c - c') * secret) ∧
      (c = c' → first = second) ∧
      ∀ d : ZMod groupOrder, d * (c - c') = 1 →
        (secret : ZMod groupOrder) = d * (responseOf first - responseOf second) := by
  intro pk secret first second c c'
  have hfirst := verifies_of_stored merlin hdalek sk context message hstored
  have hsecond := verifies_of_stored merlin hdalek sk context' message' hstored'
  have hlower : lowerHalf first = lowerHalf second := by
    rw [(halves_signSr25519Phase2 merlin dalek sk pk context message stored).1,
      (halves_signSr25519Phase2 merlin dalek sk pk context' message' stored').1, hstored,
      hstored', hreused]
  obtain ⟨hdiffer, hsame⟩ := responses_of_verifies merlin hdalek hfirst hsecond hlower
  refine ⟨hdiffer, hsame, fun d hd => ?_⟩
  calc (secret : ZMod groupOrder) = d * (c - c') * secret := by rw [hd, one_mul]
    _ = d * (responseOf first - responseOf second) := by rw [mul_assoc, ← hdiffer]

/-- The inverse of the difference of two challenges. -/
def sampleInverse : ZMod groupOrder :=
  3061795788316452811937643724109643349570757375774376023294463806796379957856

theorem reused_witness_reveals_secret_sample :
    (7 : ZMod groupOrder) = sampleInverse *
      (responseOf (sampleSignature (ascii "test message")) -
        responseOf (sampleSignature (ascii "other message"))) := by
  have hsecret : sampleDalek.value (sampleDalek.fromBits (lowerHalf sampleKey)) = 7 := by
    decide +kernel
  have hreveals := (reused_witness_reveals_secret sampleMerlin sampleDalek_lawful
    sampleKey sampleStored_committed sampleStored_committed rfl (ascii "good")
    (ascii "test message") (ascii "good") (ascii "other message")).2.2
  rw [hsecret] at hreveals
  apply hreveals sampleInverse
  decide +kernel

end LedgerSovereign.SignatureUniqueness
