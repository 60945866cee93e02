import LedgerSovereign.RistrettoVerification

namespace LedgerSovereign.NonceBinding

open LedgerSovereign.Constants
open LedgerSovereign.LittleEndian
open LedgerSovereign.RistrettoSigning
open LedgerSovereign.RistrettoVerification
open LedgerSovereign.SigningCrates

/-- A message appended to a transcript, under its label. -/
structure Operation where
  label : List UInt8
  message : List UInt8
  deriving DecidableEq

/-- What both phases are called with, and what the random generator gives. -/
structure SigningSession where
  sk : Vector UInt8 64
  pk : Vector UInt8 32
  context : List UInt8
  message : List UInt8
  randomBytes : Vector UInt8 32
  buffer : Vector UInt8 64

variable (merlin : Merlin) (dalek : Dalek)

/-- The transcript of a protocol after a sequence of operations. -/
def transcript (protocol : List UInt8) (operations : List Operation) :
    merlin.Transcript :=
  operations.foldl (fun t op => merlin.appendMessage t op.label op.message)
    (merlin.new protocol)

/-- The challenge bytes under a label tell two sequences of operations apart. -/
def Separates (protocol label : List UInt8) (n : Nat) (xs ys : List Operation) : Prop :=
  (merlin.challengeBytes (transcript merlin protocol xs) label n).1 =
    (merlin.challengeBytes (transcript merlin protocol ys) label n).1 → xs = ys

namespace SigningSession

variable (a : SigningSession)

/-- The upper half of the signature after the first phase. -/
def witness : Vector UInt8 32 :=
  upperHalf (signSr25519Phase1 merlin a.sk a.pk a.context a.message a.randomBytes
    a.buffer)

/-- The caller puts the commitment to the witness into the lower half. -/
def committed : Vector UInt8 64 :=
  copyToLower
    (signSr25519Phase1 merlin a.sk a.pk a.context a.message a.randomBytes a.buffer)
    (ristrettoScalarmult dalek (a.witness merlin))

def signature : Vector UInt8 64 :=
  signSr25519Phase2 merlin dalek a.sk a.pk a.context a.message
    (a.committed merlin dalek)

/-- What is appended before the witness is drawn. -/
def witnessOperations : List Operation :=
  [⟨ascii "", a.context⟩, ⟨ascii "sign-bytes", a.message⟩,
    ⟨ascii "proto-name", ascii "Schnorr-sig"⟩, ⟨ascii "sign:pk", a.pk.toList⟩,
    ⟨ascii "nonce-bytes", (upperHalf a.sk).toList⟩,
    ⟨ascii "rng", a.randomBytes.toList⟩]

/-- What is appended before the challenge is drawn. -/
def challengeOperations : List Operation :=
  [⟨ascii "", a.context⟩, ⟨ascii "sign-bytes", a.message⟩,
    ⟨ascii "proto-name", ascii "Schnorr-sig"⟩, ⟨ascii "sign:pk", a.pk.toList⟩,
    ⟨ascii "sign:R", (lowerHalf (a.committed merlin dalek)).toList⟩]

/-- The scalar that `get_challenge_scalar` leaves in the second phase. -/
def challenge : dalek.Scalar :=
  (getChallengeScalar merlin dalek dalek.zero
    (transcript merlin (ascii "SigningContext")
      (a.challengeOperations merlin dalek))).1

theorem witness_eq :
    a.witness merlin = (merlin.challengeBytes
      (transcript merlin (ascii "SigningContext") a.witnessOperations)
      (ascii "witness-bytes") 32).1 := by
  rw [witness, signSr25519Phase1, upperHalf_copyToUpper]
  simp only [transcript, witnessOperations, getWitnessBytesCustom, List.foldl_cons,
    List.foldl_nil]

theorem challenge_eq :
    a.challenge merlin dalek = dalek.add dalek.zero (verifierChallenge merlin dalek a.pk
      (lowerHalf (a.committed merlin dalek)) a.context a.message) := by
  simp only [challenge, challengeOperations, transcript, getChallengeScalar,
    verifierChallenge, List.foldl_cons, List.foldl_nil]

theorem lowerHalf_committed :
    lowerHalf (a.committed merlin dalek) =
      ristrettoScalarmult dalek (a.witness merlin) := by
  rw [committed, lowerHalf_copyToLower]

theorem upperHalf_committed : upperHalf (a.committed merlin dalek) = a.witness merlin := by
  rw [committed, upperHalf_copyToLower, witness]

/-- The second phase keeps the commitment, and responds to a challenge with the key
and the witness. -/
structure Responds (challenge : dalek.Scalar) : Prop where
  commitment : lowerHalf (a.signature merlin dalek) =
    ristrettoScalarmult dalek (a.witness merlin)
  response : upperHalf (a.signature merlin dalek) = mark (addWitness dalek
    (dalek.mul challenge (dalek.fromBits (lowerHalf a.sk))) (a.witness merlin)).1

theorem responds : a.Responds merlin dalek (a.challenge merlin dalek) := by
  obtain ⟨hlower, hupper⟩ := halves_signSr25519Phase2 merlin dalek a.sk a.pk a.context
    a.message (a.committed merlin dalek)
  rw [← challenge_eq, upperHalf_committed] at hupper
  rw [lowerHalf_committed] at hlower
  exact ⟨hlower, hupper⟩

end SigningSession

theorem eq_of_halves {u v : Vector UInt8 64} (hlower : lowerHalf u = lowerHalf v)
    (hupper : upperHalf u = upperHalf v) : u = v := by
  apply Vector.ext
  intro i hi
  rcases Nat.lt_or_ge i 32 with hlt | hge
  · have hbyte := congrArg (fun w : Vector UInt8 32 => w[i]) hlower
    simpa [lowerHalf] using hbyte
  · have hbyte := congrArg (fun w : Vector UInt8 32 => w[i - 32]) hupper
    simpa [upperHalf, Nat.sub_add_cancel hge] using hbyte

variable {merlin}

/-- Sessions with one witness respond to one challenge, and under one secret key with
one signature, whatever the random generator gives. -/
theorem equal_witnesses_bind_sessions (dalek : Dalek) {a b : SigningSession}
    (hmerlin : Separates merlin (ascii "SigningContext") (ascii "witness-bytes") 32
      a.witnessOperations b.witnessOperations)
    (h : a.witness merlin = b.witness merlin) :
    a.pk = b.pk ∧ a.context = b.context ∧ a.message = b.message ∧
      upperHalf a.sk = upperHalf b.sk ∧ a.randomBytes = b.randomBytes ∧
      a.challenge merlin dalek = b.challenge merlin dalek ∧
      a.Responds merlin dalek (a.challenge merlin dalek) ∧
      b.Responds merlin dalek (b.challenge merlin dalek) ∧
      (lowerHalf a.sk = lowerHalf b.sk →
        a.signature merlin dalek = b.signature merlin dalek) := by
  have hoperations : a.witnessOperations = b.witnessOperations := by
    apply hmerlin
    rw [← a.witness_eq, ← b.witness_eq, h]
  simp only [SigningSession.witnessOperations, List.cons.injEq, Operation.mk.injEq,
    true_and, and_true] at hoperations
  obtain ⟨hcontext, hmessage, hpk, hnonce, hrandom⟩ := hoperations
  rw [Vector.toList_inj] at hpk hnonce hrandom
  have hchallenge : a.challenge merlin dalek = b.challenge merlin dalek := by
    simp only [SigningSession.challenge, SigningSession.challengeOperations,
      SigningSession.lowerHalf_committed, hcontext, hmessage, hpk, h]
  have ha := a.responds merlin dalek
  have hb := b.responds merlin dalek
  refine ⟨hpk, hcontext, hmessage, hnonce, hrandom, hchallenge, ha, hb, fun hsecret => ?_⟩
  apply eq_of_halves
  · rw [ha.commitment, hb.commitment, h]
  · rw [ha.response, hb.response, hchallenge, hsecret, h]

/-- The random generator is stuck, and the buffers differ. -/
def sampleSession (buffer : Vector UInt8 64) : SigningSession where
  sk := vectorOf 64 (2 ^ 511 + 2 ^ 255 + 7)
  pk := vectorOf 32 3
  context := ascii "good"
  message := ascii "test message"
  randomBytes := vectorOf 32 0
  buffer := buffer

theorem equal_witnesses_bind_sessions_sample :
    let a := sampleSession (vectorOf 64 0)
    let b := sampleSession (vectorOf 64 9)
    a.challenge sampleMerlin sampleDalek = b.challenge sampleMerlin sampleDalek ∧
      a.signature sampleMerlin sampleDalek = b.signature sampleMerlin sampleDalek := by
  intro a b
  have hseparates : Separates sampleMerlin (ascii "SigningContext")
      (ascii "witness-bytes") 32 a.witnessOperations b.witnessOperations :=
    fun _ => rfl
  have hwitness : a.witness sampleMerlin = b.witness sampleMerlin := by
    rw [a.witness_eq, b.witness_eq]
    rfl
  obtain ⟨-, -, -, -, -, hchallenge, -, -, hsignature⟩ :=
    equal_witnesses_bind_sessions sampleDalek hseparates hwitness
  exact ⟨hchallenge, hsignature rfl⟩

end LedgerSovereign.NonceBinding
