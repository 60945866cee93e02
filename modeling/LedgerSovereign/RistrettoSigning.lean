import LedgerSovereign.Constants
import LedgerSovereign.SigningCrates

/-!
`lib.rs`: an sr25519 signature in two phases.  The witness crosses from the first
to the second one in the upper half of the signature; in between, the caller puts
the commitment into the lower half.
-/

namespace LedgerSovereign.RistrettoSigning

open LedgerSovereign.Constants
open LedgerSovereign.LittleEndian
open LedgerSovereign.SigningCrates

def lowerHalf (bytes : Vector UInt8 64) : Vector UInt8 32 :=
  Vector.ofFn fun i => bytes[i.val]

def upperHalf (bytes : Vector UInt8 64) : Vector UInt8 32 :=
  Vector.ofFn fun i => bytes[i.val + 32]

/-- `copy_from_slice` into a half of the signature -/
def copyToLower (signature : Vector UInt8 64) (bytes : Vector UInt8 32) :
    Vector UInt8 64 :=
  Vector.ofFn fun i => if h : i.val < 32 then bytes[i.val] else signature[i.val]

def copyToUpper (signature : Vector UInt8 64) (bytes : Vector UInt8 32) :
    Vector UInt8 64 :=
  Vector.ofFn fun i => if i.val < 32 then signature[i.val] else bytes[i.val - 32]

variable (merlin : Merlin) (dalek : Dalek)

def multWithSecret (k : dalek.Scalar) (sk : Vector UInt8 64) : dalek.Scalar :=
  let skbytes := lowerHalf sk
  let s := dalek.fromBits skbytes
  dalek.mul k s

/-- The scalar is left in `k` and returned as bytes. -/
def addWitness (k : dalek.Scalar) (x : Vector UInt8 32) :
    Vector UInt8 32 × dalek.Scalar :=
  let r := dalek.fromBits x
  let k := dalek.add k r
  (dalek.toBytes k, k)

def getChallengeScalar (k : dalek.Scalar) (tr : merlin.Transcript) :
    dalek.Scalar × merlin.Transcript :=
  let (kbytes, tr) := merlin.challengeBytes tr (ascii "sign:c") 64
  (dalek.add k (dalek.fromBytesModOrderWide kbytes), tr)

/-- `random_bytes` is what the random generator fills in.  The transcript is
wiped at the end. -/
def getWitnessBytesCustom (br : merlin.Transcript) (nonceSeeds : List (List UInt8))
    (randomBytes : Vector UInt8 32) : Vector UInt8 32 :=
  let br := nonceSeeds.foldl
    (fun br ns => merlin.appendMessage br (ascii "nonce-bytes") ns) br
  let br := merlin.appendMessage br (ascii "rng") randomBytes.toList
  (merlin.challengeBytes br (ascii "witness-bytes") 32).1

def signSr25519Phase1 (skRistrettoExpanded : Vector UInt8 64) (pk : Vector UInt8 32)
    (context message : List UInt8) (randomBytes : Vector UInt8 32)
    (signature : Vector UInt8 64) : Vector UInt8 64 :=
  let signtranscript := merlin.new (ascii "SigningContext")
  let signtranscript := merlin.appendMessage signtranscript (ascii "") context
  let signtranscript := merlin.appendMessage signtranscript (ascii "sign-bytes") message
  let signtranscript :=
    merlin.appendMessage signtranscript (ascii "proto-name") (ascii "Schnorr-sig")
  let signtranscript :=
    merlin.appendMessage signtranscript (ascii "sign:pk") pk.toList
  let x := getWitnessBytesCustom merlin signtranscript
    [(upperHalf skRistrettoExpanded).toList] randomBytes
  copyToUpper signature x

def signSr25519Phase2 (skRistrettoExpanded : Vector UInt8 64) (pk : Vector UInt8 32)
    (context message : List UInt8) (signature : Vector UInt8 64) : Vector UInt8 64 :=
  let signtranscript := merlin.new (ascii "SigningContext")
  let signtranscript := merlin.appendMessage signtranscript (ascii "") context
  let signtranscript := merlin.appendMessage signtranscript (ascii "sign-bytes") message
  let signtranscript :=
    merlin.appendMessage signtranscript (ascii "proto-name") (ascii "Schnorr-sig")
  let signtranscript :=
    merlin.appendMessage signtranscript (ascii "sign:pk") pk.toList
  let signtranscript :=
    merlin.appendMessage signtranscript (ascii "sign:R") (lowerHalf signature).toList
  let x := upperHalf signature
  let k := dalek.zero
  let (k, _) := getChallengeScalar merlin dalek k signtranscript
  let k := multWithSecret dalek k skRistrettoExpanded
  let signature := copyToUpper signature (addWitness dalek k x).1
  signature.set 63 (signature[63] ||| 128)

/-- The tests' `ristretto_scalarmult`, which gives the public key of a secret key
and the commitment to a witness. -/
def ristrettoScalarmult (sk : Vector UInt8 32) : Vector UInt8 32 :=
  dalek.compress (dalek.scalarMul (dalek.fromBits sk) dalek.basepoint)

section Halves

variable (signature : Vector UInt8 64) (bytes : Vector UInt8 32)

@[simp] theorem lowerHalf_copyToLower :
    lowerHalf (copyToLower signature bytes) = bytes := by
  ext i hi
  simp [lowerHalf, copyToLower]

@[simp] theorem upperHalf_copyToLower :
    upperHalf (copyToLower signature bytes) = upperHalf signature := by
  ext i hi
  simp [upperHalf, copyToLower]

@[simp] theorem lowerHalf_copyToUpper :
    lowerHalf (copyToUpper signature bytes) = lowerHalf signature := by
  ext i hi
  simp [lowerHalf, copyToUpper]

@[simp] theorem upperHalf_copyToUpper :
    upperHalf (copyToUpper signature bytes) = bytes := by
  ext i hi
  simp [upperHalf, copyToUpper]

@[simp] theorem lowerHalf_set (b : UInt8) :
    lowerHalf (signature.set 63 b) = lowerHalf signature := by
  ext i hi
  simp only [lowerHalf, Vector.getElem_ofFn]
  rw [Vector.getElem_set_ne]
  omega

theorem upperHalf_mark :
    upperHalf (signature.set 63 (signature[63] ||| 128)) =
      mark (upperHalf signature) := by
  ext i hi
  rcases Nat.lt_or_ge i 31 with hlt | hge
  · simp only [mark, upperHalf, Vector.getElem_ofFn]
    rw [Vector.getElem_set_ne _ _ (by omega), Vector.getElem_set_ne _ _ (by omega),
      Vector.getElem_ofFn]
  · obtain rfl : i = 31 := by omega
    simp [mark, upperHalf]

end Halves

end LedgerSovereign.RistrettoSigning
