import LedgerSovereign.Constants
import LedgerSovereign.TaggedBuffer

/-!
What the application calls outside its own sources: the device SDK and zxlib.
-/

namespace LedgerSovereign.PlatformInterface

open LedgerSovereign.Constants
open LedgerSovereign.TaggedBuffer

/-- An exception of the SDK's TRY/CATCH mechanism. -/
inductive Thrown
  | ioReset
  | code (e : UInt16)
  deriving DecidableEq, Repr

inductive ZxErr
  | unknown
  | ok
  | noData
  | bufferTooSmall
  | outOfBounds
  | encodingFailed
  | invalidCryptoSettings
  | ledgerApiError
  deriving DecidableEq, Repr

abbrev HdPath := Vector UInt32 hdPathLenDefault

/-- A pointer argument: NULL, or the address of the object at hand. -/
inductive Pointer
  | null
  | object
  deriving DecidableEq, Repr

/-- What a `_no_throw` call did: it returned CX_OK or an error code, leaving
something in its output object either way, or it threw after all. -/
inductive SdkCall (α β : Type)
  | ok (out : α)
  | error (out : β)
  | throws (e : Thrown)

/-- A text of fewer than `n` characters, without a zero byte. -/
structure CText (n : Nat) where
  chars : List UInt8
  fits : chars.length < n
  noZero : (0 : UInt8) ∉ chars

inductive Bech32Encoding
  | bech32
  | bech32m
  deriving DecidableEq, Repr

/-- `bech32EncodeFromBytes` writes a terminated text into its output, or fails
and may leave anything there. -/
inductive Bech32Outcome (n : Nat)
  | ok (text : CText n)
  | failed (err : ZxErr) (hfailed : err ≠ .ok) (leaves : List UInt8)

/-- The device, its SDK and zxlib as they behave during one request.  Objects of
type `cx_ecfp_private_key_t` are their bytes, a `cx_ecfp_public_key_t` is its
field `W`. -/
structure Platform where
  pinIsValidated : Bool
  isUxAllowed : Bool
  appModeExpert : Bool
  targetId : UInt32
  uninitPrivateKey : List UInt8
  uninitPublicKey : Vector UInt8 65
  osDeriveBip32WithSeedNoThrow :
    HdPath → SdkCall (Vector UInt8 skLen25519) (Vector UInt8 skLen25519)
  cxEcfpInitPrivateKeyNoThrow :
    List UInt8 → SdkCall (List UInt8) (List UInt8)
  cxEcfpInitPublicKeyNoThrow : SdkCall (Vector UInt8 65) (Vector UInt8 65)
  cxEcfpGeneratePairNoThrow : Vector UInt8 65 → List UInt8 →
    SdkCall (Vector UInt8 65 × List UInt8) (Vector UInt8 65 × List UInt8)
  cxEddsaSignNoThrow : List UInt8 → List UInt8 →
    SdkCall (Vector UInt8 ed25519SignatureSize) (List UInt8)
  cxHashSha256 : List UInt8 → Vector UInt8 32
  bech32EncodeFromBytes : (outputLen : Nat) → (hrp input : List UInt8) →
    (pad : Bool) → Bech32Encoding → Bech32Outcome outputLen
  bip32ToStr : HdPath → List UInt8
  pageString : (outValueLen : UInt16) → (inValue : List UInt8) →
    (pageIdx : UInt8) → List UInt8 × UInt8
  pageStringHex : (outValueLen : UInt16) → (inValue : List UInt8) →
    (pageIdx : UInt8) → List UInt8 × UInt8

/-- Calls whose arguments the properties speak about, recorded as they happen:
key derivations, signatures, and what is read out of the request. -/
inductive Call
  | osDeriveBip32WithSeedNoThrow (path : HdPath)
  | cryptoSign (path : HdPath) (message : List UInt8)
  | hdPathMemcpy (source : List Cell)
  | txAppend (source : List Cell)
  | unsignedSub (a b : UInt32)
  deriving DecidableEq

/-- `snprintf(out, outLen, text)` on the text an output buffer holds. -/
def snprintf (outLen : UInt16) (text out : List UInt8) : List UInt8 :=
  if outLen = 0 then out else text.take (outLen.toNat - 1)

def hexDigit (nibble : UInt8) : UInt8 :=
  (ascii "0123456789abcdef").getD nibble.toNat 0

def hexText (bytes : List UInt8) : List UInt8 :=
  bytes.flatMap fun b : UInt8 => [hexDigit (b >>> 4), hexDigit (b &&& 0xF)]

@[simp] theorem length_hexText (bytes : List UInt8) :
    (hexText bytes).length = 2 * bytes.length := by
  induction bytes with
  | nil => rfl
  | cons b bytes ih =>
      rw [hexText, List.flatMap_cons, List.length_append]
      change 2 + (hexText bytes).length = _
      rw [ih, List.length_cons]
      omega

end LedgerSovereign.PlatformInterface
