import LedgerSovereign.PlatformInterface

/-!
`crypto.c` and `crypto_helper.c`.  A crypto function runs on the object its
output pointer points at and on its own locals, which stay visible so that one
can say what it leaves in them.
-/

namespace LedgerSovereign.Crypto

open LedgerSovereign.Constants
open LedgerSovereign.PlatformInterface
open LedgerSovereign.TaggedBuffer

/-- The caller's output object of `n` bytes, `*addrResponseLen`, the locals,
and the calls recorded so far. -/
structure Frame (n : Nat) where
  out : Buffer n
  addrResponseLen : UInt16
  cxPrivateKey : List UInt8
  cxPublicKey : Vector UInt8 65
  privateKeyData : Vector UInt8 skLen25519
  addressEncoded : Buffer addressMaxLength
  calls : List Call

variable {n : Nat}

/-- How control leaves the stretch before the label `catch_cx_error`. -/
inductive Jump
  | catchCxError
  | thrown (e : Thrown)

def record (c : Call) : EStateM Jump (Frame n) Unit :=
  modify fun f => { f with calls := f.calls ++ [c] }

def catchCxError {α β : Type} (call : SdkCall α β)
    (onOk : α → Frame n → Frame n) (onError : β → Frame n → Frame n) :
    EStateM Jump (Frame n) Unit :=
  match call with
  | .ok out => modify (onOk out)
  | .error out => do
      modify (onError out)
      throw .catchCxError
  | .throws e => throw (.thrown e)

/-- Run the stretch before the label.  Its end assigns `zxerr_ok`, a jump leaves
the initial `zxerr_unknown`, and an exception does not stop at the label. -/
def untilCatchCxError (body : EStateM Jump (Frame n) Unit) :
    EStateM Thrown (Frame n) ZxErr := fun f =>
  match body.run f with
  | .ok _ f' => .ok .ok f'
  | .error .catchCxError f' => .ok .unknown f'
  | .error (.thrown e) f' => .error e f'

def setPrivateKeyData (key : Vector UInt8 skLen25519) (f : Frame n) : Frame n :=
  { f with privateKeyData := key }

def setCxPrivateKey (key : List UInt8) (f : Frame n) : Frame n :=
  { f with cxPrivateKey := key }

def setCxPublicKey (key : Vector UInt8 65) (f : Frame n) : Frame n :=
  { f with cxPublicKey := key }

def setCxPair (keys : Vector UInt8 65 × List UInt8) (f : Frame n) : Frame n :=
  { f with cxPublicKey := keys.1, cxPrivateKey := keys.2 }

def writeOut (off : Nat) (bytes : List UInt8) (f : Frame n) : Frame n :=
  { f with out := f.out.store off bytes }

/-- A signature call writes no further than the length it is given. -/
def writeSignature (maxlen : UInt16) (bytes : List UInt8) (f : Frame n) :
    Frame n :=
  writeOut 0 (bytes.take maxlen.toNat) f

/-- The two calls that make the private key for a path, in both functions that
need it. -/
def deriveCxPrivateKey (platform : Platform) (hdPath : HdPath) :
    EStateM Jump (Frame n) Unit := do
  record (.osDeriveBip32WithSeedNoThrow hdPath)
  catchCxError (platform.osDeriveBip32WithSeedNoThrow hdPath)
    setPrivateKeyData setPrivateKeyData
  let f ← get
  catchCxError
    (platform.cxEcfpInitPrivateKeyNoThrow
      (f.privateKeyData.toList.take scalarLenEd25519))
    setCxPrivateKey setCxPrivateKey

/-- The locals as their declarations leave them. -/
def enter (platform : Platform) (f : Frame n) : Frame n :=
  { f with
    cxPrivateKey := platform.uninitPrivateKey
    cxPublicKey := platform.uninitPublicKey
    privateKeyData := Vector.replicate skLen25519 0 }

def wipe (f : Frame n) : Frame n :=
  { f with
    cxPrivateKey := List.replicate f.cxPrivateKey.length 0
    privateKeyData := Vector.replicate skLen25519 0 }

/-- What both functions do behind the label, with the length of their output. -/
def afterLabel (outLen : UInt16) (error : ZxErr) :
    EStateM Thrown (Frame n) ZxErr := do
  modify wipe
  if error ≠ .ok then
    modify fun f => { f with out := f.out.zero outLen.toNat }
  return error

def reversedY (w : Vector UInt8 65) : List UInt8 :=
  (List.range pkLen25519).map fun i => w.toList.getD (64 - i) 0

/-- `crypto_extractPublicKey` up to the label: the key pair, and the loop and
the sign bit that make the 32 bytes out of it. -/
def extractUntilLabel (platform : Platform) (hdPath : HdPath) :
    EStateM Jump (Frame n) Unit := do
  deriveCxPrivateKey platform hdPath
  catchCxError platform.cxEcfpInitPublicKeyNoThrow setCxPublicKey setCxPublicKey
  let f ← get
  catchCxError (platform.cxEcfpGeneratePairNoThrow f.cxPublicKey f.cxPrivateKey)
    setCxPair setCxPair
  let f ← get
  modify (writeOut 0 (reversedY f.cxPublicKey))
  if f.cxPublicKey.toList.getD pkLen25519 0 &&& 1 ≠ 0 then
    modify fun f => writeOut 31 [f.out.byte 31 ||| 0x80] f

def cryptoExtractPublicKey (platform : Platform) (hdPath : HdPath)
    (pubKey : Pointer) (pubKeyLen : UInt16) : EStateM Thrown (Frame n) ZxErr := do
  if pubKey = .null ∨ pubKeyLen.toNat < pkLen25519 then
    return .invalidCryptoSettings
  modify (enter platform)
  let error ← untilCatchCxError (extractUntilLabel platform hdPath)
  afterLabel pubKeyLen error

/-- `crypto_sign` up to the label. -/
def signUntilLabel (platform : Platform) (hdPath : HdPath)
    (signatureMaxlen : UInt16) (message : List UInt8) :
    EStateM Jump (Frame n) Unit := do
  deriveCxPrivateKey platform hdPath
  let f ← get
  catchCxError (platform.cxEddsaSignNoThrow f.cxPrivateKey message)
    (fun out => writeSignature signatureMaxlen out.toList)
    (fun out => writeSignature signatureMaxlen out)

/-- `message` is what the message pointer points at, NULL is `none`. -/
def cryptoSign (platform : Platform) (hdPath : HdPath) (signature : Pointer)
    (signatureMaxlen : UInt16) (message : Option (List UInt8))
    (messageLen : UInt16) : EStateM Thrown (Frame n) ZxErr := do
  let bytes := (message.getD []).take messageLen.toNat
  modify fun f => { f with calls := f.calls ++ [.cryptoSign hdPath bytes] }
  if signature = .null ∨ message.isNone ∨
      signatureMaxlen.toNat < ed25519SignatureSize ∨ messageLen = 0 then
    return .invalidCryptoSettings
  modify (enter platform)
  let error ← untilCatchCxError
    (signUntilLabel platform hdPath signatureMaxlen bytes)
  afterLabel signatureMaxlen error

def cryptoComputeSha256 (platform : Platform) (output : Pointer)
    (outputLen : UInt16) (input : Option (List UInt8)) (inputLen : UInt16)
    (out : Buffer n) : ZxErr × Buffer n :=
  if output = .null ∨ outputLen = 0 ∨ input.isNone then
    (.invalidCryptoSettings, out)
  else if outputLen.toNat < pkLen25519 then
    (.invalidCryptoSettings, out)
  else
    let out := out.zero outputLen.toNat
    let digest := platform.cxHashSha256 ((input.getD []).take inputLen.toNat)
    (.ok, out.store 0 digest.toList)

/-- `pubkey` is what the key pointer points at, NULL is `none`. -/
def cryptoComputeAddress (platform : Platform) (address : Pointer)
    (addressLen : UInt16) (pubkey : Option (List UInt8)) (out : Buffer n) :
    ZxErr × Buffer n :=
  if address = .null ∨ addressLen = 0 ∨ pubkey.isNone then
    (.invalidCryptoSettings, out)
  else if addressLen.toNat < addressMaxLength then
    (.invalidCryptoSettings, out)
  else
    let out := out.zero addressLen.toNat
    match cryptoComputeSha256 platform .object 32 pubkey 32
        (Buffer.zeros pkLen25519) with
    | (.ok, sha) =>
        match platform.bech32EncodeFromBytes addressMaxLength hrp
            (sha.load 0 pubkeyShaLen) true .bech32m with
        | .ok text => (.ok, out.store 0 (text.chars ++ [0]))
        | .failed err _ leaves => (err, out.store 0 (leaves.take addressMaxLength))
    | (err, _) => (err, out)

/-- The check before the address is copied.  The difference is unsigned, as
PK_LEN_25519 is. -/
def AddressTooLong (addressLen : Nat) (bufferLen : UInt16) : Prop :=
  UInt32.ofNat addressLen > bufferLen.toUInt32 - UInt32.ofNat pkLen25519

instance (addressLen : Nat) (bufferLen : UInt16) :
    Decidable (AddressTooLong addressLen bufferLen) :=
  inferInstanceAs (Decidable (_ > _))

def cryptoFillAddress (platform : Platform) (hdPath : HdPath)
    (buffer : Pointer) (bufferLen : UInt16) (addrResponseLen : Pointer) :
    EStateM Thrown (Frame n) ZxErr := do
  if buffer = .null ∨ addrResponseLen = .null then
    return .invalidCryptoSettings
  if bufferLen.toNat < pkLen25519 + addressMaxLength then
    return .bufferTooSmall
  modify fun f => { f with out := f.out.zero bufferLen.toNat }
  let err ← cryptoExtractPublicKey platform hdPath .object bufferLen
  if err ≠ .ok then
    return err
  modify fun f => { f with addressEncoded := Buffer.zeros addressMaxLength }
  let f ← get
  let (err, encoded) := cryptoComputeAddress platform .object 66
    (some (f.out.load 0 n)) f.addressEncoded
  modify fun f => { f with addressEncoded := encoded }
  if err ≠ .ok then
    modify fun f => { f with out := f.out.zero bufferLen.toNat }
    return err
  let addressLen := (encoded.cString 0).length
  if AddressTooLong addressLen bufferLen then
    modify fun f => { f with out := f.out.zero bufferLen.toNat }
    return .bufferTooSmall
  modify (writeOut pkLen25519 (encoded.load 0 addressLen))
  modify fun f =>
    { f with addrResponseLen := UInt16.ofNat (pkLen25519 + addressLen) }
  return .ok

end LedgerSovereign.Crypto
