import LedgerSovereign.Actions
import Mathlib.Data.Nat.Digits.Defs

/-!
`apdu_handler.c`, as the production build compiles it (without `APP_TESTING`).
-/

namespace LedgerSovereign.ApduHandler

open LedgerSovereign.Actions
open LedgerSovereign.ApplicationState
open LedgerSovereign.BufferingInterface
open LedgerSovereign.Constants
open LedgerSovereign.PlatformInterface
open LedgerSovereign.TaggedBuffer
open LedgerSovereign.Transaction

variable {B : Buffering}

/-- Four bytes in the order of the device's memory, lowest first. -/
def littleEndianWord (bytes : List UInt8) : UInt32 :=
  UInt32.ofNat (Nat.ofDigits 256 (bytes.map UInt8.toNat))

def hdPathOfBytes (bytes : List UInt8) : HdPath :=
  Vector.ofFn fun i => littleEndianWord ((bytes.drop (4 * i.val)).take 4)

def mainnet (path : HdPath) : Bool :=
  path[0] == hdPath0Default && path[1] == hdPath1Default

def extractHDPath (rx offset : UInt32) : App B Unit := do
  modify fun s => { s with txInitialized := false }
  let available ← unsignedSub rx offset
  if available.toNat < 4 * hdPathLenDefault then
    throw (.code apduCodeWrongLength)
  let source := (← get).ioApduBuffer.slice offset.toNat (4 * hdPathLenDefault)
  recordCall (.hdPathMemcpy source)
  modify fun s => { s with hdPath := hdPathOfBytes (cellBytes source) }
  if !mainnet (← get).hdPath then
    throw (.code apduCodeDataInvalid)

def processChunk (rx : UInt32) : App B Bool := do
  let payloadType := (← get).ioApduBuffer.byte offsetPayloadType
  if rx < offsetData then
    throw (.code apduCodeWrongLength)
  if payloadType = p1Init then
    txInitialize
    txReset
    extractHDPath rx offsetData
    modify fun s => { s with txInitialized := true }
    return false
  else if payloadType = p1Add then
    if !(← get).txInitialized then
      throw (.code apduCodeTxNotInitialized)
    let length ← unsignedSub rx offsetData
    let added ← txAppend offsetData.toNat length.toNat
    if added ≠ length then
      modify fun s => { s with txInitialized := false }
      throw (.code apduCodeOutputBufferTooSmall)
    return false
  else if payloadType = p1Last then
    if !(← get).txInitialized then
      throw (.code apduCodeTxNotInitialized)
    let length ← unsignedSub rx offsetData
    let added ← txAppend offsetData.toNat length.toNat
    modify fun s => { s with txInitialized := false }
    if added ≠ length then
      modify fun s => { s with txInitialized := false }
      throw (.code apduCodeOutputBufferTooSmall)
    modify fun s => { s with txInitialized := false }
    return true
  else
    throw (.code apduCodeInvalidP1P2)

/-- `view_review_init`; `view_review_show` then only draws. -/
def viewReviewInit (items : ItemSource) (accept : AcceptCallback) : App B Unit :=
  modify fun s => { s with view := some ⟨items, accept⟩ }

def setAsynchReply : App B Unit :=
  modify fun s => { s with flags := s.flags ||| ioAsynchReply }

def handleGetAddr (platform : Platform) (rx : UInt32) : App B Unit := do
  extractHDPath rx offsetData
  let requireConfirmation := (← get).ioApduBuffer.byte offsetP1
  let zxerr ← appFillAddress platform
  if zxerr ≠ .ok then
    modify fun s => { s with tx := 0 }
    throw (.code apduCodeDataInvalid)
  if requireConfirmation ≠ 0 then
    viewReviewInit .addr .appReplyAddress
    setAsynchReply
    return
  modify fun s => { s with tx := s.actionAddrResponseLen.toUInt32 }
  throw (.code apduCodeOk)

def handleSign (platform : Platform) (rx : UInt32) : App B Unit := do
  if !(← processChunk rx) then
    throw (.code apduCodeOk)
  match ← txParse platform with
  | some errorMsg =>
      let errorMsgLength := min errorMsg.length ioApduBufferSize
      storeIo 0 (errorMsg.take errorMsgLength)
      modify fun s => { s with tx := s.tx + UInt32.ofNat errorMsgLength }
      throw (.code apduCodeDataInvalid)
  | none =>
      viewReviewInit .tx .appSign
      setAsynchReply

def versionBytes (platform : Platform) : List UInt8 :=
  [0,
    ((majorVersion >>> 8) &&& 0xFF).toUInt8, (majorVersion &&& 0xFF).toUInt8,
    ((minorVersion >>> 8) &&& 0xFF).toUInt8, (minorVersion &&& 0xFF).toUInt8,
    ((patchVersion >>> 8) &&& 0xFF).toUInt8, (patchVersion &&& 0xFF).toUInt8,
    if platform.isUxAllowed then 0 else 1,
    ((platform.targetId >>> 24) &&& 0xFF).toUInt8,
    ((platform.targetId >>> 16) &&& 0xFF).toUInt8,
    ((platform.targetId >>> 8) &&& 0xFF).toUInt8,
    (platform.targetId &&& 0xFF).toUInt8]

def handleGetversion (platform : Platform) : App B Unit := do
  storeIo 0 (versionBytes platform)
  modify fun s => { s with tx := s.tx + 12 }
  throw (.code apduCodeOk)

def checkPinValidated (platform : Platform) : App B Unit := do
  if !platform.pinIsValidated then
    throw (.code apduCodeCommandNotAllowed)

/-- The status word that the handler makes of an exception. -/
def statusWord (e : UInt16) : UInt16 :=
  if e &&& 0xF000 = 0x6000 ∨ e &&& 0xF000 = apduCodeOk then e
  else 0x6800 ||| (e &&& 0x7FF)

/-- The part of `handleApdu` inside TRY. -/
def dispatch (platform : Platform) (rx : UInt32) : App B Unit := do
  if (← get).ioApduBuffer.byte offsetCla ≠ cla then
    throw (.code apduCodeClaNotSupported)
  if rx < apduMinLength then
    throw (.code apduCodeWrongLength)
  let ins := (← get).ioApduBuffer.byte offsetIns
  if ins = insGetVersion then
    handleGetversion platform
  else if ins = insGetAddr then
    checkPinValidated platform
    handleGetAddr platform rx
  else if ins = insSign then
    checkPinValidated platform
    handleSign platform rx
  else
    throw (.code apduCodeInsNotSupported)

def handleApdu (platform : Platform) (rx : UInt32) : App B Unit :=
  tryCatch (dispatch platform rx) fun
    | .ioReset => throw .ioReset
    | .code e => do
        let sw := statusWord e
        storeIo (← get).tx.toNat (codeBytes sw)
        modify fun s => { s with tx := s.tx + 2 }

end LedgerSovereign.ApduHandler
