import LedgerSovereign.Transaction

/-!
`actions.h` and `addr.c`: the address request, the deferred replies, and the
items of an address review.
-/

namespace LedgerSovereign.Actions

open LedgerSovereign.ApplicationState
open LedgerSovereign.BufferingInterface
open LedgerSovereign.Constants
open LedgerSovereign.Crypto
open LedgerSovereign.Parser
open LedgerSovereign.PlatformInterface
open LedgerSovereign.TaggedBuffer
open LedgerSovereign.Transaction

variable {B : Buffering}

def appFillAddress (platform : Platform) : App B ZxErr := do
  modify fun s =>
    { s with ioApduBuffer := s.ioApduBuffer.zero ioApduBufferSize }
  modify fun s => { s with actionAddrResponseLen := 0 }
  let s ← get
  let err ← withIoBuffer platform
    (cryptoFillAddress platform s.hdPath .object
      (UInt16.ofNat ioApduBufferSize) .object)
  let s ← get
  if err ≠ .ok ∨ s.actionAddrResponseLen = 0 then
    throw (.code apduCodeExecutionError)
  return .ok

/-- `io_exchange(CHANNEL_APDU | IO_RETURN_AFTER_TX, length)` -/
def ioExchange (length : Nat) : App B (List Cell) := do
  return (← get).ioApduBuffer.slice 0 length

/-- The bytes that the pointer of `tx_get_buffer` leads to, and NULL. -/
def messageBytes (s : Session B) : Option (List UInt8) :=
  (txGetBuffer s).map (B.memory s.buffering)

def appSign (platform : Platform) : App B (List Cell) := do
  let s ← get
  let message := messageBytes s.toSession
  let messageLength := (txGetBufferLength s.toSession).toUInt16
  let err ← withIoBuffer platform
    (cryptoSign platform s.hdPath .object (UInt16.ofNat (ioApduBufferSize - 3))
      message messageLength)
  if err ≠ .ok then
    setCode 0 apduCodeSignVerifyError
    ioExchange 2
  else
    setCode skLen25519 apduCodeOk
    ioExchange (skLen25519 + 2)

def appReject : App B (List Cell) := do
  modify fun s =>
    { s with ioApduBuffer := s.ioApduBuffer.zero ioApduBufferSize }
  setCode 0 apduCodeCommandNotAllowed
  ioExchange 2

def appReplyAddress : App B (List Cell) := do
  let s ← get
  setCode s.actionAddrResponseLen.toNat apduCodeOk
  ioExchange (s.actionAddrResponseLen.toNat + 2)

def addrGetNumItems (platform : Platform) : ZxErr × UInt8 :=
  if platform.appModeExpert then (.ok, 2) else (.ok, 1)

/-- The page source of an item: a key, and the text that `pageString` cuts. -/
def addrPage (platform : Platform) (outKeyLen outValLen : UInt16)
    (pageIdx : UInt8) (key text : List UInt8) (out : ItemOutput) : ItemOutput :=
  let page := platform.pageString outValLen text pageIdx
  { out with
    outKey := snprintf outKeyLen key out.outKey
    outVal := page.1
    pageCount := page.2 }

def shownAddress (s : State B) : List UInt8 :=
  s.ioApduBuffer.cString pkLen25519

def addrGetItem (platform : Platform) (s : State B) (displayIdx : Int8)
    (outKeyLen outValLen : UInt16) (pageIdx : UInt8) (out : ItemOutput) :
    ZxErr × ItemOutput :=
  if displayIdx = 0 then
    (.ok, addrPage platform outKeyLen outValLen pageIdx (ascii "Address")
      (shownAddress s) out)
  else if displayIdx = 1 then
    if !platform.appModeExpert then
      (.noData, out)
    else
      (.ok, addrPage platform outKeyLen outValLen pageIdx (ascii "Your Path")
        (platform.bip32ToStr s.hdPath) out)
  else
    (.noData, out)

end LedgerSovereign.Actions
