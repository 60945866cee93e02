import LedgerSovereign.ApplicationState

/-!
`tx.c`: the message of a signing session, its parse state, and its items.
-/

namespace LedgerSovereign.Transaction

open LedgerSovereign.ApplicationState
open LedgerSovereign.BufferingInterface
open LedgerSovereign.Constants
open LedgerSovereign.Parser
open LedgerSovereign.PlatformInterface
open LedgerSovereign.TaggedBuffer

variable {B : Buffering}

def txInitialize : App B Unit :=
  modify fun s =>
    { s with buffering := B.init ramBufferSize flashBufferSize s.buffering }

def txReset : App B Unit :=
  modify fun s => { s with buffering := B.reset s.buffering }

/-- The bytes appended are the `length` cells from `off` on of the I/O buffer. -/
def txAppend (off length : Nat) : App B UInt32 := do
  let source := (← get).ioApduBuffer.slice off length
  recordCall (.txAppend source)
  let (buffering, added) := B.append (← get).buffering (cellBytes source)
  modify fun s => { s with buffering := buffering }
  return added

def txGetBufferLength (s : Session B) : UInt32 :=
  B.pos s.buffering

def txGetBuffer (s : Session B) : Option Region :=
  B.data s.buffering

/-- The one transaction object, and the two arrays of the message. -/
def txMemory (s : Session B) : Memory Region TxStatic where
  txAt
    | some .txObj => s.txObj
    | none => .zero Region
  bytesAt := B.bytesAt s.buffering

/-- The message that a successful parse refers to is in the static objects; the
result is an error text or NULL. -/
def txParse (platform : Platform) : App B (Option (List UInt8)) := do
  modify fun s => { s with txObj := .zero Region }
  let s ← get
  let (err, ctx, tx) := parserParse s.ctxParsedTx (txGetBuffer s.toSession)
    (txGetBufferLength s.toSession).toUInt64 TxStatic.txObj s.txObj
  modify fun s => { s with ctxParsedTx := ctx, txObj := tx }
  if err ≠ .ok then
    return some (parserGetErrorDescription err)
  let s ← get
  let err := parserValidate platform (txMemory s.toSession) s.ctxParsedTx
  if err ≠ .ok then
    return some (parserGetErrorDescription err)
  return none

def txGetNumItems : ZxErr × UInt8 :=
  match parserGetNumItems with
  | (.ok, numItems) => (.ok, numItems)
  | (_, numItems) => (.unknown, numItems)

def txGetItem (platform : Platform) (s : Session B) (displayIdx : Int8)
    (outKeyLen outValLen : UInt16) (pageIdx : UInt8) (out : ItemOutput) :
    ZxErr × ItemOutput :=
  match txGetNumItems with
  | (.ok, numItems) =>
      if displayIdx.toInt > numItems.toNat then
        (.noData, out)
      else
        match parserGetItem platform (txMemory s) s.ctxParsedTx
            displayIdx.toUInt8 outKeyLen outValLen pageIdx out with
        | (.noData, out) => (.noData, out)
        | (.displayIdxOutOfRange, out) => (.noData, out)
        | (.displayPageOutOfRange, out) => (.noData, out)
        | (.ok, out) => (.ok, out)
        | (_, out) => (.unknown, out)
  | (err, _) => (err, out)

end LedgerSovereign.Transaction
