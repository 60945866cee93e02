import LedgerSovereign.BufferingInterface
import LedgerSovereign.Crypto
import LedgerSovereign.Parser

/-!
The static objects of the application and the programs that run on them.  An
exception leaves a program without undoing what it did before.
-/

namespace LedgerSovereign.ApplicationState

open LedgerSovereign.BufferingInterface
open LedgerSovereign.Constants
open LedgerSovereign.Crypto
open LedgerSovereign.Parser
open LedgerSovereign.PlatformInterface
open LedgerSovereign.TaggedBuffer

/-- The one transaction object there is, `tx_obj` of `tx.c`. -/
inductive TxStatic
  | txObj
  deriving DecidableEq, Repr

/-- The functions that `view_review_init` registers: what describes the items,
and what an approval calls. -/
inductive ItemSource
  | addr
  | tx
  deriving DecidableEq, Repr

inductive AcceptCallback
  | appReplyAddress
  | appSign
  deriving DecidableEq, Repr

structure Review where
  items : ItemSource
  accept : AcceptCallback
  deriving DecidableEq, Repr

/-- What the application keeps from one request to the next, its I/O buffer
apart. -/
structure Session (B : Buffering) where
  txInitialized : Bool
  hdPath : HdPath
  actionAddrResponseLen : UInt16
  buffering : B.State
  txObj : ParserTx Region
  ctxParsedTx : ParserContext Region TxStatic
  view : Option Review

abbrev IoBuffer := Buffer ioApduBufferSize

/-- All of the state: the session, `G_io_apdu_buffer`, the variables of the main
loop that `flags` and `tx` point at, and the calls of this request. -/
structure State (B : Buffering) extends Session B where
  ioApduBuffer : IoBuffer
  flags : UInt32
  tx : UInt32
  calls : List Call

abbrev App (B : Buffering) := EStateM Thrown (State B)

variable {B : Buffering}

def recordCall (c : Call) : App B Unit :=
  modify fun s => { s with calls := s.calls ++ [c] }

/-- A difference of two `uint32_t`, which wraps. -/
def unsignedSub (a b : UInt32) : App B UInt32 := do
  recordCall (.unsignedSub a b)
  return a - b

def storeIo (off : Nat) (bytes : List UInt8) : App B Unit :=
  modify fun s => { s with ioApduBuffer := s.ioApduBuffer.store off bytes }

def codeBytes (code : UInt16) : List UInt8 :=
  [(code >>> 8).toUInt8, (code &&& 0xFF).toUInt8]

theorem codeBytes_inj {a b : UInt16} (h : codeBytes a = codeBytes b) : a = b := by
  simp only [codeBytes, List.cons.injEq, and_true] at h
  have hhigh := congrArg UInt8.toNat h.1
  have hlow := congrArg UInt8.toNat h.2
  have hmask : (0xFF : UInt16).toNat = 2 ^ 8 - 1 := rfl
  simp only [UInt16.toNat_toUInt8, UInt16.toNat_shiftRight, UInt16.toNat_and,
    hmask, Nat.and_two_pow_sub_one_eq_mod] at hhigh hlow
  change a.toNat >>> 8 % _ = b.toNat >>> 8 % _ at hhigh
  rw [Nat.shiftRight_eq_div_pow, Nat.shiftRight_eq_div_pow] at hhigh
  have ha := a.toNat_lt
  have hb := b.toNat_lt
  apply UInt16.toNat_inj.mp
  omega

def setCode (off : Nat) (code : UInt16) : App B Unit :=
  storeIo off (codeBytes code)

/-- What a crypto function sees whose output object is the I/O buffer and whose
`*addrResponseLen` is `action_addrResponseLen`. -/
def ioFrame (platform : Platform) (s : State B) : Frame ioApduBufferSize where
  out := s.ioApduBuffer
  addrResponseLen := s.actionAddrResponseLen
  cxPrivateKey := platform.uninitPrivateKey
  cxPublicKey := platform.uninitPublicKey
  privateKeyData := Vector.replicate skLen25519 0
  addressEncoded := Buffer.zeros addressMaxLength
  calls := s.calls

def State.fromFrame (s : State B) (f : Frame ioApduBufferSize) : State B :=
  { s with
    ioApduBuffer := f.out
    actionAddrResponseLen := f.addrResponseLen
    calls := f.calls }

def withIoBuffer {α : Type} (platform : Platform)
    (program : EStateM Thrown (Frame ioApduBufferSize) α) : App B α := fun s =>
  match program.run (ioFrame platform s) with
  | .ok a f => .ok a (s.fromFrame f)
  | .error e f => .error e (s.fromFrame f)

end LedgerSovereign.ApplicationState
