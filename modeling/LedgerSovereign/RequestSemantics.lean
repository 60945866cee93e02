import LedgerSovereign.ApduHandler
import LedgerSovereign.CryptoOutcomes

/-!
What a request asks for and what the application answers, as functions of the
received bytes and of the session.  Neither the I/O buffer nor exceptions occur
here.
-/

namespace LedgerSovereign.RequestSemantics

open LedgerSovereign.Actions
open LedgerSovereign.ApduHandler
open LedgerSovereign.ApplicationState
open LedgerSovereign.BufferingInterface
open LedgerSovereign.Constants
open LedgerSovereign.CryptoOutcomes
open LedgerSovereign.Parser
open LedgerSovereign.PlatformInterface
open LedgerSovereign.TaggedBuffer

/-- A request as the transport leaves it in the I/O buffer: the received bytes,
and behind them whatever was there before. -/
structure Apdu where
  received : List UInt8
  stale : List UInt8
  nonempty : received ≠ []
  size : received.length + stale.length = ioApduBufferSize

namespace Apdu

def buffer (request : Apdu) : IoBuffer where
  cells := receivedCells request.received ++ staleCells request.stale
  size := by
    rw [List.length_append, length_receivedCells, length_staleCells,
      request.size]

def rx (request : Apdu) : UInt32 :=
  UInt32.ofNat request.received.length

theorem length_le (request : Apdu) : request.received.length ≤ 260 := by
  have hsize : request.received.length + request.stale.length = 260 := request.size
  omega

theorem toNat_rx (request : Apdu) :
    request.rx.toNat = request.received.length := by
  have hle := request.length_le
  rw [rx, UInt32.toNat_ofNat']
  omega

def filled (received : List UInt8) (fill : UInt8)
    (h : 0 < received.length ∧ received.length ≤ ioApduBufferSize) : Apdu where
  received := received
  stale := List.replicate (ioApduBufferSize - received.length) fill
  nonempty := List.ne_nil_of_length_pos h.1
  size := by
    rw [List.length_replicate]
    omega

def command (ins p1 : UInt8) (payload : List UInt8) (h : payload.length ≤ 255) :
    Apdu :=
  .filled (cla :: ins :: p1 :: 0 :: UInt8.ofNat payload.length :: payload) 0 (by
    simp only [List.length_cons, ioApduBufferSize]
    omega)

theorem byte_eq (request : Apdu) {i : Nat} (h : i < request.received.length) :
    request.buffer.byte i = request.received[i] := by
  simp only [Buffer.byte, buffer, List.getD_eq_getElem?_getD]
  rw [List.getElem?_append_left (by simpa using h)]
  simp [receivedCells, h]

theorem slice_eq (request : Apdu) {off len : Nat}
    (h : off + len ≤ request.received.length) :
    request.buffer.slice off len =
      receivedCells ((request.received.drop off).take len) := by
  rw [Buffer.slice, buffer, List.drop_append_of_le_length (by simp; omega),
    List.take_append_of_le_length (by simp; omega), receivedCells, receivedCells,
    List.map_take, List.map_drop]

end Apdu

/-- The commands, with what the application uses of their bytes. -/
inductive Request
  | wrongClass
  | tooShort
  | unknownInstruction
  | getVersion
  | getAddr (confirm : Bool) (payload : List UInt8)
  | signInit (payload : List UInt8)
  | signAdd (payload : List UInt8)
  | signLast (payload : List UInt8)
  | signOther
  deriving DecidableEq, Repr

def decodeSign (p1 : UInt8) (payload : List UInt8) : Request :=
  if p1 = p1Init then .signInit payload
  else if p1 = p1Add then .signAdd payload
  else if p1 = p1Last then .signLast payload
  else .signOther

def Request.payload : Request → List UInt8
  | .getAddr _ payload => payload
  | .signInit payload => payload
  | .signAdd payload => payload
  | .signLast payload => payload
  | _ => []

/-- The byte that would give the payload's length is not used. -/
def decode : List UInt8 → Request
  | c :: ins :: p1 :: _ :: _ :: payload =>
      if c ≠ cla then .wrongClass
      else if ins = insGetVersion then .getVersion
      else if ins = insGetAddr then .getAddr (p1 != 0) payload
      else if ins = insSign then decodeSign p1 payload
      else .unknownInstruction
  | c :: _ => if c ≠ cla then .wrongClass else .tooShort
  | [] => .tooShort

theorem decode_cases {received : List UInt8} (h : received ≠ []) :
    (∃ c rest, received = c :: rest ∧ rest.length < 4 ∧
      decode received = if c ≠ cla then .wrongClass else .tooShort) ∨
    ∃ c ins p1 p2 lc payload,
      received = c :: ins :: p1 :: p2 :: lc :: payload := by
  match received, h with
  | [c], _ => exact .inl ⟨c, _, rfl, by simp, rfl⟩
  | [c, _], _ => exact .inl ⟨c, _, rfl, by simp, rfl⟩
  | [c, _, _], _ => exact .inl ⟨c, _, rfl, by simp, rfl⟩
  | [c, _, _, _], _ => exact .inl ⟨c, _, rfl, by simp, rfl⟩
  | c :: ins :: p1 :: p2 :: lc :: payload, _ =>
      exact .inr ⟨c, ins, p1, p2, lc, payload, rfl⟩

theorem length_payload_decodeSign (p1 : UInt8) (payload : List UInt8) :
    (decodeSign p1 payload).payload.length ≤ payload.length := by
  unfold decodeSign
  split
  · exact le_rfl
  · split
    · exact le_rfl
    · split
      · exact le_rfl
      · exact Nat.zero_le _

theorem length_payload_decode {received : List UInt8} (h : received ≠ []) :
    (decode received).payload.length ≤ received.length := by
  rcases decode_cases h with ⟨c, rest, rfl, -, hdecode⟩ | ⟨c, ins, p1, p2, lc, payload, rfl⟩
  · rw [hdecode]
    split <;> exact Nat.zero_le _
  · have hsign := length_payload_decodeSign p1 payload
    simp only [List.length_cons]
    rw [decode]
    split
    · exact Nat.zero_le _
    · split
      · exact Nat.zero_le _
      · split
        · change payload.length ≤ _
          omega
        · split
          · omega
          · exact Nat.zero_le _

theorem Apdu.length_payload_le (request : Apdu) {r : Request}
    (h : decode request.received = r) : r.payload.length ≤ ioApduBufferSize := by
  rw [← h]
  exact (length_payload_decode request.nonempty).trans request.length_le

def coinPath (account : UInt8) (hardened : Bool) : List UInt8 :=
  [0x2c, 0x00, 0x00, 0x80, 0x0f, 0x06, 0x00, 0x80, account, 0x00, 0x00,
    if hardened then 0x80 else 0x00]

theorem length_coinPath (account : UInt8) (hardened : Bool) :
    (coinPath account hardened).length = 12 :=
  rfl

/-- An address request for an account. -/
def addressRequest (p1 account : UInt8) : Apdu :=
  .command insGetAddr p1 (coinPath account true) (by
    rw [length_coinPath]
    omega)

/-- An answer is a reply, a review that decides about the reply, or the
exception that restarts the application. -/
inductive Response
  | reply (data : List UInt8) (code : UInt16)
  | addressReview (data : List UInt8)
  | messageReview
  | silence
  deriving DecidableEq

structure Served (B : Buffering) where
  session : Session B
  response : Response
  calls : List Call

variable {B : Buffering}

def refuse (s : Session B) (code : UInt16) : Served B :=
  ⟨s, .reply [] code, []⟩

def Served.after (calls : List Call) (served : Served B) : Served B :=
  { served with calls := calls ++ served.calls }

def payloadLength (payload : List UInt8) : Call :=
  .unsignedSub (UInt32.ofNat (payload.length + 5)) offsetData

def closed (s : Session B) : Session B :=
  { s with txInitialized := false }

def pathOf (payload : List UInt8) : HdPath :=
  hdPathOfBytes (payload.take 12)

def withPath (s : Session B) (payload : List UInt8) : Session B :=
  { closed s with hdPath := pathOf payload }

def pathCalls (payload : List UInt8) : List Call :=
  [payloadLength payload, .hdPathMemcpy (receivedCells (payload.take 12))]

/-- Take the path from a payload.  The session is closed before the payload is
looked at, and the path is kept before it is checked. -/
def servePath (s : Session B) (payload : List UInt8)
    (next : Session B → Served B) : Served B :=
  if payload.length < 12 then
    (refuse (closed s) apduCodeWrongLength).after [payloadLength payload]
  else if mainnet (pathOf payload) then
    (next (withPath s payload)).after (pathCalls payload)
  else
    (refuse (withPath s payload) apduCodeDataInvalid).after (pathCalls payload)

def addressFailure : Option Thrown → Response
  | none => .reply [] apduCodeExecutionError
  | some (.code e) => .reply [] (statusWord e)
  | some .ioReset => .silence

def addressView : Review := ⟨.addr, .appReplyAddress⟩

def messageView : Review := ⟨.tx, .appSign⟩

def serveAddress (platform : Platform) (confirm : Bool) (s : Session B) :
    Served B :=
  let calls := [.osDeriveBip32WithSeedNoThrow s.hdPath]
  match addressReplyOf platform s.hdPath with
  | .error failure =>
      ⟨{ s with actionAddrResponseLen := 0 }, addressFailure failure, calls⟩
  | .ok data =>
      let s := { s with actionAddrResponseLen := UInt16.ofNat data.length }
      if confirm then
        ⟨{ s with view := some addressView }, .addressReview data, calls⟩
      else
        ⟨s, .reply data apduCodeOk, calls⟩

def emptied (s : Session B) : Session B :=
  { s with
    buffering := B.reset (B.init ramBufferSize flashBufferSize s.buffering) }

def opened (s : Session B) : Session B :=
  { s with txInitialized := true }

def serveInit (s : Session B) (payload : List UInt8) : Served B :=
  servePath (emptied s) payload fun s => ⟨opened s, .reply [] apduCodeOk, []⟩

def appended (s : Session B) (payload : List UInt8) : Session B :=
  { s with buffering := (B.append s.buffering payload).1 }

def Takes (s : Session B) (payload : List UInt8) : Prop :=
  (B.append s.buffering payload).2 = UInt32.ofNat payload.length

instance (s : Session B) (payload : List UInt8) : Decidable (Takes s payload) :=
  inferInstanceAs (Decidable (_ = _))

def chunkCalls (payload : List UInt8) : List Call :=
  [payloadLength payload, .txAppend (receivedCells payload)]

def serveChunk (s : Session B) (payload : List UInt8)
    (next : Session B → Served B) : Served B :=
  if s.txInitialized then
    if Takes s payload then
      (next (appended s payload)).after (chunkCalls payload)
    else
      (refuse (closed (appended s payload))
        apduCodeOutputBufferTooSmall).after (chunkCalls payload)
  else
    refuse s apduCodeTxNotInitialized

def hasMessage (s : Session B) : Bool :=
  (B.pos s.buffering).toUInt16 != 0 && (B.data s.buffering).isSome

theorem hasMessage_iff (s : Session B) :
    hasMessage s = true ↔
      ¬ ((B.pos s.buffering).toUInt16 = 0 ∨ (B.data s.buffering).isNone) := by
  unfold hasMessage
  cases B.data s.buffering <;> simp

/-- The static objects refer to the message. -/
def parsedSession (s : Session B) : Session B :=
  { s with
    txObj := ⟨⟨B.data s.buffering, (B.pos s.buffering).toUInt16⟩⟩
    ctxParsedTx :=
      { buffer := B.data s.buffering
        bufferLen := (B.pos s.buffering).toUInt16
        offset := 0
        txObj := some .txObj } }

/-- The static objects after a parse that was refused. -/
def unparsedSession (s : Session B) : Session B :=
  { s with
    txObj := .zero Region
    ctxParsedTx :=
      { s.ctxParsedTx with buffer := none, bufferLen := 0, offset := 0 } }

/-- Close the session and show its message. -/
def serveMessage (s : Session B) : Served B :=
  if hasMessage s then
    ⟨{ parsedSession (closed s) with view := some messageView }, .messageReview, []⟩
  else
    ⟨unparsedSession (closed s),
      .reply (parserGetErrorDescription .initContextEmpty) apduCodeDataInvalid,
      []⟩

def whenUnlocked (platform : Platform) (s : Session B) (served : Served B) :
    Served B :=
  if platform.pinIsValidated then served
  else refuse s apduCodeCommandNotAllowed

def serve (platform : Platform) (s : Session B) : Request → Served B
  | .wrongClass => refuse s apduCodeClaNotSupported
  | .tooShort => refuse s apduCodeWrongLength
  | .unknownInstruction => refuse s apduCodeInsNotSupported
  | .getVersion => ⟨s, .reply (versionBytes platform) apduCodeOk, []⟩
  | .getAddr confirm payload =>
      whenUnlocked platform s
        (servePath s payload (serveAddress platform confirm))
  | .signInit payload => whenUnlocked platform s (serveInit s payload)
  | .signAdd payload =>
      whenUnlocked platform s
        (serveChunk s payload fun s => ⟨s, .reply [] apduCodeOk, []⟩)
  | .signLast payload =>
      whenUnlocked platform s (serveChunk s payload serveMessage)
  | .signOther => whenUnlocked platform s (refuse s apduCodeInvalidP1P2)

section Rules

variable {P : Served B → Prop} {s : Session B} {payload : List UInt8}
  {next : Session B → Served B}

theorem servePath_rule
    (short : payload.length < 12 →
      P ((refuse (closed s) apduCodeWrongLength).after [payloadLength payload]))
    (wrong : 12 ≤ payload.length → mainnet (pathOf payload) = false →
      P ((refuse (withPath s payload) apduCodeDataInvalid).after
        (pathCalls payload)))
    (accepted : 12 ≤ payload.length → mainnet (pathOf payload) = true →
      P ((next (withPath s payload)).after (pathCalls payload))) :
    P (servePath s payload next) := by
  unfold servePath
  split
  · rename_i h
    exact short h
  · rename_i h
    split
    · rename_i hpath
      exact accepted (Nat.le_of_not_lt h) hpath
    · rename_i hpath
      exact wrong (Nat.le_of_not_lt h) (Bool.eq_false_of_not_eq_true hpath)

theorem serveChunk_rule
    (shut : s.txInitialized = false → P (refuse s apduCodeTxNotInitialized))
    (full : s.txInitialized = true → ¬ Takes s payload →
      P ((refuse (closed (appended s payload))
        apduCodeOutputBufferTooSmall).after (chunkCalls payload)))
    (taken : s.txInitialized = true → Takes s payload →
      P ((next (appended s payload)).after (chunkCalls payload))) :
    P (serveChunk s payload next) := by
  unfold serveChunk
  split
  · rename_i hopen
    split
    · rename_i htakes
      exact taken hopen htakes
    · rename_i htakes
      exact full hopen htakes
  · rename_i hopen
    exact shut (Bool.eq_false_of_not_eq_true hopen)

theorem serveAddress_rule {platform : Platform} {confirm : Bool}
    (failed : ∀ failure, addressReplyOf platform s.hdPath = .error failure →
      P ⟨{ s with actionAddrResponseLen := 0 }, addressFailure failure,
        [.osDeriveBip32WithSeedNoThrow s.hdPath]⟩)
    (replied : ∀ data, addressReplyOf platform s.hdPath = .ok data →
      confirm = false →
      P ⟨{ s with actionAddrResponseLen := UInt16.ofNat data.length },
        .reply data apduCodeOk, [.osDeriveBip32WithSeedNoThrow s.hdPath]⟩)
    (shown : ∀ data, addressReplyOf platform s.hdPath = .ok data →
      confirm = true →
      P ⟨{ s with
          actionAddrResponseLen := UInt16.ofNat data.length
          view := some addressView },
        .addressReview data, [.osDeriveBip32WithSeedNoThrow s.hdPath]⟩) :
    P (serveAddress platform confirm s) := by
  unfold serveAddress
  cases hreply : addressReplyOf platform s.hdPath with
  | error failure => exact failed failure hreply
  | ok data =>
      cases confirm with
      | false => exact replied data hreply rfl
      | true => exact shown data hreply rfl

theorem whenUnlocked_rule {platform : Platform} {served : Served B}
    (locked : platform.pinIsValidated = false →
      P (refuse s apduCodeCommandNotAllowed))
    (unlocked : platform.pinIsValidated = true → P served) :
    P (whenUnlocked platform s served) := by
  unfold whenUnlocked
  split
  · rename_i h
    exact unlocked h
  · rename_i h
    exact locked (Bool.eq_false_of_not_eq_true h)

end Rules

end LedgerSovereign.RequestSemantics
