import LedgerSovereign.RequestSemantics

namespace LedgerSovereign.HandlerCorrectness

open LedgerSovereign.Actions
open LedgerSovereign.ApduHandler
open LedgerSovereign.ApplicationState
open LedgerSovereign.BufferingInterface
open LedgerSovereign.Constants
open LedgerSovereign.Crypto
open LedgerSovereign.CryptoOutcomes
open LedgerSovereign.Parser
open LedgerSovereign.PlatformInterface
open LedgerSovereign.RequestSemantics
open LedgerSovereign.TaggedBuffer
open LedgerSovereign.ThrowingPrograms
open LedgerSovereign.Transaction

variable {B : Buffering}

/-- The session and the calls that a request leaves, with `*flags` and `*tx`. -/
structure Leaves (s t : State B) (served : Served B) (flags : UInt32)
    (length : Nat) : Prop where
  session : t.toSession = served.session
  calls : t.calls = s.calls ++ served.calls
  flags : t.flags = flags
  tx : t.tx = UInt32.ofNat length

/-- How the part of `handleApdu` inside TRY ends.  A reply is thrown when its
data is in the buffer. -/
def Ends (s : State B) (r : EStateM.Result Thrown (State B) Unit)
    (served : Served B) : Prop :=
  match served.response with
  | .reply data code =>
      ∃ e t, r = .error (.code e) t ∧ statusWord e = code ∧
        Leaves s t served 0 data.length ∧ data.length ≤ 258 ∧
        t.ioApduBuffer.slice 0 data.length = writtenCells data
  | .addressReview data =>
      ∃ t, r = .ok () t ∧ Leaves s t served ioAsynchReply 0 ∧
        t.ioApduBuffer = (Buffer.zeros ioApduBufferSize).store 0 data
  | .messageReview =>
      ∃ t, r = .ok () t ∧ Leaves s t served ioAsynchReply 0 ∧
        t.ioApduBuffer = s.ioApduBuffer
  | .silence =>
      ∃ t, r = .error .ioReset t ∧ t.toSession = served.session ∧
        t.calls = s.calls ++ served.calls

/-- Calls made before a stretch are made before what the stretch calls. -/
theorem Ends.after {s s' : State B} {calls : List Call}
    {r : EStateM.Result Thrown (State B) Unit} {served : Served B}
    (h : Ends s' r served) (hcalls : s'.calls = s.calls ++ calls)
    (hbuffer : s'.ioApduBuffer = s.ioApduBuffer) :
    Ends s r (served.after calls) := by
  have hleaves : ∀ {t flags length}, Leaves s' t served flags length →
      Leaves s t (served.after calls) flags length := by
    rintro t flags length ⟨hsession, hnew, hflags, htx⟩
    refine ⟨hsession, ?_, hflags, htx⟩
    rw [hnew, hcalls, List.append_assoc]
    rfl
  obtain ⟨session, response, new⟩ := served
  cases response with
  | reply data code =>
      obtain ⟨e, t, hr, hcode, ht, hlength, hslice⟩ := h
      exact ⟨e, t, hr, hcode, hleaves ht, hlength, hslice⟩
  | addressReview data =>
      obtain ⟨t, hr, ht, hcells⟩ := h
      exact ⟨t, hr, hleaves ht, hcells⟩
  | messageReview =>
      obtain ⟨t, hr, ht, hcells⟩ := h
      exact ⟨t, hr, hleaves ht, hcells.trans hbuffer⟩
  | silence =>
      obtain ⟨t, hr, hsession, hnew⟩ := h
      refine ⟨t, hr, hsession, ?_⟩
      rw [hnew, hcalls, List.append_assoc]
      rfl

theorem Ends.of_same {s s' : State B}
    {r : EStateM.Result Thrown (State B) Unit} {served : Served B}
    (h : Ends s' r served) (hcalls : s'.calls = s.calls)
    (hbuffer : s'.ioApduBuffer = s.ioApduBuffer) : Ends s r served := by
  have hnone : s'.calls = s.calls ++ [] := by simp [hcalls]
  exact h.after hnone hbuffer

theorem refuse_ends {s : State B} (hflags : s.flags = 0) (htx : s.tx = 0)
    {code : UInt16} (hcode : statusWord code = code) :
    Ends s (.error (.code code) s) (refuse s.toSession code) :=
  ⟨code, s, rfl, hcode, ⟨rfl, by simp [refuse], hflags, htx⟩, by simp,
    by simp [Buffer.slice, writtenCells]⟩

/-- What a handler relies on: the bytes of its request are in the buffer, and
nothing has been answered yet. -/
structure Holds (s : State B) (rx : UInt32) (p1 : UInt8)
    (payload : List UInt8) : Prop where
  rx_eq : rx = UInt32.ofNat (payload.length + 5)
  length_le : payload.length ≤ 255
  p1_eq : s.ioApduBuffer.byte offsetP1 = p1
  slice_eq : ∀ k ≤ payload.length,
    s.ioApduBuffer.slice 5 k = receivedCells (payload.take k)
  flags_eq : s.flags = 0
  tx_eq : s.tx = 0

theorem Holds.length_eq {s : State B} {rx : UInt32} {p1 : UInt8}
    {payload : List UInt8} (h : Holds s rx p1 payload) :
    rx - offsetData = UInt32.ofNat payload.length := by
  have hle := h.length_le
  rw [h.rx_eq, UInt32.ofNat_add]
  exact UInt32.add_sub_cancel _ _

theorem Holds.toNat_length {s : State B} {rx : UInt32} {p1 : UInt8}
    {payload : List UInt8} (h : Holds s rx p1 payload) :
    (rx - offsetData).toNat = payload.length := by
  have hle := h.length_le
  rw [h.length_eq, UInt32.toNat_ofNat']
  omega

theorem Holds.whole_eq {s : State B} {rx : UInt32} {p1 : UInt8}
    {payload : List UInt8} (h : Holds s rx p1 payload) :
    s.ioApduBuffer.slice offsetData.toNat payload.length =
      receivedCells payload := by
  have hslice := h.slice_eq payload.length le_rfl
  rw [List.take_length] at hslice
  exact hslice

theorem Holds.payloadLength_eq {s : State B} {rx : UInt32} {p1 : UInt8}
    {payload : List UInt8} (h : Holds s rx p1 payload) :
    payloadLength payload = .unsignedSub rx offsetData := by
  rw [payloadLength, h.rx_eq]

theorem extractHDPath_run {s : State B} {rx : UInt32} {p1 : UInt8}
    {payload : List UInt8} (h : Holds s rx p1 payload) :
    (extractHDPath rx offsetData).run s =
      let closed : State B :=
        { s with
          txInitialized := false
          calls := s.calls ++ [payloadLength payload] }
      if payload.length < 12 then
        .error (.code apduCodeWrongLength) closed
      else
        let copied : State B :=
          { s with
            txInitialized := false
            hdPath := pathOf payload
            calls := s.calls ++ pathCalls payload }
        if mainnet (pathOf payload) then .ok () copied
        else .error (.code apduCodeDataInvalid) copied := by
  have hlength := h.toNat_length
  rw [pathCalls, h.payloadLength_eq]
  by_cases hshort : payload.length < 12
  · simp [extractHDPath, unsignedSub, recordCall, hdPathLenDefault, hlength,
      hshort]
  · have hslice : s.ioApduBuffer.slice offsetData.toNat 12 =
        receivedCells (payload.take 12) := h.slice_eq 12 (by omega)
    cases hmainnet : mainnet (pathOf payload) <;> rw [pathOf] at hmainnet <;>
      simp [pathOf, extractHDPath, unsignedSub, recordCall, hdPathLenDefault, hlength,
        hshort, hslice, hmainnet]

theorem servePath_ends {s : State B} {rx : UInt32} {p1 : UInt8}
    {payload : List UInt8} (h : Holds s rx p1 payload)
    {program : App B Unit} {next : Session B → Served B}
    (hnext : ∀ t : State B, Holds t rx p1 payload →
      Ends t (program.run t) (next t.toSession)) :
    Ends s ((extractHDPath rx offsetData >>= fun _ => program).run s)
      (servePath s.toSession payload next) := by
  rw [EStateM.run_bind, extractHDPath_run h, servePath]
  apply servePath_rule
  · intro hshort
    rw [if_pos hshort]
    exact (refuse_ends (s := { s with
      txInitialized := false
      calls := s.calls ++ [payloadLength payload] })
      h.flags_eq h.tx_eq rfl).after rfl rfl
  · intro hlong hwrong
    rw [if_neg (by omega), hwrong]
    exact (refuse_ends (s := { s with
      txInitialized := false
      hdPath := pathOf payload
      calls := s.calls ++ pathCalls payload })
      h.flags_eq h.tx_eq rfl).after rfl rfl
  · intro hlong hright
    rw [if_neg (by omega), hright]
    exact (hnext { s with
      txInitialized := false
      hdPath := pathOf payload
      calls := s.calls ++ pathCalls payload }
      ⟨h.1, h.2, h.3, h.4, h.5, h.6⟩).after rfl rfl

theorem withIoBuffer_run {α : Type} (platform : Platform)
    (program : EStateM Thrown (Frame ioApduBufferSize) α) (s : State B) :
    (withIoBuffer platform program).run s =
      match program.run (ioFrame platform s) with
      | .ok a f => .ok a (s.fromFrame f)
      | .error e f => .error e (s.fromFrame f) := rfl

theorem appFillAddress_run (platform : Platform) (s : State B) :
    (appFillAddress platform).run s =
      let tried : State B :=
        { s with
          ioApduBuffer := Buffer.zeros ioApduBufferSize
          actionAddrResponseLen := 0
          calls := s.calls ++ [.osDeriveBip32WithSeedNoThrow s.hdPath] }
      match addressReplyOf platform s.hdPath with
      | .ok data =>
          .ok .ok { tried with
            ioApduBuffer := (Buffer.zeros ioApduBufferSize).store 0 data
            actionAddrResponseLen := UInt16.ofNat data.length }
      | .error failure =>
          .error (failure.getD (.code apduCodeExecutionError)) tried := by
  let start : State B :=
    { s with
      ioApduBuffer := Buffer.zeros ioApduBufferSize
      actionAddrResponseLen := 0 }
  have hzero : (ioFrame platform start).out.zero
      (UInt16.ofNat ioApduBufferSize).toNat = Buffer.zeros ioApduBufferSize :=
    Buffer.zero_all _
  have hreports := cryptoFillAddress_reports platform s.hdPath
    (UInt16.ofNat ioApduBufferSize) (ioFrame platform start)
    (by decide) (by decide)
  rw [hzero] at hreports
  rw [appFillAddress, run_modify_bind, Buffer.zero_all, run_modify_bind,
    run_get_bind]
  change (withIoBuffer platform (cryptoFillAddress platform s.hdPath .object
    (UInt16.ofNat ioApduBufferSize) .object) >>= _).run start = _
  rw [EStateM.run_bind, withIoBuffer_run]
  cases hreply : addressReplyOf platform s.hdPath with
  | ok data =>
      rw [hreply] at hreports
      obtain ⟨f, hrun, hout, hlength, hcalls⟩ := hreports
      have hbounds := length_of_addressReplyOf hreply
      have hnonzero : UInt16.ofNat data.length ≠ 0 := by
        intro h
        have hzero := congrArg UInt16.toNat h
        rw [UInt16.toNat_ofNat'] at hzero
        change _ = 0 at hzero
        omega
      rw [hrun]
      simp [State.fromFrame, hlength, hnonzero, hout, hcalls, ioFrame, start]
  | error failure =>
      rw [hreply] at hreports
      cases failure with
      | none =>
          obtain ⟨err, f, hrun, herr, hout, hlength, hcalls⟩ := hreports
          rw [hrun]
          simp [State.fromFrame, hlength, herr, hout, hcalls, ioFrame, start]
      | some e =>
          obtain ⟨f, hrun, hout, hlength, hcalls⟩ := hreports
          rw [hrun]
          simp [State.fromFrame, hlength, hout, hcalls, ioFrame, start]

theorem toUInt32_ofNat {k : Nat} (h : k < 2 ^ 16) :
    (UInt16.ofNat k).toUInt32 = UInt32.ofNat k := by
  apply UInt32.toNat_inj.mp
  rw [UInt16.toNat_toUInt32, UInt16.toNat_ofNat', UInt32.toNat_ofNat']
  omega

theorem handleGetAddr_ends (platform : Platform) {s : State B} {rx : UInt32}
    {p1 : UInt8} {payload : List UInt8} (h : Holds s rx p1 payload) :
    Ends s ((handleGetAddr platform rx).run s)
      (servePath s.toSession payload (serveAddress platform (p1 != 0))) := by
  apply servePath_ends h
  intro t ht
  have hflags := ht.flags_eq
  have htx := ht.tx_eq
  rw [run_get_bind, EStateM.run_bind, appFillAddress_run, serveAddress,
    ht.p1_eq]
  cases hreply : addressReplyOf platform t.hdPath with
  | ok data =>
      have hbounds := length_of_addressReplyOf hreply
      by_cases hp1 : p1 = 0
      · subst hp1
        refine ⟨apduCodeOk, _, rfl, rfl, ⟨rfl, rfl, hflags, ?_⟩, by omega, ?_⟩
        · exact toUInt32_ofNat (by omega)
        · exact Buffer.slice_store_self _ (by simp [ioApduBufferSize]; omega)
      · have hconfirm : (p1 != 0) = true := by simpa using hp1
        simp only [hconfirm, hp1, ne_eq, not_true_eq_false, not_false_eq_true,
          if_true, if_false]
        refine ⟨_, rfl, ⟨rfl, rfl, ?_, htx⟩, rfl⟩
        change t.flags ||| ioAsynchReply = ioAsynchReply
        rw [hflags]
        rfl
  | error failure =>
      match failure with
      | none => 
          exact ⟨apduCodeExecutionError, _, rfl, rfl, ⟨rfl, rfl, hflags, htx⟩,
            by simp, rfl⟩
      | some (.code e) => 
          exact ⟨e, _, rfl, rfl, ⟨rfl, rfl, hflags, htx⟩, by simp, rfl⟩
      | some .ioReset => exact ⟨_, rfl, rfl, rfl⟩

theorem txParse_run (platform : Platform) (s : State B) :
    (txParse platform).run s =
      if hasMessage s.toSession then
        .ok none { s with toSession := parsedSession s.toSession }
      else
        .ok (some (parserGetErrorDescription .initContextEmpty))
          { s with toSession := unparsedSession s.toSession } := by
  have hwidth : (B.pos s.buffering).toUInt64.toUInt16 =
      (B.pos s.buffering).toUInt16 := by
    apply UInt16.toNat_inj.mp
    simp
  rw [txParse, run_modify_bind, run_get_bind]
  simp only [parserParse_eq, txGetBufferLength, txGetBuffer, hwidth]
  by_cases h : hasMessage s.toSession = true
  · have hguard := (hasMessage_iff s.toSession).mp h
    simp only [if_neg hguard]
    simp [h, parserValidate_ok, parsedSession]
  · have hguard := not_not.mp (mt (hasMessage_iff s.toSession).mpr h)
    simp only [if_pos hguard]
    simp [h, unparsedSession]

theorem txParse_accepts {s : State B} (h : hasMessage s.toSession = true)
    (platform : Platform) :
    (txParse platform).run s =
      .ok none { s with toSession := parsedSession s.toSession } := by
  rw [txParse_run, if_pos h]

theorem txParse_accepted {platform : Platform} {s t : State B}
    (h : (txParse platform).run s = .ok none t) :
    hasMessage s.toSession = true ∧
      t = { s with toSession := parsedSession s.toSession } := by
  rw [txParse_run] at h
  split at h
  · rename_i hmessage
    cases h
    exact ⟨hmessage, rfl⟩
  · cases h

theorem throw_ends {s : State B} {rx : UInt32} {p1 : UInt8}
    {payload : List UInt8} (h : Holds s rx p1 payload) (code : UInt16)
    (hcode : statusWord code = code) :
    Ends s ((throw (.code code) : App B Unit).run s)
      (refuse s.toSession code) :=
  refuse_ends h.flags_eq h.tx_eq hcode

theorem Holds.longEnough {s : State B} {rx : UInt32} {p1 : UInt8}
    {payload : List UInt8} (h : Holds s rx p1 payload) : ¬ rx < offsetData := by
  have hle := h.length_le
  rw [h.rx_eq, UInt32.lt_iff_toNat_lt, UInt32.toNat_ofNat']
  change ¬ _ < 5
  omega

theorem Holds.takes_iff {s : State B} {rx : UInt32} {p1 : UInt8}
    {payload : List UInt8} (h : Holds s rx p1 payload) :
    Takes s.toSession payload ↔
      (B.append s.buffering payload).2 = rx - offsetData := by
  rw [h.length_eq]
  rfl

def appendedState (s : State B) (payload : List UInt8) : State B :=
  { s with
    buffering := (B.append s.buffering payload).1
    calls := s.calls ++ chunkCalls payload }

/-- The two refusals that SIGN/ADD and SIGN/LAST share, around what they do
with a payload that was taken. -/
def chunkResult (s : State B) (payload : List UInt8)
    (taken : EStateM.Result Thrown (State B) Bool) :
    EStateM.Result Thrown (State B) Bool :=
  if s.txInitialized then
    if Takes s.toSession payload then
      taken
    else
      .error (.code apduCodeOutputBufferTooSmall)
        { appendedState s payload with txInitialized := false }
  else
    .error (.code apduCodeTxNotInitialized) s

theorem processChunk_run_add {s : State B} {rx : UInt32}
    {payload : List UInt8} (h : Holds s rx p1Add payload) :
    (processChunk rx).run s =
      chunkResult s payload (.ok false (appendedState s payload)) := by
  have htype : s.ioApduBuffer.byte offsetPayloadType = 1 := h.p1_eq
  rw [chunkResult]
  cases hopen : s.txInitialized
  · simp [processChunk, htype, h.longEnough, hopen, p1Init, p1Add]
  · have htakes := h.takes_iff
    by_cases hadded : (B.append s.buffering payload).2 = rx - offsetData <;>
      simp [htakes, processChunk, htype, h.longEnough, hopen, p1Init, p1Add,
        unsignedSub, recordCall, txAppend, h.toNat_length, h.whole_eq, hadded,
        appendedState, chunkCalls, h.payloadLength_eq]

theorem processChunk_run_last {s : State B} {rx : UInt32}
    {payload : List UInt8} (h : Holds s rx p1Last payload) :
    (processChunk rx).run s =
      chunkResult s payload
        (.ok true { appendedState s payload with txInitialized := false }) := by
  have htype : s.ioApduBuffer.byte offsetPayloadType = 2 := h.p1_eq
  rw [chunkResult]
  cases hopen : s.txInitialized
  · simp [processChunk, htype, h.longEnough, hopen, p1Init, p1Add, p1Last]
  · have htakes := h.takes_iff
    by_cases hadded : (B.append s.buffering payload).2 = rx - offsetData <;>
      simp [htakes, processChunk, htype, h.longEnough, hopen, p1Init, p1Add, p1Last,
        unsignedSub, recordCall, txAppend, h.toNat_length, h.whole_eq, hadded,
        appendedState, chunkCalls, h.payloadLength_eq]

theorem processChunk_run_other {s : State B} {rx : UInt32} {p1 : UInt8}
    {payload : List UInt8} (h : Holds s rx p1 payload) (hinit : p1 ≠ p1Init)
    (hadd : p1 ≠ p1Add) (hlast : p1 ≠ p1Last) :
    (processChunk rx).run s = .error (.code apduCodeInvalidP1P2) s := by
  have htype : s.ioApduBuffer.byte offsetPayloadType = p1 := h.p1_eq
  simp [processChunk, htype, h.longEnough, hinit, hadd, hlast]

theorem handleSign_init_ends (platform : Platform) {s : State B} {rx : UInt32}
    {payload : List UInt8} (h : Holds s rx p1Init payload) :
    Ends s ((handleSign platform rx).run s) (serveInit s.toSession payload) := by
  have htype : s.ioApduBuffer.byte offsetPayloadType = 0 := h.p1_eq
  let emptied : State B :=
    { s with
      buffering := B.reset (B.init ramBufferSize flashBufferSize s.buffering) }
  have hemptied : Holds emptied rx p1Init payload := ⟨h.1, h.2, h.3, h.4, h.5, h.6⟩
  have hrun : (handleSign platform rx).run s =
      (extractHDPath rx offsetData >>= fun _ =>
        modify (fun s => { s with txInitialized := true }) >>= fun _ =>
          (throw (.code apduCodeOk) : App B Unit)).run emptied := by
    simp [handleSign, processChunk, htype, h.longEnough, p1Init, txInitialize,
      txReset, emptied]
  rw [hrun]
  let opening : App B Unit := do
    modify fun s => { s with txInitialized := true }
    throw (.code apduCodeOk)
  have hopening : ∀ t : State B, Holds t rx p1Init payload →
      Ends t (opening.run t)
        (refuse { t.toSession with txInitialized := true } apduCodeOk) := by
    intro t ht
    have hthrow := throw_ends (s := { t with txInitialized := true })
      ⟨ht.1, ht.2, ht.3, ht.4, ht.5, ht.6⟩ apduCodeOk rfl
    exact hthrow.of_same rfl rfl
  exact (servePath_ends hemptied hopening).of_same rfl rfl

theorem serveChunk_ends {s : State B} {rx : UInt32} {p1 : UInt8}
    {payload : List UInt8} (h : Holds s rx p1 payload)
    (next : Session B → Served B) {program : App B Bool} {f : Bool → App B Unit}
    {more : Bool} {t : State B}
    (hrun : program.run s = chunkResult s payload (.ok more t))
    (hnext : Ends (appendedState s payload) ((f more).run t)
      (next (appendedState s payload).toSession)) :
    Ends s ((program >>= f).run s) (serveChunk s.toSession payload next) := by
  rw [EStateM.run_bind, hrun, chunkResult]
  apply serveChunk_rule
  · intro hshut
    have hshut' : ¬ s.txInitialized = true := by simp [hshut]
    rw [if_neg hshut']
    exact refuse_ends h.flags_eq h.tx_eq rfl
  · intro hopen hfull
    rw [if_pos hopen, if_neg hfull]
    exact (refuse_ends (s := { appendedState s payload with
      txInitialized := false }) h.flags_eq h.tx_eq rfl).after rfl rfl
  · intro hopen htaken
    rw [if_pos hopen, if_pos htaken]
    exact hnext.after rfl rfl

theorem handleSign_add_ends (platform : Platform) {s : State B} {rx : UInt32}
    {payload : List UInt8} (h : Holds s rx p1Add payload) :
    Ends s ((handleSign platform rx).run s)
      (serveChunk s.toSession payload fun s => ⟨s, .reply [] apduCodeOk, []⟩) := by
  have haccepted : Ends (appendedState s payload)
      (.error (.code apduCodeOk) (appendedState s payload))
      (refuse (appendedState s payload).toSession apduCodeOk) :=
    refuse_ends (s := appendedState s payload) h.flags_eq h.tx_eq rfl
  exact serveChunk_ends h _ (processChunk_run_add h) haccepted

/-- A request for the review of a message, or the text of the parser's error. -/
theorem serveMessage_ends (platform : Platform) {t : State B}
    (hflags : t.flags = 0) (htx : t.tx = 0) :
    Ends t
      ((do
        match ← txParse platform with
        | some errorMsg =>
            let errorMsgLength := min errorMsg.length ioApduBufferSize
            storeIo 0 (errorMsg.take errorMsgLength)
            modify fun s => { s with tx := s.tx + UInt32.ofNat errorMsgLength }
            throw (.code apduCodeDataInvalid)
        | none =>
            viewReviewInit .tx .appSign
            setAsynchReply : App B Unit).run { t with txInitialized := false })
      (serveMessage t.toSession) := by
  rw [EStateM.run_bind, txParse_run]
  by_cases hmessage : hasMessage t.toSession = true
  · have hclosed : hasMessage { t.toSession with txInitialized := false } = true :=
      hmessage
    simp only [serveMessage, if_pos hmessage, if_pos hclosed]
    refine ⟨_, rfl, ⟨rfl, by simp, ?_, htx⟩, rfl⟩
    change t.flags ||| ioAsynchReply = ioAsynchReply
    rw [hflags]
    rfl
  · have hlength : (parserGetErrorDescription .initContextEmpty).length = 25 := rfl
    have hclosed : ¬ hasMessage { t.toSession with txInitialized := false } = true :=
      hmessage
    simp only [serveMessage, if_neg hmessage, if_neg hclosed]
    refine ⟨apduCodeDataInvalid, _, rfl, rfl, ⟨rfl, by simp, hflags, ?_⟩,
      by omega, ?_⟩
    · change t.tx + _ = _
      rw [htx]
      rfl
    · exact Buffer.slice_store_self _ (by simp [hlength, ioApduBufferSize])

theorem handleSign_last_ends (platform : Platform) {s : State B} {rx : UInt32}
    {payload : List UInt8} (h : Holds s rx p1Last payload) :
    Ends s ((handleSign platform rx).run s)
      (serveChunk s.toSession payload serveMessage) :=
  serveChunk_ends h serveMessage (processChunk_run_last h)
    (serveMessage_ends platform h.flags_eq h.tx_eq)

theorem checkPinValidated_ends (platform : Platform) {s : State B}
    (hflags : s.flags = 0) (htx : s.tx = 0) {program : App B Unit}
    {served : Served B}
    (h : platform.pinIsValidated = true → Ends s (program.run s) served) :
    Ends s ((checkPinValidated platform >>= fun _ => program).run s)
      (whenUnlocked platform s.toSession served) := by
  rw [EStateM.run_bind, checkPinValidated, whenUnlocked]
  cases hlocked : platform.pinIsValidated with
  | true => exact h hlocked
  | false => exact refuse_ends hflags htx rfl

theorem handleSign_ends (platform : Platform) {s : State B} {rx : UInt32}
    {p1 : UInt8} {payload : List UInt8} (h : Holds s rx p1 payload) :
    Ends s ((checkPinValidated platform >>= fun _ => handleSign platform rx).run s)
      (serve platform s.toSession (decodeSign p1 payload)) := by
  have hunlocked {served : Served B}
      (hserved : platform.pinIsValidated = true →
        Ends s ((handleSign platform rx).run s) served) :=
    checkPinValidated_ends platform h.flags_eq h.tx_eq hserved
  rw [decodeSign]
  by_cases hinit : p1 = p1Init
  · subst hinit
    rw [if_pos rfl]
    exact hunlocked fun _ => handleSign_init_ends platform h
  by_cases hadd : p1 = p1Add
  · subst hadd
    rw [if_neg hinit, if_pos rfl]
    exact hunlocked fun _ => handleSign_add_ends platform h
  by_cases hlast : p1 = p1Last
  · subst hlast
    rw [if_neg hinit, if_neg hadd, if_pos rfl]
    exact hunlocked fun _ => handleSign_last_ends platform h
  rw [if_neg hinit, if_neg hadd, if_neg hlast]
  apply hunlocked
  intro _
  rw [handleSign, EStateM.run_bind, processChunk_run_other h hinit hadd hlast]
  exact refuse_ends h.flags_eq h.tx_eq rfl

theorem holds_of_received (request : Apdu) {c ins p1 p2 lc : UInt8}
    {payload : List UInt8}
    (hreceived : request.received = c :: ins :: p1 :: p2 :: lc :: payload)
    {s : State B} (hbuffer : s.ioApduBuffer = request.buffer)
    (hflags : s.flags = 0) (htx : s.tx = 0) : Holds s request.rx p1 payload where
  rx_eq := by rw [Apdu.rx, hreceived]; rfl
  length_le := by
    have hle := request.length_le
    rw [hreceived] at hle
    simp only [List.length_cons] at hle
    omega
  p1_eq := by
    rw [hbuffer, offsetP1, request.byte_eq (by simp [hreceived])]
    simp [hreceived]
  slice_eq k hk := by
    rw [hbuffer, request.slice_eq (by simp [hreceived]; omega), hreceived]
    rfl
  flags_eq := hflags
  tx_eq := htx

theorem dispatch_ends (platform : Platform) (request : Apdu) {s : State B}
    (hbuffer : s.ioApduBuffer = request.buffer) (hflags : s.flags = 0)
    (htx : s.tx = 0) :
    Ends s ((dispatch platform request.rx).run s)
      (serve platform s.toSession (decode request.received)) := by
  rw [dispatch, run_get_bind, hbuffer]
  rcases decode_cases request.nonempty with
    ⟨c, rest, hreceived, hrest, hdecode⟩ | ⟨c, ins, p1, p2, lc, payload, hreceived⟩
  · have hcla : request.buffer.byte offsetCla = c := by
      rw [offsetCla, request.byte_eq (by simp [hreceived])]
      simp [hreceived]
    have hrx : request.rx < apduMinLength := by
      rw [UInt32.lt_iff_toNat_lt, request.toNat_rx, hreceived]
      change rest.length + 1 < 5
      omega
    rw [hcla, hdecode]
    by_cases hclass : c ≠ cla
    · rw [if_pos hclass, if_pos hclass]
      exact refuse_ends hflags htx rfl
    · rw [if_neg hclass, if_neg hclass, if_pos hrx]
      exact refuse_ends hflags htx rfl
  · have hholds := holds_of_received request hreceived hbuffer hflags htx
    have hcla : request.buffer.byte offsetCla = c := by
      rw [offsetCla, request.byte_eq (by simp [hreceived])]
      simp [hreceived]
    have hins : request.buffer.byte offsetIns = ins := by
      rw [offsetIns, request.byte_eq (by simp [hreceived])]
      simp [hreceived]
    rw [hcla, hreceived, decode]
    by_cases hclass : c ≠ cla
    · rw [if_pos hclass, if_pos hclass]
      exact refuse_ends hflags htx rfl
    have hlong : ¬ request.rx < apduMinLength := hholds.longEnough
    rw [if_neg hclass, if_neg hclass, if_neg hlong, run_get_bind, hbuffer, hins]
    by_cases hversion : ins = insGetVersion
    · rw [if_pos hversion, if_pos hversion]
      refine ⟨apduCodeOk, _, rfl, rfl, ⟨rfl, by simp [serve], hflags, ?_⟩,
        by simp [versionBytes], ?_⟩
      · change s.tx + 12 = _
        rw [htx]
        rfl
      · exact Buffer.slice_store_self _ (by simp [versionBytes, ioApduBufferSize])
    rw [if_neg hversion, if_neg hversion]
    by_cases haddr : ins = insGetAddr
    · rw [if_pos haddr, if_pos haddr]
      exact checkPinValidated_ends platform hflags htx fun _ =>
        handleGetAddr_ends platform hholds
    rw [if_neg haddr, if_neg haddr]
    by_cases hsign : ins = insSign
    · rw [if_pos hsign, if_pos hsign]
      exact handleSign_ends platform hholds
    rw [if_neg hsign, if_neg hsign]
    exact refuse_ends hflags htx rfl

/-- How `handleApdu` leaves a request: with the whole reply in the buffer, with
a review that will give it, or with the exception it does not handle. -/
def Answers (s : State B) (r : EStateM.Result Thrown (State B) Unit)
    (served : Served B) : Prop :=
  match served.response with
  | .reply data code =>
      ∃ t, r = .ok () t ∧ Leaves s t served 0 (data.length + 2) ∧
        data.length ≤ 258 ∧
        t.ioApduBuffer.slice 0 (data.length + 2) =
          writtenCells (data ++ codeBytes code)
  | .addressReview data =>
      ∃ t, r = .ok () t ∧ Leaves s t served ioAsynchReply 0 ∧
        t.ioApduBuffer = (Buffer.zeros ioApduBufferSize).store 0 data
  | .messageReview =>
      ∃ t, r = .ok () t ∧ Leaves s t served ioAsynchReply 0 ∧
        t.ioApduBuffer = s.ioApduBuffer
  | .silence =>
      ∃ t, r = .error .ioReset t ∧ t.toSession = served.session ∧
        t.calls = s.calls ++ served.calls

/-- Every answer of `handleApdu` is the one that the request semantics gives. -/
theorem handleApdu_answers (platform : Platform) (request : Apdu) {s : State B}
    (hbuffer : s.ioApduBuffer = request.buffer) (hflags : s.flags = 0)
    (htx : s.tx = 0) :
    Answers s ((handleApdu platform request.rx).run s)
      (serve platform s.toSession (decode request.received)) := by
  have hends := dispatch_ends platform request hbuffer hflags htx
  rw [handleApdu, run_tryCatch_kept]
  generalize serve platform s.toSession (decode request.received) = served at hends
  obtain ⟨session, response, calls⟩ := served
  cases response with
  | reply data code =>
      obtain ⟨e, t, hr, rfl, hleaves, hlength, hslice⟩ := hends
      have htail : t.tx.toNat = data.length := by
        rw [hleaves.tx, UInt32.toNat_ofNat']
        omega
      have happend := t.ioApduBuffer.slice_store_append data.length
        (codeBytes (statusWord e))
        (by simp [codeBytes, ioApduBufferSize]; omega)
      rw [hr]
      refine ⟨{ t with
        ioApduBuffer := t.ioApduBuffer.store t.tx.toNat (codeBytes (statusWord e))
        tx := t.tx + 2 }, rfl,
        ⟨hleaves.session, hleaves.calls, hleaves.flags, ?_⟩, hlength, ?_⟩
      · rw [hleaves.tx, UInt32.ofNat_add]
        rfl
      · rw [htail, writtenCells_append, ← hslice]
        exact happend
  | addressReview data =>
      obtain ⟨t, hr, hrest⟩ := hends
      rw [hr]
      exact ⟨t, rfl, hrest⟩
  | messageReview =>
      obtain ⟨t, hr, hrest⟩ := hends
      rw [hr]
      exact ⟨t, rfl, hrest⟩
  | silence =>
      obtain ⟨t, hr, hrest⟩ := hends
      rw [hr]
      exact ⟨t, rfl, hrest⟩

end LedgerSovereign.HandlerCorrectness
