import LedgerSovereign.DisplayedMessage

namespace LedgerSovereign.MessageReassembly

open LedgerSovereign.ApplicationState
open LedgerSovereign.BufferingInterface
open LedgerSovereign.Constants
open LedgerSovereign.DeviceProtocol
open LedgerSovereign.DisplayedMessage
open LedgerSovereign.HostSession
open LedgerSovereign.Parser
open LedgerSovereign.PlatformInterface
open LedgerSovereign.RequestSemantics
open LedgerSovereign.SampleDevice
open LedgerSovereign.SessionHistory
open LedgerSovereign.SigningIntegrity
open LedgerSovereign.SigningSessions
open LedgerSovereign.TransitionRuns

variable {B : Buffering}

/-- Requests that may come between the chunks of a message: GET_VERSION, and
what is refused before the session is looked at. -/
def Harmless : Request → Prop
  | .getVersion | .wrongClass | .tooShort | .unknownInstruction | .signOther => True
  | _ => False

/-- A chunk, or something harmless, for an unlocked device. -/
def Uploads (e : Event) : Prop :=
  ∃ platform request, e = .apdu platform request ∧
    platform.pinIsValidated = true ∧
    ((∃ payload, decode request.received = .signAdd payload) ∨
      Harmless (decode request.received))

def chunkOf (e : Event) : Option (List UInt8) :=
  match requestOf e with
  | some (.signAdd payload) => some payload
  | some (.signLast payload) => some payload
  | _ => none

def chunkBytes (e : Event) : List UInt8 :=
  (chunkOf e).getD []

def sent (trace : List Entry) : List UInt8 :=
  trace.flatMap fun x => chunkBytes x.1

theorem sent_append (xs ys : List Entry) : sent (xs ++ ys) = sent xs ++ sent ys :=
  List.flatMap_append

theorem sent_map (trace : List Entry) :
    sent trace = (trace.map Prod.fst).flatMap chunkBytes := by
  rw [sent, List.flatMap_map]

/-- Where the session is after the chunks of `bytes`: open with all of them, or
closed because they are too many. -/
structure Progress (s : Session B) (initPayload bytes : List UInt8) : Prop where
  fits : bytes.length ≤ flashBufferSize →
    s.txInitialized = true ∧ Holds s initPayload bytes
  full : flashBufferSize < bytes.length → s.txInitialized = false

/-- How an entry is answered behind chunks of `bytes`. -/
structure AnsweredAfter (bytes : List UInt8) (x : Entry) : Prop where
  accepted : ∀ payload, requestOf x.1 = some (.signAdd payload) →
    (bytes ++ payload).length ≤ flashBufferSize →
    x.2.replyBytes = some (codeBytes apduCodeOk)
  crossing : ∀ payload, chunkOf x.1 = some payload →
    bytes.length ≤ flashBufferSize → flashBufferSize < (bytes ++ payload).length →
    x.2.replyBytes = some (codeBytes apduCodeOutputBufferTooSmall)
  closed : ∀ payload, chunkOf x.1 = some payload →
    flashBufferSize < bytes.length →
    x.2.replyBytes = some (codeBytes apduCodeTxNotInitialized)
  unopened : x.2.opened ≠ none →
    ∃ payload, requestOf x.1 = some (.signLast payload) ∧
      (bytes ++ payload).length ≤ flashBufferSize

def Answered (trace : List Entry) : Prop :=
  ∀ earlier x later, trace = earlier ++ x :: later → AnsweredAfter (sent earlier) x

theorem answered_nil : Answered [] := by
  intro earlier x later h
  simp at h

theorem Answered.snoc {trace : List Entry} {x : Entry} (h : Answered trace)
    (hx : AnsweredAfter (sent trace) x) : Answered (trace ++ [x]) := by
  intro earlier y later hsplit
  rcases List.eq_nil_or_concat later with rfl | ⟨later, z, rfl⟩
  · obtain ⟨rfl, hlast⟩ := List.append_inj' hsplit rfl
    obtain rfl : x = y := by simpa using hlast
    exact hx
  · rw [List.concat_eq_append, ← List.cons_append, ← List.append_assoc] at hsplit
    exact h _ _ _ (List.append_inj' hsplit rfl).1

theorem exists_crossing {limit : Nat} {trace : List Entry}
    (h : limit < (sent trace).length) :
    ∃ earlier x later, trace = earlier ++ x :: later ∧
      (sent earlier).length ≤ limit ∧
      limit < (sent earlier ++ chunkBytes x.1).length := by
  induction trace using List.reverseRecOn with
  | nil => simp [sent] at h
  | append_singleton trace x ih =>
      rcases Nat.lt_or_ge limit (sent trace).length with hlt | hle
      · obtain ⟨earlier, y, later, rfl, hbefore, hafter⟩ := ih hlt
        exact ⟨earlier, y, later ++ [x], by simp, hbefore, hafter⟩
      · refine ⟨trace, x, [], rfl, hle, ?_⟩
        rw [sent_append] at h
        simpa [sent] using h

section Steps

variable {s : Session B} {initPayload bytes payload : List UInt8}
  {platform : Platform}

theorem progress_opened (hB : B.AppendsOrRefuses) (s : Session B)
    (hlength : 12 ≤ initPayload.length)
    (hpath : ApduHandler.mainnet (pathOf initPayload) = true) :
    Progress (opened (withPath (emptied s) initPayload)) initPayload [] :=
  ⟨fun _ => ⟨rfl, holds_opened hB s hlength hpath⟩, fun hfull =>
    absurd hfull (Nat.not_lt_zero _)⟩

theorem serveInit_eq (hlength : 12 ≤ initPayload.length)
    (hpath : ApduHandler.mainnet (pathOf initPayload) = true) :
    serveInit s initPayload =
      ⟨opened (withPath (emptied s) initPayload), .reply [] apduCodeOk,
        pathCalls initPayload⟩ := by
  rw [serveInit, servePath, if_neg (by omega), if_pos hpath]
  rfl

theorem serveChunk_fits (hB : B.AppendsUpToCapacity)
    (h : Progress s initPayload bytes)
    (hfits : (bytes ++ payload).length ≤ flashBufferSize)
    (next : Session B → Served B) :
    serveChunk s payload next =
        (next (appended s payload)).after (chunkCalls payload) ∧
      (appended s payload).txInitialized = true ∧
      Holds (appended s payload) initPayload (bytes ++ payload) := by
  rw [List.length_append] at hfits
  obtain ⟨hopen, hholds⟩ := h.fits (by omega)
  obtain ⟨hreturns, hcontent⟩ := hB.append_fits s.buffering payload (by
    rw [hholds.content, hholds.capacity]
    exact hfits)
  have htakes : Takes s payload := hreturns
  refine ⟨?_, hopen, ⟨hholds.length, hholds.mainnet, hholds.path, ?_, ?_⟩⟩
  · rw [serveChunk, if_pos hopen, if_pos htakes]
  · rw [← hholds.content]
    exact hcontent
  · exact (hB.capacity_append s.buffering payload).trans hholds.capacity

theorem serveChunk_crosses (hB : B.AppendsUpToCapacity)
    (h : Progress s initPayload bytes) (hbefore : bytes.length ≤ flashBufferSize)
    (hafter : flashBufferSize < (bytes ++ payload).length)
    (hshort : payload.length ≤ ioApduBufferSize) (next : Session B → Served B) :
    serveChunk s payload next =
      (refuse (RequestSemantics.closed (appended s payload))
        apduCodeOutputBufferTooSmall).after (chunkCalls payload) := by
  rw [List.length_append] at hafter
  have hsize : ioApduBufferSize = 260 := rfl
  obtain ⟨hopen, hholds⟩ := h.fits hbefore
  obtain ⟨hreturns, -⟩ := hB.append_full s.buffering payload (by
    rw [hholds.content, hholds.capacity]
    exact hafter)
  have hrefused : ¬ Takes s payload := by
    intro htakes
    have hnat := congrArg UInt32.toNat (hreturns.symm.trans htakes)
    rw [UInt32.toNat_ofNat', Nat.mod_eq_of_lt (by omega)] at hnat
    change 0 = payload.length at hnat
    omega
  rw [serveChunk, if_pos hopen, if_neg hrefused]

theorem serveChunk_closed (h : Progress s initPayload bytes)
    (hfull : flashBufferSize < bytes.length) (next : Session B → Served B) :
    serveChunk s payload next = refuse s apduCodeTxNotInitialized := by
  rw [serveChunk, if_neg (by simp [h.full hfull])]

theorem serveChunk_overflows (hB : B.AppendsUpToCapacity)
    (h : Progress s initPayload bytes) (hshort : payload.length ≤ ioApduBufferSize)
    (hfull : flashBufferSize < (bytes ++ payload).length) (next : Session B → Served B) :
    ∃ t code calls,
      serveChunk s payload next = ⟨t, .reply [] code, calls⟩ ∧
      t.txInitialized = false ∧
      (bytes.length ≤ flashBufferSize → code = apduCodeOutputBufferTooSmall) ∧
      (flashBufferSize < bytes.length → code = apduCodeTxNotInitialized) := by
  rcases Nat.lt_or_ge flashBufferSize bytes.length with hlt | hle
  · exact ⟨s, apduCodeTxNotInitialized, _, serveChunk_closed h hlt next, h.full hlt,
      fun hbefore => absurd hlt (Nat.not_lt.mpr hbefore), fun _ => rfl⟩
  · exact ⟨_, apduCodeOutputBufferTooSmall, _,
      serveChunk_crosses hB h hle hfull hshort next, rfl, fun _ => rfl,
      fun hbefore => absurd hbefore (Nat.not_lt.mpr hle)⟩

theorem serve_harmless {request : Request} (h : Harmless request) :
    ∃ data code, serve platform s request = ⟨s, .reply data code, []⟩ := by
  cases request with
  | wrongClass => exact ⟨_, _, rfl⟩
  | tooShort => exact ⟨_, _, rfl⟩
  | unknownInstruction => exact ⟨_, _, rfl⟩
  | getVersion => exact ⟨_, _, rfl⟩
  | signOther =>
      exact whenUnlocked_rule
        (P := fun served => ∃ data code, served = ⟨s, .reply data code, []⟩)
        (fun _ => ⟨_, _, rfl⟩) fun _ => ⟨_, _, rfl⟩
  | getAddr confirm payload => exact h.elim
  | signInit payload => exact h.elim
  | signAdd payload => exact h.elim
  | signLast payload => exact h.elim

theorem serve_signAdd (hunlocked : platform.pinIsValidated = true) :
    serve platform s (.signAdd payload) =
      serveChunk s payload fun s => ⟨s, .reply [] apduCodeOk, []⟩ := by
  rw [serve, whenUnlocked, if_pos hunlocked]

theorem serve_signLast (hunlocked : platform.pinIsValidated = true) :
    serve platform s (.signLast payload) = serveChunk s payload serveMessage := by
  rw [serve, whenUnlocked, if_pos hunlocked]

end Steps

section Requests

variable {s : System B} {platform : Platform} {request : Apdu}
  {initPayload bytes payload : List UInt8}

theorem step_of_serve (hidle : s.pending = false) {served : Served B}
    (h : serve platform s.app.toSession (decode request.received) = served) :
    ∃ s', HostSession.step s (.apdu platform request) =
        some (s', Response.observation served.calls served.response) ∧
      Implements s' (deliver served).1 := by
  obtain ⟨himplements, hobserved⟩ := answer_serves platform request s
  rw [h] at himplements hobserved
  refine ⟨_, ?_, himplements⟩
  rw [step_apdu hidle, hobserved]
  rfl

/-- A chunk that does not fit, or comes behind one. -/
theorem step_overflows (hB : B.AppendsUpToCapacity) (hidle : s.pending = false)
    (h : Progress s.app.toSession initPayload bytes)
    (hshort : payload.length ≤ ioApduBufferSize)
    (hfull : flashBufferSize < (bytes ++ payload).length)
    {next : Session B → Served B}
    (hserve : serve platform s.app.toSession (decode request.received) =
      serveChunk s.app.toSession payload next)
    (hchunk : chunkOf (.apdu platform request) = some payload) :
    ∃ s' o, HostSession.step s (.apdu platform request) = some (s', o) ∧
      s'.pending = false ∧
      Progress s'.app.toSession initPayload (bytes ++ payload) ∧
      AnsweredAfter bytes (.apdu platform request, o) := by
  have hnot : ¬ (bytes ++ payload).length ≤ flashBufferSize := Nat.not_le_of_gt hfull
  have hpayload : ∀ {payload'}, requestOf (.apdu platform request) =
      some (.signAdd payload') → payload' = payload := by
    intro payload' hrequest
    simp only [chunkOf, hrequest] at hchunk
    exact Option.some.inj hchunk
  obtain ⟨t, code, calls, hrefused, hclosed, hcrossing, hlate⟩ :=
    serveChunk_overflows hB h hshort hfull next
  obtain ⟨s', hstep, himplements⟩ := step_of_serve hidle (hserve.trans hrefused)
  refine ⟨s', _, hstep, himplements.pending, ⟨fun hfits => absurd hfits hnot, fun _ => ?_⟩,
    ?_, ?_, ?_, ?_⟩
  · rw [himplements.session]
    exact hclosed
  · intro payload' hrequest hfits
    rw [hpayload hrequest] at hfits
    exact absurd hfits hnot
  · intro _ _ hbefore _
    rw [← hcrossing hbefore]
    exact replyBytes_observation _ _ _
  · intro _ _ hbefore
    rw [← hlate hbefore]
    exact replyBytes_observation _ _ _
  · rintro hopened
    exact absurd rfl hopened

theorem step_adds (hB : B.AppendsUpToCapacity) (hidle : s.pending = false)
    (h : Progress s.app.toSession initPayload bytes)
    (hunlocked : platform.pinIsValidated = true)
    (hrequest : decode request.received = .signAdd payload)
    (hfits : (bytes ++ payload).length ≤ flashBufferSize) :
    ∃ s' o, HostSession.step s (.apdu platform request) = some (s', o) ∧
      s'.pending = false ∧
      Progress s'.app.toSession initPayload (bytes ++ payload) ∧
      AnsweredAfter bytes (.apdu platform request, o) := by
  have hchunk : ∀ {payload'}, chunkOf (.apdu platform request) = some payload' →
      ¬ flashBufferSize < (bytes ++ payload').length := by
    intro payload' hchunk
    simp only [chunkOf, requestOf, hrequest, Option.some.injEq] at hchunk
    rw [← hchunk]
    exact Nat.not_lt.mpr hfits
  obtain ⟨hserve, hopen, hholds⟩ := serveChunk_fits hB h hfits
    fun s => ⟨s, .reply [] apduCodeOk, []⟩
  rw [← serve_signAdd hunlocked, ← hrequest] at hserve
  obtain ⟨s', hstep, himplements⟩ := step_of_serve hidle hserve
  refine ⟨s', _, hstep, himplements.pending, ⟨fun _ => ?_, fun hfull => ?_⟩,
    ?_, ?_, ?_, ?_⟩
  · rw [himplements.session]
    exact ⟨hopen, hholds⟩
  · exact absurd hfull (Nat.not_lt.mpr hfits)
  · intro _ _ _
    exact replyBytes_observation _ _ _
  · intro payload' hpayload' _ hafter
    exact absurd hafter (hchunk hpayload')
  · intro payload' hpayload' hfull
    rw [List.length_append] at hfits
    omega
  · rintro hopened
    exact absurd rfl hopened

theorem step_harmless (hidle : s.pending = false)
    (h : Progress s.app.toSession initPayload bytes)
    (hharmless : Harmless (decode request.received)) :
    ∃ s' o, HostSession.step s (.apdu platform request) = some (s', o) ∧
      s'.pending = false ∧ Progress s'.app.toSession initPayload bytes ∧
      AnsweredAfter bytes (.apdu platform request, o) := by
  obtain ⟨data, code, hserve⟩ : ∃ data code,
      serve platform s.app.toSession (decode request.received) =
        ⟨s.app.toSession, .reply data code, []⟩ :=
    serve_harmless hharmless
  obtain ⟨s', hstep, himplements⟩ := step_of_serve hidle hserve
  have hchunk : chunkOf (.apdu platform request) = none := by
    rw [chunkOf, requestOf]
    cases hrequest : decode request.received <;> simp_all [Harmless]
  refine ⟨s', _, hstep, himplements.pending, ?_, ?_, ?_, ?_, ?_⟩
  · rw [himplements.session]
    exact h
  · intro payload hrequest
    simp [chunkOf, hrequest] at hchunk
  · intro payload hpayload
    simp [hchunk] at hpayload
  · intro payload hpayload
    simp [hchunk] at hpayload
  · rintro hopened
    exact absurd rfl hopened

theorem step_uploads (hB : B.AppendsUpToCapacity) (hidle : s.pending = false)
    (h : Progress s.app.toSession initPayload bytes) {e : Event} (he : Uploads e) :
    ∃ s' o, HostSession.step s e = some (s', o) ∧ s'.pending = false ∧
      Progress s'.app.toSession initPayload (bytes ++ chunkBytes e) ∧
      AnsweredAfter bytes (e, o) := by
  obtain ⟨platform, request, rfl, hunlocked, ⟨payload, hrequest⟩ | hharmless⟩ := he
  · have hchunk : chunkOf (.apdu platform request) = some payload := by
      simp only [chunkOf, requestOf, hrequest]
    rw [chunkBytes, hchunk, Option.getD_some]
    rcases Nat.lt_or_ge flashBufferSize (bytes ++ payload).length with hfull | hfits
    · exact step_overflows hB hidle h (request.length_payload_le hrequest) hfull
        (by rw [hrequest, serve_signAdd hunlocked]) hchunk
    · exact step_adds hB hidle h hunlocked hrequest hfits
  · obtain ⟨s', o, hstep, hidle', hprogress, hanswered⟩ := step_harmless hidle h hharmless
    have hchunk : chunkBytes (.apdu platform request) = [] := by
      rw [chunkBytes, chunkOf, requestOf]
      cases hrequest : decode request.received <;> simp_all [Harmless]
    rw [hchunk, List.append_nil]
    exact ⟨s', o, hstep, hidle', hprogress, hanswered⟩

end Requests

theorem run_uploads (hB : B.AppendsUpToCapacity) {s : System B}
    {initPayload : List UInt8} (hidle : s.pending = false)
    (h : Progress s.app.toSession initPayload []) {middle : List Event}
    (hmiddle : ∀ e ∈ middle, Uploads e) :
    ∃ trace s', Run (machine B) s trace s' ∧ trace.map Prod.fst = middle ∧
      s'.pending = false ∧ Progress s'.app.toSession initPayload (sent trace) ∧
      Answered trace := by
  induction middle using List.reverseRecOn with
  | nil => exact ⟨[], s, .nil, rfl, hidle, h, answered_nil⟩
  | append_singleton middle e ih =>
      rw [List.forall_mem_append] at hmiddle
      obtain ⟨trace, t, run, rfl, hidle', hprogress, hanswered⟩ := ih hmiddle.1
      obtain ⟨s', o, hstep, hidle'', hprogress', hanswered'⟩ :=
        step_uploads hB hidle' hprogress (hmiddle.2 e (by simp))
      refine ⟨trace ++ [(e, o)], s', run.snoc hstep, by simp, hidle'', ?_,
        hanswered.snoc hanswered'⟩
      rw [sent_append]
      simpa [sent] using hprogress'

structure Shows (s : System B) (o : Observation) (path : HdPath)
    (message : List UInt8) : Prop where
  waits : s.pending = true
  deferred : o.reply = none
  opened : o.opened = some messageView
  view : s.app.view = some messageView
  displays : Displays s.app.toSession
  content : B.content s.app.buffering = message
  path : s.app.hdPath = path

theorem hasMessage_iff_ne_nil (hB : B.AppendsOrRefuses) {s : Session B}
    {initPayload message : List UInt8} (h : Holds s initPayload message) :
    hasMessage s = true ↔ message ≠ [] := by
  have huntruncated := toNat_messageLength hB h.capacity
  have hlength := hB.length_content s.buffering
  rw [h.content] at hlength
  have hzero : (B.pos s.buffering).toUInt16 = 0 ↔ message.length = 0 := by
    rw [← UInt16.toNat_inj]
    change (messageLength s).toNat = 0 ↔ _
    rw [huntruncated, hlength]
    rfl
  rw [hasMessage_iff, hzero, List.length_eq_zero_iff, not_or]
  constructor
  · exact And.left
  · intro hnonempty
    refine ⟨hnonempty, fun hnone => hnonempty ?_⟩
    rw [← h.content, Buffering.content, Option.isNone_iff_eq_none.mp hnone]
    rfl

section Last

variable {s : System B} {platform : Platform} {last : Apdu}
  {initPayload bytes payload : List UInt8}

/-- The last chunk of a message that fits and is not empty. -/
theorem step_shows (hB : B.AppendsUpToCapacity) (hidle : s.pending = false)
    (h : Progress s.app.toSession initPayload bytes)
    (hunlocked : platform.pinIsValidated = true)
    (hlast : decode last.received = .signLast payload)
    (hfits : (bytes ++ payload).length ≤ flashBufferSize)
    (hnonempty : bytes ++ payload ≠ []) :
    ∃ s' o, HostSession.step s (.apdu platform last) = some (s', o) ∧
      Shows s' o (pathOf initPayload) (bytes ++ payload) := by
  obtain ⟨hserve, -, hholds⟩ := serveChunk_fits hB h hfits serveMessage
  have hmessage := (hasMessage_iff_ne_nil hB.toAppendsOrRefuses hholds).mpr hnonempty
  rw [← serve_signLast hunlocked, ← hlast, serveMessage,
    if_pos hmessage] at hserve
  obtain ⟨s', hstep, himplements⟩ := step_of_serve hidle hserve
  have hprepared := (himplements.awaits .message rfl).prepared
  have hholds' : Holds s'.app.toSession initPayload (bytes ++ payload) := by
    rw [himplements.session]
    exact ⟨hholds.length, hholds.mainnet, hholds.path, hholds.content,
      hholds.capacity⟩
  exact ⟨s', _, hstep, himplements.pending, rfl, rfl, hprepared.1,
    displays_of_parsed hB.toAppendsOrRefuses hholds'.capacity hprepared.2.1
      hprepared.2.2, hholds'.content, hholds'.path⟩

theorem step_empty (hB : B.AppendsUpToCapacity) (hidle : s.pending = false)
    (h : Progress s.app.toSession initPayload bytes)
    (hunlocked : platform.pinIsValidated = true)
    (hlast : decode last.received = .signLast payload)
    (hempty : bytes ++ payload = []) :
    ∃ s' o, HostSession.step s (.apdu platform last) = some (s', o) ∧
      o.replyBytes = some (parserGetErrorDescription .initContextEmpty ++
        codeBytes apduCodeDataInvalid) ∧ o.opened = none := by
  have hfits : (bytes ++ payload).length ≤ flashBufferSize := by
    rw [hempty]
    exact Nat.zero_le _
  obtain ⟨hserve, -, hholds⟩ := serveChunk_fits hB h hfits serveMessage
  have hmessage : ¬ hasMessage (appended s.app.toSession payload) = true := by
    rw [hasMessage_iff_ne_nil hB.toAppendsOrRefuses hholds, not_not]
    exact hempty
  rw [← serve_signLast hunlocked, ← hlast, serveMessage,
    if_neg hmessage] at hserve
  obtain ⟨s', hstep, -⟩ := step_of_serve hidle hserve
  exact ⟨s', _, hstep, replyBytes_observation _ _ _, rfl⟩

end Last

def AddsAccepted (trace : List Entry) : Prop :=
  ∀ x ∈ trace, ∀ payload, requestOf x.1 = some (.signAdd payload) →
    x.2.replyBytes = some (codeBytes apduCodeOk)

/-- One chunk passes the capacity, and all behind it come too late. -/
def Overflows (trace : List Entry) : Prop :=
  ∃ earlier x later, trace = earlier ++ x :: later ∧
    (sent earlier).length ≤ flashBufferSize ∧
    flashBufferSize < (sent (earlier ++ [x])).length ∧
    AddsAccepted earlier ∧
    x.2.replyBytes = some (codeBytes apduCodeOutputBufferTooSmall) ∧
    ∀ y ∈ later, ∀ payload, chunkOf y.1 = some payload →
      y.2.replyBytes = some (codeBytes apduCodeTxNotInitialized)

theorem Answered.accepted {trace : List Entry} (h : Answered trace)
    (hfits : (sent trace).length ≤ flashBufferSize) : AddsAccepted trace := by
  intro x hx payload hrequest
  obtain ⟨earlier, later, rfl⟩ := List.append_of_mem hx
  apply (h _ _ _ rfl).accepted payload hrequest
  have hchunk : chunkBytes x.1 = payload := by
    simp [chunkBytes, chunkOf, hrequest]
  rw [sent_append] at hfits
  simp only [sent, List.flatMap_cons, hchunk, List.length_append] at hfits
  rw [List.length_append, sent]
  omega

theorem Answered.overflows {trace : List Entry} (h : Answered trace)
    (hfull : flashBufferSize < (sent trace).length) : Overflows trace := by
  obtain ⟨earlier, x, later, rfl, hbefore, hafter⟩ := exists_crossing hfull
  have hearlier : Answered earlier := fun xs y ys hsplit =>
    h xs y (ys ++ x :: later) (by simp [hsplit])
  refine ⟨earlier, x, later, rfl, hbefore, ?_, hearlier.accepted hbefore, ?_, ?_⟩
  · simpa [sent_append, sent] using hafter
  · obtain ⟨payload, hpayload⟩ : ∃ payload, chunkOf x.1 = some payload := by
      cases hchunk : chunkOf x.1 with
      | none =>
          simp only [chunkBytes, hchunk, Option.getD_none, List.append_nil] at hafter
          omega
      | some payload => exact ⟨payload, rfl⟩
    apply (h _ _ _ rfl).crossing payload hpayload hbefore
    simpa [chunkBytes, hpayload] using hafter
  · intro y hy payload hpayload
    obtain ⟨xs, ys, rfl⟩ := List.append_of_mem hy
    apply (h (earlier ++ x :: xs) y ys (by simp)).closed payload hpayload
    rw [sent_append]
    simp only [sent, List.flatMap_cons, List.length_append] at hafter ⊢
    omega

theorem uploads_ne_signLast {e : Event} (h : Uploads e) (payload : List UInt8) :
    requestOf e ≠ some (.signLast payload) := by
  obtain ⟨platform, request, rfl, -, ⟨payload', hrequest⟩ | hharmless⟩ := h
  · simp [requestOf, hrequest]
  · intro hlast
    simp only [requestOf, Option.some.injEq] at hlast
    rw [hlast] at hharmless
    exact hharmless

theorem Answered.unopened {trace : List Entry} {x : Entry}
    (h : Answered (trace ++ [x])) (hmiddle : ∀ y ∈ trace, Uploads y.1)
    (hfull : flashBufferSize < (sent trace ++ chunkBytes x.1).length) :
    ∀ y ∈ trace ++ [x], y.2.opened = none := by
  intro y hy
  by_contra hopened
  rw [List.mem_append, List.mem_singleton] at hy
  rcases hy with hy | rfl
  · obtain ⟨earlier, later, rfl⟩ := List.append_of_mem hy
    have hanswered := h earlier y (later ++ [x]) (by simp)
    obtain ⟨payload, hrequest, -⟩ := hanswered.unopened hopened
    exact uploads_ne_signLast (hmiddle y hy) payload hrequest
  · obtain ⟨payload, hrequest, hfits⟩ := (h trace y [] rfl).unopened hopened
    simp only [chunkBytes, chunkOf, hrequest, Option.getD_some] at hfull
    omega

theorem run_upload (hB : B.AppendsUpToCapacity) {s : System B}
    (hidle : s.pending = false) {platform : Platform}
    (hunlocked : platform.pinIsValidated = true) {init : Apdu}
    {initPayload : List UInt8} {middle : List Event}
    (hinit : decode init.received = .signInit initPayload)
    (hlength : 12 ≤ initPayload.length)
    (hpath : ApduHandler.mainnet (pathOf initPayload) = true)
    (hmiddle : ∀ e ∈ middle, Uploads e) :
    ∃ o trace t, Run (machine B) s ((.apdu platform init, o) :: trace) t ∧
      trace.map Prod.fst = middle ∧ o.replyBytes = some (codeBytes apduCodeOk) ∧
      t.pending = false ∧ Progress t.app.toSession initPayload (sent trace) ∧
      Answered trace := by
  have hserve : serve platform s.app.toSession (decode init.received) =
      ⟨opened (withPath (emptied s.app.toSession) initPayload), .reply [] apduCodeOk,
        pathCalls initPayload⟩ := by
    rw [hinit, serve, whenUnlocked, if_pos hunlocked, serveInit_eq hlength hpath]
  obtain ⟨s₁, hstep, himplements⟩ := step_of_serve hidle hserve
  have hprogress : Progress s₁.app.toSession initPayload [] := by
    rw [himplements.session]
    exact progress_opened hB.toAppendsOrRefuses _ hlength hpath
  obtain ⟨trace, t, run, hevents, hidle', hprogress', hanswered⟩ :=
    run_uploads hB himplements.pending hprogress hmiddle
  exact ⟨_, trace, t, run_cons_iff.mpr ⟨s₁, hstep, run⟩, hevents,
    replyBytes_observation _ _ _, hidle', hprogress', hanswered⟩

/-- Send a message to an idle, unlocked application as one SIGN/INIT, chunks with
harmless requests between them, and one SIGN/LAST.  A message that fits is shown
as a whole, an empty one is refused, and one that is too long is cut off at the
first chunk that passes the capacity. -/
theorem message_reassembled (hB : B.AppendsUpToCapacity) {s : System B}
    (hidle : s.pending = false) {platform₀ platform₁ : Platform}
    (hunlocked₀ : platform₀.pinIsValidated = true)
    (hunlocked₁ : platform₁.pinIsValidated = true) {init last : Apdu}
    {initPayload lastPayload : List UInt8} {middle : List Event}
    (hinit : decode init.received = .signInit initPayload)
    (hlength : 12 ≤ initPayload.length)
    (hpath : ApduHandler.mainnet (pathOf initPayload) = true)
    (hmiddle : ∀ e ∈ middle, Uploads e)
    (hlast : decode last.received = .signLast lastPayload) :
    let message := middle.flatMap chunkBytes ++ lastPayload
    ∃ o₀ trace o₁ s',
      Run (machine B) s ((.apdu platform₀ init, o₀) ::
        (trace ++ [(.apdu platform₁ last, o₁)])) s' ∧
      trace.map Prod.fst = middle ∧
      o₀.replyBytes = some (codeBytes apduCodeOk) ∧
      (1 ≤ message.length → message.length ≤ flashBufferSize →
        AddsAccepted trace ∧ Shows s' o₁ (pathOf initPayload) message) ∧
      (message.length = 0 →
        AddsAccepted trace ∧ o₁.opened = none ∧
          o₁.replyBytes = some (parserGetErrorDescription .initContextEmpty ++
            codeBytes apduCodeDataInvalid)) ∧
      (flashBufferSize < message.length →
        Overflows (trace ++ [(.apdu platform₁ last, o₁)]) ∧
          ∀ x ∈ trace ++ [(.apdu platform₁ last, o₁)], x.2.opened = none) := by
  intro message
  obtain ⟨o₀, trace, s₂, run, rfl, haccepted₀, hidle₂, hprogress₂, hanswered⟩ :=
    run_upload hB hidle hunlocked₀ hinit hlength hpath hmiddle
  have hmessage : message = sent trace ++ lastPayload := by
    rw [sent_map]
  have haccepted : message.length ≤ flashBufferSize → AddsAccepted trace := by
    intro hfits
    rw [hmessage, List.length_append] at hfits
    exact hanswered.accepted (by omega)
  rcases Nat.lt_or_ge flashBufferSize message.length with hfull | hfits
  · have hshort : lastPayload.length ≤ ioApduBufferSize := last.length_payload_le hlast
    obtain ⟨s', o₁, hstep, -, -, hanswered₁⟩ := step_overflows hB hidle₂ hprogress₂
      hshort (hmessage ▸ hfull) (by rw [hlast, serve_signLast hunlocked₁])
      (by simp only [chunkOf, requestOf, hlast])
    have hwhole := hanswered.snoc hanswered₁
    have hsent : flashBufferSize <
        (sent trace ++ chunkBytes (.apdu platform₁ last)).length := by
      simpa [chunkBytes, chunkOf, requestOf, hlast, hmessage] using hfull
    refine ⟨_, trace, o₁, s', run.snoc hstep, rfl, haccepted₀,
      fun _ hle => absurd hle (Nat.not_le_of_gt hfull),
      fun hzero => absurd hfull (by omega), fun _ => ⟨hwhole.overflows ?_, ?_⟩⟩
    · simpa [sent_append, sent] using hsent
    · exact hwhole.unopened (by simpa using hmiddle) hsent
  · rcases Nat.eq_zero_or_pos message.length with hzero | hpos
    · have hempty : sent trace ++ lastPayload = [] :=
        List.eq_nil_of_length_eq_zero (hmessage ▸ hzero)
      obtain ⟨s', o₁, hstep, hreply, hopened⟩ :=
        step_empty hB hidle₂ hprogress₂ hunlocked₁ hlast hempty
      exact ⟨_, trace, o₁, s', run.snoc hstep, rfl, haccepted₀,
        fun hle => absurd hzero (by omega),
        fun _ => ⟨haccepted hfits, hopened, hreply⟩,
        fun hfull => absurd hfits (Nat.not_le_of_gt hfull)⟩
    · have hnonempty : sent trace ++ lastPayload ≠ [] :=
        List.ne_nil_of_length_pos (hmessage ▸ hpos)
      obtain ⟨s', o₁, hstep, hshows⟩ := step_shows hB hidle₂ hprogress₂ hunlocked₁
        hlast (hmessage ▸ hfits) hnonempty
      refine ⟨_, trace, o₁, s', run.snoc hstep, rfl, haccepted₀,
        fun _ _ => ⟨haccepted hfits, ?_⟩, fun hzero => absurd hpos (by omega),
        fun hfull => absurd hfits (Nat.not_le_of_gt hfull)⟩
      rw [hmessage]
      exact hshows

def sampleGetVersion : Apdu :=
  .command insGetVersion 0 [] (by decide)

theorem message_reassembled_sample :
    ∃ o₀ trace o₁ s', Run (machine ramFlashBuffering) started
        ((.apdu samplePlatform sampleInit, o₀) ::
          (trace ++ [(.apdu samplePlatform sampleLast, o₁)])) s' ∧
      trace.map Prod.fst =
        [.apdu samplePlatform sampleAdd, .apdu samplePlatform sampleGetVersion] ∧
      Shows s' o₁ (pathOf (coinPath 1 true)) [0xbc, 0xcd] := by
  have hmiddle : ∀ e ∈ [Event.apdu samplePlatform sampleAdd,
      .apdu samplePlatform sampleGetVersion], Uploads e := by
    simp only [List.mem_cons, List.not_mem_nil, or_false, forall_eq_or_imp, forall_eq]
    exact ⟨⟨_, _, rfl, rfl, .inl ⟨[0xbc], rfl⟩⟩, ⟨_, _, rfl, rfl, .inr trivial⟩⟩
  have hunlocked : samplePlatform.pinIsValidated = true := rfl
  have hinit : decode sampleInit.received = .signInit (coinPath 1 true) := rfl
  have hlast : decode sampleLast.received = .signLast [0xcd] := rfl
  obtain ⟨o₀, trace, o₁, s', hrun, hevents, -, hfits, -, -⟩ :=
    message_reassembled ramFlashBuffering_appendsUpToCapacity (s := started) rfl
      hunlocked hunlocked hinit (by decide) (by decide) hmiddle hlast
  exact ⟨o₀, trace, o₁, s', hrun, hevents, (hfits (by decide) (by decide)).2⟩

end LedgerSovereign.MessageReassembly
