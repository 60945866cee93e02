import LedgerSovereign.HostSession

namespace LedgerSovereign.DeviceProtocol

open LedgerSovereign.Actions
open LedgerSovereign.ApduHandler
open LedgerSovereign.ApplicationState
open LedgerSovereign.BufferingInterface
open LedgerSovereign.Constants
open LedgerSovereign.Crypto
open LedgerSovereign.CryptoOutcomes
open LedgerSovereign.HandlerCorrectness
open LedgerSovereign.HostSession
open LedgerSovereign.PlatformInterface
open LedgerSovereign.RequestSemantics
open LedgerSovereign.TaggedBuffer
open LedgerSovereign.ThrowingPrograms
open LedgerSovereign.Transaction
open LedgerSovereign.TransitionRuns

variable {B : Buffering}

/-- What an approval is about. -/
inductive Pending
  | address (data : List UInt8)
  | message
  deriving DecidableEq

structure Device (B : Buffering) where
  session : Session B
  pending : Option Pending

inductive DeviceEvent
  | request (platform : Platform) (received : List UInt8)
  | approve (platform : Platform)
  | reject

def Response.pending : Response → Option Pending
  | .addressReview data => some (.address data)
  | .messageReview => some .message
  | _ => none

def Response.observation (calls : List Call) : Response → Observation
  | .reply data code => ⟨some (writtenCells (data ++ codeBytes code)), none, calls⟩
  | .addressReview _ => ⟨none, some addressView, calls⟩
  | .messageReview => ⟨none, some messageView, calls⟩
  | .silence => ⟨none, none, calls⟩

@[simp] theorem replyBytes_observation (calls : List Call) (data : List UInt8)
    (code : UInt16) :
    (Response.observation calls (.reply data code)).replyBytes =
      some (data ++ codeBytes code) := by
  simp [Observation.replyBytes, Response.observation]

@[simp] theorem calls_observation (calls : List Call) (response : Response) :
    (Response.observation calls response).calls = calls := by
  cases response <;> rfl

theorem status_observation (calls : List Call) (data : List UInt8)
    (code : UInt16) :
    (Response.observation calls (.reply data code)).status =
      some (codeBytes code) := by
  have hcode : (codeBytes code).length = 2 := rfl
  simp [Observation.status, Observation.replyBytes, Response.observation, hcode]

def deliver (served : Served B) : Device B × Observation :=
  (⟨served.session, Response.pending served.response⟩,
    Response.observation served.calls served.response)

def signedMessage (s : Session B) : List UInt8 :=
  B.bytesAt s.buffering (B.data s.buffering)
    (B.pos s.buffering).toUInt16.toNat

def serveSignature (platform : Platform) (s : Session B) : Served B :=
  let calls := signCalls s.hdPath (signedMessage s)
  match signatureOf platform s.hdPath (signedMessage s) with
  | .ok signature => ⟨s, .reply signature.toList apduCodeOk, calls⟩
  | .error none => ⟨s, .reply [] apduCodeSignVerifyError, calls⟩
  | .error (some _) => ⟨s, .silence, calls⟩

def serveApproval (platform : Platform) (s : Session B) : Pending → Served B
  | .address data => ⟨s, .reply data apduCodeOk, []⟩
  | .message => serveSignature platform s

def Device.step (d : Device B) : DeviceEvent → Option (Device B × Observation)
  | .request platform received =>
      match d.pending with
      | none => some (deliver (serve platform d.session (decode received)))
      | some _ => none
  | .approve platform =>
      d.pending.map fun pending =>
        deliver (serveApproval platform d.session pending)
  | .reject =>
      d.pending.map fun _ =>
        deliver (refuse d.session apduCodeCommandNotAllowed)

def protocol (B : Buffering) : Machine (Device B) DeviceEvent Observation where
  step := Device.step

/-- Forget what the buffer held behind the received bytes. -/
def visible : Event → DeviceEvent
  | .apdu platform request => .request platform request.received
  | .approve platform => .approve platform
  | .reject => .reject

/-- The three ways in which the protocol takes a step. -/
theorem Device.step_cases {d d' : Device B} {e : Event} {o : Observation}
    (h : Device.step d (visible e) = some (d', o)) :
    (∃ platform request, e = .apdu platform request ∧ d.pending = none ∧
        (d', o) = deliver (serve platform d.session (decode request.received))) ∨
      (∃ platform p, e = .approve platform ∧ d.pending = some p ∧
        (d', o) = deliver (serveApproval platform d.session p)) ∨
      (∃ p, e = .reject ∧ d.pending = some p ∧
        (d', o) = deliver (refuse d.session apduCodeCommandNotAllowed)) := by
  obtain ⟨session, pending⟩ := d
  cases e with
  | apdu platform request =>
      cases pending with
      | some p => cases h
      | none =>
          cases h
          exact .inl ⟨platform, request, rfl, rfl, rfl⟩
  | approve platform =>
      cases pending with
      | none => cases h
      | some p =>
          cases h
          exact .inr (.inl ⟨platform, p, rfl, rfl, rfl⟩)
  | reject =>
      cases pending with
      | none => cases h
      | some p =>
          cases h
          exact .inr (.inr ⟨p, rfl, rfl, rfl⟩)

def Prepared (s : Session B) : Pending → Prop
  | .address data =>
      s.view = some addressView ∧
        s.actionAddrResponseLen = UInt16.ofNat data.length ∧ data.length < 98
  | .message =>
      s.view = some messageView ∧ hasMessage s = true ∧ parsedSession s = s

/-- What a waiting review finds in the application's state; the buffer holds
the reply of an address request. -/
structure Awaits (s : State B) (p : Pending) : Prop where
  prepared : Prepared s.toSession p
  buffer : ∀ data, p = .address data →
    s.ioApduBuffer = (Buffer.zeros ioApduBufferSize).store 0 data

/-- The application is in a state of the protocol. -/
structure Implements (s : System B) (d : Device B) : Prop where
  session : s.app.toSession = d.session
  pending : s.pending = d.pending.isSome
  awaits : ∀ p ∈ d.pending, Awaits s.app p

def Delivers (s : State B) (r : EStateM.Result Thrown (State B) (List Cell))
    (served : Served B) : Prop :=
  match served.response with
  | .reply data code =>
      ∃ t, r = .ok (writtenCells (data ++ codeBytes code)) t ∧
        t.toSession = served.session ∧ t.calls = s.calls ++ served.calls
  | .silence =>
      ∃ e t, r = .error e t ∧ t.toSession = served.session ∧
        t.calls = s.calls ++ served.calls
  | _ => False

theorem setCode_ioExchange_run (s : State B) (data : List UInt8) (len : Nat)
    (code : UInt16) (hdata : s.ioApduBuffer.slice 0 data.length = writtenCells data)
    (hlen : len = data.length + 2) (hfits : len ≤ ioApduBufferSize) :
    (setCode data.length code >>= fun _ => ioExchange len).run s =
      .ok (writtenCells (data ++ codeBytes code))
        { s with ioApduBuffer :=
          s.ioApduBuffer.store data.length (codeBytes code) } := by
  have hcode : (codeBytes code).length = 2 := rfl
  have happend := s.ioApduBuffer.slice_store_append data.length
    (codeBytes code) (by omega)
  rw [writtenCells_append, ← hdata, ← happend, hcode, ← hlen]
  rfl

theorem appReject_delivers (s : State B) :
    Delivers s (appReject.run s)
      (refuse s.toSession apduCodeCommandNotAllowed) := by
  have hrun := setCode_ioExchange_run
    { s with ioApduBuffer := s.ioApduBuffer.zero ioApduBufferSize } [] 2
    apduCodeCommandNotAllowed rfl rfl (by decide)
  rw [appReject, run_modify_bind]
  exact ⟨_, hrun, rfl, by simp [refuse]⟩

theorem appReplyAddress_delivers (platform : Platform) {s : State B}
    {data : List UInt8} (h : Awaits s (.address data)) :
    Delivers s (appReplyAddress.run s)
      (serveApproval platform s.toSession (.address data)) := by
  obtain ⟨-, hlength, hshort⟩ := h.prepared
  have hbuffer := h.buffer data rfl
  have htail : s.actionAddrResponseLen.toNat = data.length := by
    rw [hlength, UInt16.toNat_ofNat']
    omega
  have hdata : s.ioApduBuffer.slice 0 data.length = writtenCells data := by
    rw [hbuffer]
    exact Buffer.slice_store_self _ (by simp [ioApduBufferSize]; omega)
  have hrun := setCode_ioExchange_run s data _ apduCodeOk hdata rfl
    (by simp [ioApduBufferSize]; omega)
  rw [appReplyAddress, run_get_bind, htail]
  exact ⟨_, hrun, rfl, by simp [serveApproval]⟩

theorem fromFrame_toSession {s : State B} {f : Frame ioApduBufferSize}
    (h : f.addrResponseLen = s.actionAddrResponseLen) :
    (s.fromFrame f).toSession = s.toSession := by
  simp only [State.fromFrame, h]

theorem appSign_delivers (platform : Platform) {s : State B}
    (hmessage : hasMessage s.toSession = true) :
    Delivers s ((appSign platform).run s)
      (serveApproval platform s.toSession .message) := by
  rw [hasMessage_iff, not_or] at hmessage
  obtain ⟨hlength, hdata⟩ := hmessage
  obtain ⟨region, hregion⟩ : ∃ region, B.data s.buffering = some region := by
    cases hregion : B.data s.buffering with
    | none => simp [hregion] at hdata
    | some region => exact ⟨region, rfl⟩
  have hbytes : messageBytes s.toSession = some (B.memory s.buffering region) := by
    simp [messageBytes, txGetBuffer, hregion]
  have hsigned : (B.memory s.buffering region).take
      (B.pos s.buffering).toUInt16.toNat = signedMessage s.toSession := by
    simp [signedMessage, Buffering.bytesAt, hregion]
  have hreports := cryptoSign_reports platform s.hdPath
    (UInt16.ofNat (ioApduBufferSize - 3))
    (B.memory s.buffering region) (ioFrame platform s) (by decide) hlength
  dsimp only at hreports
  rw [hsigned] at hreports
  rw [appSign, run_get_bind, hbytes, EStateM.run_bind, withIoBuffer_run,
    txGetBufferLength, serveApproval, serveSignature]
  cases hsignature : signatureOf platform s.hdPath (signedMessage s.toSession) with
  | ok signature =>
      rw [hsignature] at hreports
      obtain ⟨f, hrun, hkeeps, hout⟩ := hreports
      have hsize : signature.toList.length = 64 := Vector.length_toList
      have hcode := setCode_ioExchange_run (s.fromFrame f)
        signature.toList 66 apduCodeOk
        (by
          change f.out.slice 0 _ = _
          rw [hout]
          exact Buffer.slice_store_self _ (by simp [ioApduBufferSize, hsize]))
        (by rw [hsize]) (by decide)
      rw [hsize] at hcode
      rw [hrun]
      simp only [ne_eq, not_true_eq_false, if_false]
      exact ⟨_, hcode, fromFrame_toSession hkeeps.addrResponseLen, hkeeps.calls⟩
  | error failure =>
      rw [hsignature] at hreports
      cases failure with
      | none =>
          obtain ⟨err, f, hrun, herr, hkeeps⟩ := hreports
          have hcode := setCode_ioExchange_run (s.fromFrame f) [] 2
            apduCodeSignVerifyError rfl rfl (by decide)
          rw [hrun]
          simp only [ne_eq, herr, not_false_eq_true, if_true]
          exact ⟨_, hcode, fromFrame_toSession hkeeps.addrResponseLen, hkeeps.calls⟩
      | some e =>
          obtain ⟨f, hrun, hkeeps⟩ := hreports
          rw [hrun]
          exact ⟨e, _, rfl, fromFrame_toSession hkeeps.addrResponseLen,
            hkeeps.calls⟩

/-- A callback's reply is what the protocol delivers, and ends the review. -/
theorem afterCallback_implements {s : State B}
    {r : EStateM.Result Thrown (State B) (List Cell)} {served : Served B}
    (h : Delivers { s with calls := [] } r served) :
    Implements (afterCallback r).1 (deliver served).1 ∧
      (afterCallback r).2 = (deliver served).2 := by
  obtain ⟨session, response, calls⟩ := served
  cases response with
  | reply data code =>
      obtain ⟨t, rfl, hsession, hcalls⟩ := h
      refine ⟨⟨hsession, rfl, by rintro _ ⟨⟩⟩, ?_⟩
      rw [afterCallback, hcalls]
      rfl
  | silence =>
      obtain ⟨e, t, rfl, hsession, hcalls⟩ := h
      refine ⟨⟨hsession, rfl, by rintro _ ⟨⟩⟩, ?_⟩
      rw [afterCallback, hcalls]
      rfl
  | addressReview data => exact h.elim
  | messageReview => exact h.elim

def Prepares (served : Served B) : Prop :=
  ∀ p, Response.pending served.response = some p → Prepared served.session p

theorem refuse_prepares (s : Session B) (code : UInt16) :
    Prepares (refuse s code) := by
  rintro p ⟨⟩

theorem serveAddress_prepares (platform : Platform) (confirm : Bool)
    (s : Session B) : Prepares (serveAddress platform confirm s) := by
  apply serveAddress_rule
  · intro failure _ p hp
    match failure with
    | none => cases hp
    | some (.code e) => cases hp
    | some .ioReset => cases hp
  · rintro data _ _ p ⟨⟩
  · rintro data hreply _ p ⟨⟩
    exact ⟨rfl, rfl, (length_of_addressReplyOf hreply).2⟩

theorem serveMessage_prepares (s : Session B) : Prepares (serveMessage s) := by
  unfold serveMessage
  split
  · rename_i hmessage
    rintro p ⟨⟩
    exact ⟨rfl, hmessage, rfl⟩
  · rintro p ⟨⟩

theorem serve_prepares (platform : Platform) (s : Session B)
    (request : Request) : Prepares (serve platform s request) := by
  have hrefuse := @refuse_prepares B
  cases request with
  | wrongClass => exact hrefuse s _
  | tooShort => exact hrefuse s _
  | unknownInstruction => exact hrefuse s _
  | getVersion => rintro p ⟨⟩
  | getAddr confirm payload =>
      apply whenUnlocked_rule (fun _ => hrefuse s _)
      intro _
      exact servePath_rule (fun _ => hrefuse _ _) (fun _ _ => hrefuse _ _)
        fun _ _ => serveAddress_prepares platform confirm _
  | signInit payload =>
      apply whenUnlocked_rule (fun _ => hrefuse s _)
      intro _
      exact servePath_rule (fun _ => hrefuse _ _) (fun _ _ => hrefuse _ _)
        fun _ _ => hrefuse _ _
  | signAdd payload =>
      apply whenUnlocked_rule (fun _ => hrefuse s _)
      intro _
      exact serveChunk_rule (fun _ => hrefuse _ _) (fun _ _ => hrefuse _ _)
        fun _ _ => hrefuse _ _
  | signLast payload =>
      apply whenUnlocked_rule (fun _ => hrefuse s _)
      intro _
      exact serveChunk_rule (fun _ => hrefuse _ _) (fun _ _ => hrefuse _ _)
        fun _ _ => serveMessage_prepares _
  | signOther => exact whenUnlocked_rule (fun _ => hrefuse s _) fun _ => hrefuse s _

theorem afterReview_implements {s t : State B} {request : Apdu} {session : Session B}
    {response : Response} {calls : List Call} {p : Pending} {view : Review}
    (hleaves : Leaves (arrival s request) t ⟨session, response, calls⟩ ioAsynchReply 0)
    (hprepared : Prepared session p) (hview : session.view = some view)
    (hbuffer : ∀ data, p = .address data →
      t.ioApduBuffer = (Buffer.zeros ioApduBufferSize).store 0 data) :
    Implements (afterHandleApdu (.ok () t)).1 ⟨session, some p⟩ ∧
      (afterHandleApdu (.ok () t)).2 = ⟨none, some view, calls⟩ := by
  have hflags : ¬ t.flags &&& ioAsynchReply = 0 := by
    rw [hleaves.flags]
    decide
  rw [afterHandleApdu, if_neg hflags]
  refine ⟨⟨hleaves.session, rfl, ?_⟩, ?_⟩
  · rintro _ ⟨⟩
    refine ⟨?_, hbuffer⟩
    rw [hleaves.session]
    exact hprepared
  · have hview' : t.view = some view := (congrArg Session.view hleaves.session).trans hview
    rw [hleaves.calls, hview']
    rfl

theorem afterHandleApdu_implements {s : State B} {request : Apdu}
    {r : EStateM.Result Thrown (State B) Unit} {served : Served B}
    (h : Answers (arrival s request) r served) (hprepares : Prepares served) :
    Implements (afterHandleApdu r).1 (deliver served).1 ∧
      (afterHandleApdu r).2 = (deliver served).2 := by
  obtain ⟨session, response, calls⟩ := served
  cases response with
  | reply data code =>
      obtain ⟨t, rfl, hleaves, hlength, hslice⟩ := h
      have htx : t.tx.toNat = data.length + 2 := by
        rw [hleaves.tx, UInt32.toNat_ofNat']
        omega
      have hflags : t.flags &&& ioAsynchReply = 0 := by rw [hleaves.flags]; rfl
      rw [afterHandleApdu, if_pos hflags]
      refine ⟨⟨hleaves.session, rfl, by rintro _ ⟨⟩⟩, ?_⟩
      rw [htx, hslice, hleaves.calls]
      rfl
  | silence =>
      obtain ⟨t, rfl, hsession, hcalls⟩ := h
      refine ⟨⟨hsession, rfl, by rintro _ ⟨⟩⟩, ?_⟩
      rw [afterHandleApdu, hcalls]
      rfl
  | addressReview data =>
      obtain ⟨t, rfl, hleaves, hbuffer⟩ := h
      have hprepared := hprepares _ rfl
      refine afterReview_implements hleaves hprepared hprepared.1 ?_
      rintro _ ⟨⟩
      exact hbuffer
  | messageReview =>
      obtain ⟨t, rfl, hleaves, -⟩ := h
      have hprepared := hprepares _ rfl
      exact afterReview_implements hleaves hprepared hprepared.1 (by rintro _ ⟨⟩)

theorem answer_serves (platform : Platform) (request : Apdu) (s : System B) :
    let served := serve platform s.app.toSession (decode request.received)
    Implements (answer platform request s).1 (deliver served).1 ∧
      (answer platform request s).2 = (deliver served).2 :=
  afterHandleApdu_implements
    (handleApdu_answers platform request (s := arrival s.app request) rfl rfl rfl)
    (serve_prepares platform _ _)

theorem step_serves {s s' : System B} {platform : Platform} {request : Apdu}
    {o : Observation}
    (h : HostSession.step s (.apdu platform request) = some (s', o)) :
    let served := serve platform s.app.toSession (decode request.received)
    s.pending = false ∧ Implements s' (deliver served).1 ∧
      o = (deliver served).2 := by
  cases hpending : s.pending with
  | true => simp [HostSession.step, hpending] at h
  | false =>
      rw [step_apdu hpending, Option.some.injEq, Prod.mk.injEq] at h
      obtain ⟨rfl, rfl⟩ := h
      exact ⟨rfl, answer_serves platform request s⟩

theorem acceptCallback_delivers (platform : Platform) {s : State B} {p : Pending}
    (h : Awaits s p) :
    ∃ review, s.view = some review ∧
      Delivers s ((acceptCallback platform review.accept).run s)
        (serveApproval platform s.toSession p) := by
  cases p with
  | address data =>
      exact ⟨addressView, h.prepared.1, appReplyAddress_delivers platform h⟩
  | message => exact ⟨messageView, h.prepared.1, appSign_delivers platform h.prepared.2.1⟩

/-- In corresponding states both machines take an event together, or both
refuse it. -/
theorem step_corresponds {s : System B} {d : Device B} (h : Implements s d)
    (e : Event) :
    (HostSession.step s e = none ∧ Device.step d (visible e) = none) ∨
      ∃ s' d' o, HostSession.step s e = some (s', o) ∧
        Device.step d (visible e) = some (d', o) ∧ Implements s' d' := by
  obtain ⟨session, pending⟩ := d
  obtain ⟨hsession, hpending, hawaits⟩ := h
  dsimp only at hsession hpending hawaits
  subst hsession
  have htogether : ∀ {r : System B × Observation} {served : Served B},
      HostSession.step s e = some r →
      Device.step ⟨s.app.toSession, pending⟩ (visible e) = some (deliver served) →
      Implements r.1 (deliver served).1 ∧ r.2 = (deliver served).2 →
      ∃ s' d' o, HostSession.step s e = some (s', o) ∧
        Device.step ⟨s.app.toSession, pending⟩ (visible e) = some (d', o) ∧
        Implements s' d' := by
    rintro ⟨s', o⟩ served hstep hserved ⟨himplements, rfl⟩
    exact ⟨_, _, _, hstep, hserved, himplements⟩
  cases e with
  | apdu platform request =>
      cases pending with
      | some p => exact .inl ⟨by simp [HostSession.step, hpending], rfl⟩
      | none =>
          right
          exact htogether (step_apdu hpending platform request) rfl
            (answer_serves platform request s)
  | approve platform =>
      cases pending with
      | none => exact .inl ⟨by simp [HostSession.step, hpending], rfl⟩
      | some p =>
          right
          have hp := hawaits p rfl
          obtain ⟨review, hview, hdelivers⟩ := acceptCallback_delivers platform
            (s := { s.app with calls := [] }) ⟨hp.prepared, hp.buffer⟩
          refine htogether ?_ rfl (afterCallback_implements hdelivers)
          change s.app.view = some review at hview
          simp only [HostSession.step, hpending, hview]
          rfl
  | reject =>
      cases pending with
      | none => exact .inl ⟨by simp [HostSession.step, hpending], rfl⟩
      | some p =>
          right
          refine htogether ?_ rfl (afterCallback_implements
            (appReject_delivers { s.app with calls := [] }))
          simp only [HostSession.step, hpending]
          rfl

/-- Every step of the application is a step of the protocol on what is visible
of the event. -/
theorem simulation (B : Buffering) :
    Simulation (machine B) (protocol B) visible Implements where
  step := by
    intro s d e s' o himplements hstep
    change HostSession.step s e = some (s', o) at hstep
    rcases step_corresponds himplements e with
      ⟨hnone, -⟩ | ⟨s₁, d₁, o₁, hstep₁, hserved, himplements₁⟩
    · rw [hnone] at hstep
      cases hstep
    · rw [hstep₁, Option.some.injEq, Prod.mk.injEq] at hstep
      obtain ⟨rfl, rfl⟩ := hstep
      exact ⟨d₁, hserved, himplements₁⟩

theorem step_approve {s : System B} {d : Device B} {p : Pending}
    (h : Implements s d) (hp : d.pending = some p) (platform : Platform) :
    ∃ s', HostSession.step s (.approve platform) =
        some (s', (deliver (serveApproval platform d.session p)).2) ∧
      Implements s' (deliver (serveApproval platform d.session p)).1 := by
  have hserved : Device.step d (visible (.approve platform)) =
      some (deliver (serveApproval platform d.session p)) := by
    simp only [visible, Device.step, hp, Option.map_some]
  rcases step_corresponds h (.approve platform) with
    ⟨-, hnone⟩ | ⟨s', d', o, hstep, hsome, himplements⟩
  · rw [hserved] at hnone
    cases hnone
  · rw [hserved] at hsome
    cases hsome
    exact ⟨s', hstep, himplements⟩

theorem step_reject {s : System B} {d : Device B} {p : Pending}
    (h : Implements s d) (hp : d.pending = some p) :
    ∃ s', HostSession.step s .reject =
        some (s', (deliver (refuse d.session apduCodeCommandNotAllowed)).2) ∧
      Implements s' (deliver (refuse d.session apduCodeCommandNotAllowed)).1 := by
  have hserved : Device.step d (visible .reject) =
      some (deliver (refuse d.session apduCodeCommandNotAllowed)) := by
    simp only [visible, Device.step, hp, Option.map_some]
  rcases step_corresponds h .reject with
    ⟨-, hnone⟩ | ⟨s', d', o, hstep, hsome, himplements⟩
  · rw [hserved] at hnone
    cases hnone
  · rw [hserved] at hsome
    cases hsome
    exact ⟨s', hstep, himplements⟩

theorem implements_of_idle {s : System B} (h : s.pending = false) :
    Implements s ⟨s.app.toSession, none⟩ :=
  ⟨rfl, h, by rintro _ ⟨⟩⟩

end LedgerSovereign.DeviceProtocol
