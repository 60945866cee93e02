import LedgerSovereign.SampleDevice
import LedgerSovereign.SigningSessions

namespace LedgerSovereign.FailSafeErrors

open LedgerSovereign.ApduHandler
open LedgerSovereign.ApplicationState
open LedgerSovereign.BufferingInterface
open LedgerSovereign.Constants
open LedgerSovereign.DeviceProtocol
open LedgerSovereign.HostSession
open LedgerSovereign.PlatformInterface
open LedgerSovereign.RequestSemantics
open LedgerSovereign.SampleDevice
open LedgerSovereign.SigningSessions
open LedgerSovereign.TaggedBuffer
open LedgerSovereign.TransitionRuns

variable {B : Buffering}

def signingState (s : Session B) : Bool × HdPath × List UInt8 :=
  (s.txInitialized, s.hdPath, B.content s.buffering)

def Failed (o : Observation) : Prop :=
  ∃ status, o.status = some status ∧ status ≠ codeBytes apduCodeOk

/-- A SIGN/INIT with a valid path that is accepted. -/
def OpensSession (x : Event × Observation) : Prop :=
  ∃ platform request payload, x.1 = .apdu platform request ∧
    decode request.received = .signInit payload ∧ 12 ≤ payload.length ∧
    mainnet (pathOf payload) = true ∧ x.2.status = some (codeBytes apduCodeOk)

theorem not_failed_ok (calls : List Call) (data : List UInt8) :
    ¬ Failed (Response.observation calls (.reply data apduCodeOk)) := by
  rintro ⟨status, hstatus, hne⟩
  rw [status_observation, Option.some.injEq] at hstatus
  exact hne hstatus.symm

theorem change_failSafe {s : Session B} {request : Request} {served : Served B}
    (hchange : Change s request served)
    (hfailed : Failed (Response.observation served.calls served.response)) :
    served.session = s ∨ served.session.txInitialized = false := by
  cases hchange with
  | kept _ => exact .inl rfl
  | opened _ _ _ => exact absurd hfailed (not_failed_ok _ _)
  | appended _ _ _ => exact absurd hfailed (not_failed_ok _ _)
  | shown _ _ _ _ => exact .inr rfl
  | closed hclosed _ _ => exact .inr hclosed

theorem change_closed {s : Session B} {request : Request} {served : Served B}
    (hclosed : s.txInitialized = false) (hchange : Change s request served) :
    served.session.txInitialized = false ∨
      (∃ payload, request = .signInit payload ∧ 12 ≤ payload.length ∧
        mainnet (pathOf payload) = true) ∧ served.response = .reply [] apduCodeOk := by
  cases hchange with
  | kept _ => exact .inl hclosed
  | opened hrequest hlength hpath => exact .inr ⟨⟨_, hrequest, hlength, hpath⟩, rfl⟩
  | appended _ hopen _ => simp [hclosed] at hopen
  | shown _ _ _ _ => exact .inl rfl
  | closed h _ _ => exact .inl h

theorem step_closed {d d' : Device B} {e : Event} {o : Observation}
    (hclosed : d.session.txInitialized = false)
    (hstep : Device.step d (visible e) = some (d', o)) (h : ¬ OpensSession (e, o)) :
    d'.session.txInitialized = false := by
  rcases d.step_cases hstep with
    ⟨platform, request, rfl, -, hresult⟩ | ⟨platform, p, rfl, -, hresult⟩ |
      ⟨p, rfl, -, hresult⟩
  · cases hresult
    rcases change_closed hclosed
      (serve_change platform d.session (decode request.received)) with
      hsession | ⟨⟨payload, hrequest, hlength, hpath⟩, hresponse⟩
    · exact hsession
    · refine absurd ⟨platform, request, payload, rfl, hrequest, hlength, hpath, ?_⟩ h
      simp only [hresponse]
      exact status_observation _ _ _
  · cases hresult
    simp only [serveApproval_session]
    exact hclosed
  · cases hresult
    exact hclosed

theorem run_closed {s t : System B} {trace : List (Event × Observation)}
    (hidle : s.pending = false) (hclosed : s.app.txInitialized = false)
    (run : Run (machine B) s trace t) (h : ∀ x ∈ trace, ¬ OpensSession x) :
    t.app.txInitialized = false := by
  have hinvariant := (simulation B).invariant
    (fun trace d => (∀ x ∈ trace, ¬ OpensSession x) → d.session.txInitialized = false)
    (implements_of_idle hidle) (fun _ => hclosed)
    (by
      intro trace d e o d' htrace hstep hall
      rw [List.forall_mem_append] at hall
      exact step_closed (htrace hall.1) hstep (by simpa using hall.2))
    run
  obtain ⟨d, hd, hsession⟩ := hinvariant
  have hd' := hsession h
  rw [← hd.session] at hd'
  exact hd'

theorem failed_reply {served : Served B} (h : Failed (deliver served).2) :
    ∃ data code, served.response = .reply data code := by
  obtain ⟨session, response, calls⟩ := served
  obtain ⟨status, hstatus, -⟩ := h
  cases response with
  | reply data code => exact ⟨data, code, rfl⟩
  | addressReview data => cases hstatus
  | messageReview => cases hstatus
  | silence => cases hstatus

/-- A closed session refuses every chunk and is not touched. -/
theorem serve_closed {platform : Platform} {s : Session B} {request : Request}
    {payload : List UInt8} (hclosed : s.txInitialized = false)
    (hunlocked : platform.pinIsValidated = true)
    (h : request = .signAdd payload ∨ request = .signLast payload) :
    serve platform s request = refuse s apduCodeTxNotInitialized := by
  rcases h with rfl | rfl <;> simp [serve, whenUnlocked, serveChunk, hclosed, hunlocked]

/-- A request that is refused leaves the signing session as it was or closes it, and
a session that is changed so takes nothing until another one is opened. -/
theorem failed_request_is_failSafe {s s' : System B} {platform : Platform}
    {request : Apdu} {o : Observation}
    (hstep : HostSession.step s (.apdu platform request) = some (s', o))
    (hfailed : Failed o) :
    (signingState s'.app.toSession = signingState s.app.toSession ∨
      s'.app.txInitialized = false) ∧
    (signingState s'.app.toSession ≠ signingState s.app.toSession →
      ∀ trace t, Run (machine B) s' trace t → (∀ x ∈ trace, ¬ OpensSession x) →
      ∀ platform' request' payload t' o', platform'.pinIsValidated = true →
        decode request'.received = .signAdd payload ∨
          decode request'.received = .signLast payload →
        HostSession.step t (.apdu platform' request') = some (t', o') →
        o'.replyBytes = some (codeBytes apduCodeTxNotInitialized) ∧
          o'.calls = [] ∧ t'.app.toSession = t.app.toSession) := by
  obtain ⟨-, himplements, rfl⟩ := step_serves hstep
  have hsafe := change_failSafe (serve_change platform s.app.toSession
    (decode request.received)) hfailed
  obtain ⟨data, code, hresponse⟩ := failed_reply hfailed
  have hsession := himplements.session
  have hidle : s'.pending = false := by
    rw [himplements.pending]
    simp only [deliver, hresponse]
    rfl
  change s'.app.toSession = (serve _ _ _).session at hsession
  rw [← hsession] at hsafe
  constructor
  · rcases hsafe with hsame | hclosed
    · exact .inl (by rw [hsame])
    · exact .inr hclosed
  · intro hchanged trace t run hnone platform' request' payload t' o' hunlocked
      hrequest hstep'
    have hclosed : s'.app.txInitialized = false := by
      rcases hsafe with hsame | hclosed
      · exact absurd (by rw [hsame]) hchanged
      · exact hclosed
    obtain ⟨-, himplements', rfl⟩ := step_serves hstep'
    rw [serve_closed (run_closed hidle hclosed run hnone) hunlocked hrequest]
      at himplements' ⊢
    exact ⟨by simp [deliver, refuse, Response.observation,
      Observation.replyBytes], rfl, himplements'.session⟩

def foreignInit : Apdu :=
  .command insSign p1Init [0x2c, 0x00, 0x00, 0x80, 0x00, 0x00, 0x00, 0x80, 0x00,
    0x00, 0x00, 0x80] (by decide)

def oneByteAdd : Apdu :=
  .command insSign p1Add [0xab] (by decide)

def afterForeignInit : System ramFlashBuffering × Observation :=
  answer samplePlatform foreignInit started

theorem failed_request_is_failSafe_foreignInit :
    afterForeignInit.1.app.hdPath ≠ started.app.hdPath ∧
      (answer samplePlatform oneByteAdd afterForeignInit.1).2.replyBytes =
        some (codeBytes apduCodeTxNotInitialized) ∧
      (answer samplePlatform oneByteAdd afterForeignInit.1).1.app.toSession =
        afterForeignInit.1.app.toSession := by
  have hpath : afterForeignInit.1.app.hdPath ≠ started.app.hdPath := by decide
  have hfailed : Failed afterForeignInit.2 := ⟨[0x69, 0x84], by decide, by decide⟩
  have hsafe := failed_request_is_failSafe (o := afterForeignInit.2)
    (step_apdu (s := started) rfl samplePlatform foreignInit) hfailed
  have hfurther := hsafe.2 (fun h => hpath (congrArg (fun t => t.2.1) h)) [] _ .nil
    (by simp) samplePlatform oneByteAdd [0xab] _ _ rfl (.inl rfl)
    (step_apdu (s := afterForeignInit.1) rfl samplePlatform oneByteAdd)
  exact ⟨hpath, hfurther.1, hfurther.2.2⟩

end LedgerSovereign.FailSafeErrors
