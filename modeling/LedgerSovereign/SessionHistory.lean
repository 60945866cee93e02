import LedgerSovereign.SigningSessions

namespace LedgerSovereign.SessionHistory

open LedgerSovereign.ApplicationState
open LedgerSovereign.BufferingInterface
open LedgerSovereign.Constants
open LedgerSovereign.DeviceProtocol
open LedgerSovereign.HostSession
open LedgerSovereign.PlatformInterface
open LedgerSovereign.RequestSemantics
open LedgerSovereign.SigningSessions
open LedgerSovereign.TransitionRuns

variable {B : Buffering}

abbrev Entry := Event × Observation

def requestOf : Event → Option Request
  | .apdu _ request => some (decode request.received)
  | _ => none

def Accepted (x : Entry) : Prop :=
  x.2.status = some (codeBytes apduCodeOk)

instance (x : Entry) : Decidable (Accepted x) :=
  inferInstanceAs (Decidable (_ = _))

theorem accepted_reply (e : Event) (calls : List Call) (data : List UInt8) :
    Accepted (e, Response.observation calls (.reply data apduCodeOk)) :=
  status_observation calls data apduCodeOk

def acceptedInit (x : Entry) : Option (List UInt8) :=
  match requestOf x.1 with
  | some (.signInit payload) => if Accepted x then some payload else none
  | _ => none

/-- What an entry adds to the message: the payload of a SIGN/ADD that was
accepted. -/
def acceptedAdd (x : Entry) : List UInt8 :=
  match requestOf x.1 with
  | some (.signAdd payload) => if Accepted x then payload else []
  | _ => []

def reviewedLast (x : Entry) : Option (List UInt8) :=
  match requestOf x.1 with
  | some (.signLast payload) =>
      if x.2.opened = some messageView then some payload else none
  | _ => none

theorem opened_of_reviewedLast {x : Entry} {payload : List UInt8}
    (h : reviewedLast x = some payload) : x.2.opened = some messageView := by
  unfold reviewedLast at h
  split at h
  · split at h
    · assumption
    · cases h
  · cases h

/-- A session was opened with `initPayload`, neither reopened nor shown since,
and `message` was accepted in it. -/
def Drafted (trace : List Entry) (initPayload message : List UInt8) : Prop :=
  ∃ earlier init middle, trace = earlier ++ init :: middle ∧
    acceptedInit init = some initPayload ∧
    (∀ x ∈ middle, acceptedInit x = none ∧ reviewedLast x = none) ∧
    message = middle.flatMap acceptedAdd

theorem drafted_of_init {trace : List Entry} {x : Entry}
    {initPayload : List UInt8} (h : acceptedInit x = some initPayload) :
    Drafted (trace ++ [x]) initPayload [] :=
  ⟨trace, x, [], rfl, h, by simp, rfl⟩

theorem Drafted.snoc {trace : List Entry} {initPayload message : List UInt8}
    (h : Drafted trace initPayload message) {x : Entry}
    (hinit : acceptedInit x = none) (hlast : reviewedLast x = none) :
    Drafted (trace ++ [x]) initPayload (message ++ acceptedAdd x) := by
  obtain ⟨earlier, init, middle, rfl, hopened, hmiddle, rfl⟩ := h
  refine ⟨earlier, init, middle ++ [x], by simp, hopened, ?_, by simp⟩
  rw [List.forall_mem_append]
  exact ⟨hmiddle, by simpa using ⟨hinit, hlast⟩⟩

/-- The session keeps the path and the message that were accepted. -/
structure Holds (s : Session B) (initPayload message : List UInt8) : Prop where
  length : 12 ≤ initPayload.length
  mainnet : ApduHandler.mainnet (pathOf initPayload) = true
  path : s.hdPath = pathOf initPayload
  content : B.content s.buffering = message
  capacity : B.capacity s.buffering = flashBufferSize

/-- An open session holds what was accepted since it was opened, and a message
on the screen was completed by the last request. -/
structure Tracks (trace : List Entry) (d : Device B) : Prop where
  drafted : d.session.txInitialized = true →
    ∃ initPayload message, Drafted trace initPayload message ∧
      Holds d.session initPayload message
  reviewed : d.pending = some .message →
    ∃ earlier last lastPayload initPayload message,
      trace = earlier ++ [last] ∧ reviewedLast last = some lastPayload ∧
      Drafted earlier initPayload message ∧
      Holds d.session initPayload (message ++ lastPayload)

theorem Holds.signedMessage_eq {s : Session B} {initPayload message : List UInt8}
    (h : Holds s initPayload message) (hB : B.AppendsOrRefuses) :
    signedMessage s = message := by
  have hlength := hB.length_content s.buffering
  have hle := hB.content_le s.buffering
  have hsize : flashBufferSize = 16384 := rfl
  rw [h.capacity, hsize] at hle
  rw [signedMessage, UInt32.toNat_toUInt16, Nat.mod_eq_of_lt (by omega)]
  exact h.content

/-- A chunk that is taken is appended, also when it is empty and refused. -/
theorem content_appended (hB : B.AppendsOrRefuses) {s : Session B}
    {payload : List UInt8} (hlength : payload.length ≤ ioApduBufferSize)
    (htakes : Takes s payload) :
    B.content (appended s payload).buffering = B.content s.buffering ++ payload := by
  have hsize : ioApduBufferSize = 260 := rfl
  rcases hB.append s.buffering payload (by omega) with ⟨-, hcontent⟩ | ⟨hzero, hcontent⟩
  · exact hcontent
  · have hnat := congrArg UInt32.toNat (hzero.symm.trans htakes)
    rw [UInt32.toNat_ofNat', Nat.mod_eq_of_lt (by omega)] at hnat
    have hempty : payload = [] := List.eq_nil_of_length_eq_zero hnat.symm
    rw [hempty, List.append_nil]
    rw [hempty] at hcontent
    exact hcontent

theorem Holds.appended (hB : B.AppendsOrRefuses) {s : Session B}
    {initPayload message payload : List UInt8} (h : Holds s initPayload message)
    (hlength : payload.length ≤ ioApduBufferSize) (htakes : Takes s payload) :
    Holds (appended s payload) initPayload (message ++ payload) where
  length := h.length
  mainnet := h.mainnet
  path := h.path
  content := by rw [content_appended hB hlength htakes, h.content]
  capacity := (hB.capacity_append s.buffering payload).trans h.capacity

theorem holds_opened (hB : B.AppendsOrRefuses) (s : Session B)
    {payload : List UInt8} (hlength : 12 ≤ payload.length)
    (hpath : ApduHandler.mainnet (pathOf payload) = true) :
    Holds (opened (withPath (emptied s) payload)) payload [] where
  length := hlength
  mainnet := hpath
  path := rfl
  content := hB.content_reset _
  capacity := by
    change B.capacity (B.reset _) = _
    rw [hB.capacity_reset, hB.capacity_init _ _ _ (by decide) (by decide)]

section Steps

variable {trace : List Entry} {d : Device B} {platform : Platform}
  {request : Apdu}

theorem quiet_entry {calls : List Call} {response : Response}
    (h : Quiet (decode request.received) response) :
    let x : Entry := (.apdu platform request, Response.observation calls response)
    acceptedInit x = none ∧ acceptedAdd x = [] ∧ reviewedLast x = none := by
  intro x
  have hrefused : ∀ payload, decode request.received = .signInit payload ∨
      decode request.received = .signAdd payload → ¬ Accepted x := by
    intro payload hrequest haccepted
    obtain ⟨code, rfl, hcode⟩ := h.refused payload hrequest
    rw [Accepted, status_observation, Option.some.injEq] at haccepted
    exact hcode (codeBytes_inj haccepted)
  have hopened : x.2.opened ≠ some messageView := by
    intro hview
    cases response with
    | messageReview => exact h.unshown rfl
    | reply data code => cases hview
    | addressReview data => cases hview
    | silence => cases hview
  refine ⟨?_, ?_, ?_⟩
  · cases hrequest : decode request.received with
    | signInit payload =>
        simp [acceptedInit, requestOf, x, hrequest,
          hrefused payload (.inl hrequest)]
    | _ => simp [acceptedInit, requestOf, x, hrequest]
  · cases hrequest : decode request.received with
    | signAdd payload =>
        simp [acceptedAdd, requestOf, x, hrequest,
          hrefused payload (.inr hrequest)]
    | _ => simp [acceptedAdd, requestOf, x, hrequest]
  · cases hrequest : decode request.received with
    | signLast payload =>
        simp [reviewedLast, requestOf, x, hrequest, hopened]
    | _ => simp [reviewedLast, requestOf, x, hrequest]

/-- A review of the message is waiting only behind the answer that opened it. -/
theorem pending_message {served : Served B}
    (h : (deliver served).1.pending = some .message) :
    served.response = .messageReview := by
  obtain ⟨session, response, calls⟩ := served
  cases response with
  | messageReview => rfl
  | reply data code => cases h
  | addressReview data => cases h
  | silence => cases h

theorem serve_tracks (hB : B.AppendsOrRefuses) (h : Tracks trace d) :
    let served := serve platform d.session (decode request.received)
    Tracks (trace ++ [(.apdu platform request, (deliver served).2)])
      (deliver served).1 := by
  have hchange := serve_change platform d.session (decode request.received)
  generalize serve platform d.session (decode request.received) = served at hchange
  dsimp only
  cases hchange with
  | kept hquiet =>
      obtain ⟨hinit, hadd, hlast⟩ := quiet_entry hquiet
      refine ⟨fun hopen => ?_, fun hpending => ?_⟩
      · obtain ⟨initPayload, message, hdrafted, hholds⟩ := h.drafted hopen
        refine ⟨initPayload, message, ?_, hholds⟩
        have hsnoc := hdrafted.snoc hinit hlast
        rw [hadd, List.append_nil] at hsnoc
        exact hsnoc
      · exact absurd (pending_message hpending) hquiet.unshown
  | @opened payload hrequest htwelve hpath =>
      refine ⟨fun _ => ⟨payload, [], drafted_of_init ?_, ?_⟩, by rintro ⟨⟩⟩
      · simp only [acceptedInit, requestOf, hrequest]
        exact if_pos (accepted_reply _ _ _)
      · exact holds_opened hB _ htwelve hpath
  | @appended payload hrequest hopen htakes =>
      have hlength := request.length_payload_le hrequest
      refine ⟨fun _ => ?_, by rintro ⟨⟩⟩
      obtain ⟨initPayload, message, hdrafted, hholds⟩ := h.drafted hopen
      refine ⟨initPayload, message ++ payload, ?_, hholds.appended hB hlength htakes⟩
      have hsnoc := hdrafted.snoc (x := (.apdu platform request,
          Response.observation (chunkCalls payload) (.reply [] apduCodeOk)))
        (by simp [acceptedInit, requestOf, hrequest])
        (by simp [reviewedLast, requestOf, hrequest])
      simp only [acceptedAdd, requestOf, hrequest] at hsnoc
      rw [if_pos (accepted_reply _ _ _)] at hsnoc
      exact hsnoc
  | @shown payload hrequest hopen htakes _ =>
      have hlength := request.length_payload_le hrequest
      refine ⟨by rintro ⟨⟩, fun _ => ?_⟩
      obtain ⟨initPayload, message, hdrafted, hholds⟩ := h.drafted hopen
      have hholds' := hholds.appended hB hlength htakes
      refine ⟨trace, _, payload, initPayload, message, rfl, ?_, hdrafted,
        ⟨hholds'.length, hholds'.mainnet, hholds'.path, hholds'.content,
          hholds'.capacity⟩⟩
      simp only [reviewedLast, requestOf, hrequest]
      exact if_pos rfl
  | closed hclosed hquiet _ =>
      refine ⟨fun hopen => ?_, fun hpending => ?_⟩
      · change served.session.txInitialized = true at hopen
        simp [hclosed] at hopen
      · exact absurd (pending_message hpending) hquiet.unshown

theorem answered_tracks {served : Served B} {e : Event} (h : Tracks trace d)
    (hrequest : requestOf e = none) (hsession : served.session = d.session)
    (hpending : Response.pending served.response = none) :
    Tracks (trace ++ [(e, (deliver served).2)]) (deliver served).1 := by
  refine ⟨fun hopen => ?_, fun hreview => ?_⟩
  · change served.session.txInitialized = true at hopen
    rw [hsession] at hopen
    obtain ⟨initPayload, message, hdrafted, hholds⟩ := h.drafted hopen
    have hsnoc := hdrafted.snoc (x := (e, (deliver served).2))
      (by simp [acceptedInit, hrequest]) (by simp [reviewedLast, hrequest])
    simp only [acceptedAdd, hrequest, List.append_nil] at hsnoc
    refine ⟨initPayload, message, hsnoc, ?_⟩
    change Holds served.session _ _
    rw [hsession]
    exact hholds
  · change Response.pending served.response = _ at hreview
    rw [hpending] at hreview
    cases hreview

theorem serveApproval_pending (platform : Platform) (s : Session B) (p : Pending) :
    Response.pending (serveApproval platform s p).response = none := by
  cases p with
  | address data => rfl
  | message =>
      rw [serveApproval, serveSignature]
      split <;> rfl

theorem step_tracks (hB : B.AppendsOrRefuses) (h : Tracks trace d) {e : Event}
    {o : Observation} {d' : Device B}
    (hstep : Device.step d (visible e) = some (d', o)) :
    Tracks (trace ++ [(e, o)]) d' := by
  rcases d.step_cases hstep with
    ⟨platform, request, rfl, -, hresult⟩ | ⟨platform, p, rfl, -, hresult⟩ |
      ⟨p, rfl, -, hresult⟩
  · cases hresult
    exact serve_tracks hB h
  · cases hresult
    exact answered_tracks h rfl (serveApproval_session platform d.session p)
      (serveApproval_pending platform d.session p)
  · cases hresult
    have hsession : (refuse d.session apduCodeCommandNotAllowed).session = d.session :=
      rfl
    exact answered_tracks h rfl hsession rfl

end Steps

theorem run_tracks (hB : B.AppendsOrRefuses) {start s : System B}
    {trace : List Entry} (hstart : Starts start) (run : Run (machine B) start trace s) :
    ∃ d, Implements s d ∧ Tracks trace d := by
  apply (simulation B).invariant Tracks (implements_of_idle hstart.1) _ _ run
  · refine ⟨fun hopen => ?_, by rintro ⟨⟩⟩
    change start.app.txInitialized = true at hopen
    simp [hstart.2] at hopen
  · intro trace d e o d' htracks hstep
    exact step_tracks hB htracks hstep

end LedgerSovereign.SessionHistory
