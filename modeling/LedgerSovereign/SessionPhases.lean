import LedgerSovereign.MachineBisimulation
import LedgerSovereign.SessionHistory

/-!
The application as its host and its user may think of it: no session, a message
being collected, or a review that waits.  No buffer, pointer or key occurs here,
and the application takes every step of it.
-/

namespace LedgerSovereign.SessionPhases

open LedgerSovereign.ApduHandler
open LedgerSovereign.ApplicationState
open LedgerSovereign.BufferingInterface
open LedgerSovereign.Constants
open LedgerSovereign.CryptoOutcomes
open LedgerSovereign.DeviceProtocol
open LedgerSovereign.HostSession
open LedgerSovereign.MachineBisimulation
open LedgerSovereign.Parser
open LedgerSovereign.PlatformInterface
open LedgerSovereign.RequestSemantics
open LedgerSovereign.SessionHistory
open LedgerSovereign.TransitionRuns

/-- What can be asked of a device: its answers as functions of path and
message. -/
structure Functionality where
  unlocked : Bool
  version : List UInt8
  addressReply : HdPath → Outcome (List UInt8)
  signature : HdPath → List UInt8 → Outcome (Vector UInt8 ed25519SignatureSize)

def functionality (platform : Platform) : Functionality where
  unlocked := platform.pinIsValidated
  version := versionBytes platform
  addressReply := addressReplyOf platform
  signature := signatureOf platform

structure Draft where
  path : HdPath
  message : List UInt8
  mainnet : ApduHandler.mainnet path = true
  fits : message.length ≤ flashBufferSize

theorem draft_eq {draft draft' : Draft} (hpath : draft.path = draft'.path)
    (hmessage : draft.message = draft'.message) : draft = draft' := by
  obtain ⟨path, _, message, _⟩ := draft
  obtain ⟨path', _, message', _⟩ := draft'
  cases hpath
  cases hmessage
  rfl

def Draft.start (path : HdPath) (h : ApduHandler.mainnet path = true) : Draft :=
  ⟨path, [], h, Nat.zero_le _⟩

def Draft.add (draft : Draft) (payload : List UInt8) : Option Draft :=
  if h : (draft.message ++ payload).length ≤ flashBufferSize then
    some { draft with message := draft.message ++ payload, fits := h }
  else none

inductive Phase
  | closed
  | collecting (draft : Draft)
  | reviewingAddress (data : List UInt8)
  | reviewingMessage (draft : Draft)

def Phase.reviewing : Phase → Bool
  | .reviewingAddress _ => true
  | .reviewingMessage _ => true
  | _ => false

inductive PhaseEvent
  | request (device : Functionality) (request : Request)
  | approve (device : Functionality)
  | reject

/-- An answer, with the phase it leaves. -/
structure Turn where
  phase : Phase
  response : Response
  calls : List Call

def Turn.after (calls : List Call) (turn : Turn) : Turn :=
  { turn with calls := calls ++ turn.calls }

def Turn.observed (turn : Turn) : Phase × Observation :=
  (turn.phase, Response.observation turn.calls turn.response)

def refuseIn (phase : Phase) (code : UInt16) : Turn :=
  ⟨phase, .reply [] code, []⟩

def pathTurn (payload : List UInt8)
    (next : (path : HdPath) → ApduHandler.mainnet path = true → Turn) : Turn :=
  if payload.length < 12 then
    (refuseIn .closed apduCodeWrongLength).after [payloadLength payload]
  else if h : ApduHandler.mainnet (pathOf payload) = true then
    (next (pathOf payload) h).after (pathCalls payload)
  else
    (refuseIn .closed apduCodeDataInvalid).after (pathCalls payload)

def addressTurn (device : Functionality) (confirm : Bool) (path : HdPath) :
    Turn :=
  let calls := [.osDeriveBip32WithSeedNoThrow path]
  match device.addressReply path with
  | .error failure => ⟨.closed, addressFailure failure, calls⟩
  | .ok data =>
      if confirm then ⟨.reviewingAddress data, .addressReview data, calls⟩
      else ⟨.closed, .reply data apduCodeOk, calls⟩

def chunkTurn (phase : Phase) (payload : List UInt8) (next : Draft → Turn) :
    Turn :=
  match phase with
  | .collecting draft =>
      match draft.add payload with
      | some draft => (next draft).after (chunkCalls payload)
      | none =>
          (refuseIn .closed apduCodeOutputBufferTooSmall).after
            (chunkCalls payload)
  | _ => refuseIn phase apduCodeTxNotInitialized

def lastTurn (draft : Draft) : Turn :=
  if draft.message = [] then
    ⟨.closed, .reply (parserGetErrorDescription .initContextEmpty)
      apduCodeDataInvalid, []⟩
  else ⟨.reviewingMessage draft, .messageReview, []⟩

def Phase.whenUnlocked (phase : Phase) (device : Functionality) (turn : Turn) :
    Turn :=
  if device.unlocked then turn else refuseIn phase apduCodeCommandNotAllowed

def Phase.answer (phase : Phase) (device : Functionality) : Request → Turn
  | .wrongClass => refuseIn phase apduCodeClaNotSupported
  | .tooShort => refuseIn phase apduCodeWrongLength
  | .unknownInstruction => refuseIn phase apduCodeInsNotSupported
  | .getVersion => ⟨phase, .reply device.version apduCodeOk, []⟩
  | .getAddr confirm payload =>
      phase.whenUnlocked device
        (pathTurn payload fun path _ => addressTurn device confirm path)
  | .signInit payload =>
      phase.whenUnlocked device
        (pathTurn payload fun path h =>
          ⟨.collecting (.start path h), .reply [] apduCodeOk, []⟩)
  | .signAdd payload =>
      phase.whenUnlocked device
        (chunkTurn phase payload fun draft =>
          ⟨.collecting draft, .reply [] apduCodeOk, []⟩)
  | .signLast payload =>
      phase.whenUnlocked device (chunkTurn phase payload lastTurn)
  | .signOther =>
      phase.whenUnlocked device (refuseIn phase apduCodeInvalidP1P2)

def signTurn (device : Functionality) (draft : Draft) : Turn :=
  let calls := signCalls draft.path draft.message
  match device.signature draft.path draft.message with
  | .ok signature => ⟨.closed, .reply signature.toList apduCodeOk, calls⟩
  | .error none => ⟨.closed, .reply [] apduCodeSignVerifyError, calls⟩
  | .error (some _) => ⟨.closed, .silence, calls⟩

def Phase.approve (phase : Phase) (device : Functionality) : Option Turn :=
  match phase with
  | .reviewingAddress data => some ⟨.closed, .reply data apduCodeOk, []⟩
  | .reviewingMessage draft => some (signTurn device draft)
  | _ => none

def Phase.step (phase : Phase) : PhaseEvent → Option (Phase × Observation)
  | .request device request =>
      if phase.reviewing then none
      else some (phase.answer device request).observed
  | .approve device => (phase.approve device).map Turn.observed
  | .reject =>
      if phase.reviewing then
        some (refuseIn .closed apduCodeCommandNotAllowed).observed
      else none

def phases : Machine Phase PhaseEvent Observation where
  step := Phase.step

theorem phases_step (phase : Phase) (e : PhaseEvent) :
    phases.step phase e = phase.step e :=
  rfl

/-- What counts of an event. -/
def essence : Event → PhaseEvent
  | .apdu platform request =>
      .request (functionality platform) (decode request.received)
  | .approve platform => .approve (functionality platform)
  | .reject => .reject

variable {B : Buffering}

structure Keeps (s : Session B) (draft : Draft) : Prop where
  path : s.hdPath = draft.path
  content : B.content s.buffering = draft.message
  capacity : B.capacity s.buffering = flashBufferSize

/-- The phase that an open or closed session and a waiting review amount to. -/
inductive InPhase (s : Session B) : Option Pending → Phase → Prop
  | closed : s.txInitialized = false → InPhase s none .closed
  | collecting {draft : Draft} : s.txInitialized = true → Keeps s draft →
      InPhase s none (.collecting draft)
  | reviewingAddress {data : List UInt8} : s.txInitialized = false →
      InPhase s (some (.address data)) (.reviewingAddress data)
  | reviewingMessage {draft : Draft} : s.txInitialized = false → Keeps s draft →
      InPhase s (some .message) (.reviewingMessage draft)

/-- An answer of the application and a turn look the same and lead to the same
phase. -/
structure Matches (served : Served B) (turn : Turn) : Prop where
  response : served.response = turn.response
  calls : served.calls = turn.calls
  phase : InPhase served.session (Response.pending served.response) turn.phase

theorem Matches.after {served : Served B} {turn : Turn} (h : Matches served turn)
    (calls : List Call) : Matches (served.after calls) (turn.after calls) where
  response := h.response
  calls := congrArg (calls ++ ·) h.calls
  phase := h.phase

theorem refuse_matches {s : Session B} {phase : Phase} (h : InPhase s none phase)
    (code : UInt16) : Matches (refuse s code) (refuseIn phase code) :=
  ⟨rfl, rfl, h⟩

theorem refuse_closed_matches {s : Session B} (h : s.txInitialized = false)
    (code : UInt16) : Matches (refuse s code) (refuseIn .closed code) :=
  refuse_matches (.closed h) code

theorem servePath_matches {s : Session B} {payload : List UInt8}
    {next : Session B → Served B}
    {turn : (path : HdPath) → ApduHandler.mainnet path = true → Turn}
    (hnext : ∀ h, Matches (next (withPath s payload)) (turn (pathOf payload) h)) :
    Matches (servePath s payload next) (pathTurn payload turn) := by
  unfold servePath pathTurn
  by_cases hlength : payload.length < 12
  · rw [if_pos hlength, if_pos hlength]
    exact (refuse_closed_matches rfl _).after _
  · rw [if_neg hlength, if_neg hlength]
    by_cases hpath : ApduHandler.mainnet (pathOf payload) = true
    · rw [if_pos hpath, dif_pos hpath]
      exact (hnext hpath).after _
    · rw [if_neg hpath, dif_neg hpath]
      exact (refuse_closed_matches rfl _).after _

theorem serveAddress_matches (platform : Platform) (confirm : Bool) {s : Session B}
    (h : s.txInitialized = false) :
    Matches (serveAddress platform confirm s)
      (addressTurn (functionality platform) confirm s.hdPath) := by
  have hreply : (functionality platform).addressReply s.hdPath =
      addressReplyOf platform s.hdPath := rfl
  unfold serveAddress addressTurn
  rw [hreply]
  cases addressReplyOf platform s.hdPath with
  | error failure =>
      refine ⟨rfl, rfl, ?_⟩
      rcases failure with _ | (_ | e)
      · exact .closed h
      · exact .closed h
      · exact .closed h
  | ok data =>
      cases confirm with
      | false => exact ⟨rfl, rfl, .closed h⟩
      | true => exact ⟨rfl, rfl, .reviewingAddress h⟩

theorem keeps_opened (hB : B.AppendsOrRefuses) (s : Session B)
    {payload : List UInt8} (h : ApduHandler.mainnet (pathOf payload) = true) :
    Keeps (opened (withPath (emptied s) payload)) (.start (pathOf payload) h) where
  path := rfl
  content := hB.content_reset _
  capacity := by
    change B.capacity (B.reset _) = _
    rw [hB.capacity_reset, hB.capacity_init _ _ _ (by decide) (by decide)]

theorem takes_iff_fits (hB : B.AppendsUpToCapacity) {s : Session B}
    {payload : List UInt8} (hshort : payload.length ≤ ioApduBufferSize) :
    Takes s payload ↔
      (B.content s.buffering ++ payload).length ≤ B.capacity s.buffering := by
  have hsize : ioApduBufferSize = 260 := rfl
  have hle := hB.content_le s.buffering
  rw [List.length_append]
  constructor
  · intro htakes
    by_contra hfull
    obtain ⟨hreturns, -⟩ := hB.append_full s.buffering payload (by omega)
    have hnat := congrArg UInt32.toNat (hreturns.symm.trans htakes)
    rw [UInt32.toNat_ofNat', Nat.mod_eq_of_lt (by omega)] at hnat
    change 0 = payload.length at hnat
    omega
  · intro hfits
    exact (hB.append_fits s.buffering payload hfits).1

theorem Keeps.appended (hB : B.AppendsOrRefuses) {s : Session B}
    {draft draft' : Draft} {payload : List UInt8} (h : Keeps s draft)
    (hshort : payload.length ≤ ioApduBufferSize) (htakes : Takes s payload)
    (hadd : draft.add payload = some draft') :
    Keeps (appended s payload) draft' := by
  have hcontent := content_appended hB hshort htakes
  have hcapacity := hB.capacity_append s.buffering payload
  unfold Draft.add at hadd
  split at hadd
  · cases hadd
    exact ⟨h.path, by rw [hcontent, h.content], hcapacity.trans h.capacity⟩
  · cases hadd

theorem serveChunk_matches (hB : B.AppendsUpToCapacity) {s : Session B}
    {phase : Phase} {payload : List UInt8}
    (hshort : payload.length ≤ ioApduBufferSize) (h : InPhase s none phase)
    {next : Session B → Served B} {turn : Draft → Turn}
    (hnext : ∀ draft, (appended s payload).txInitialized = true →
      Keeps (appended s payload) draft →
        Matches (next (appended s payload)) (turn draft)) :
    Matches (serveChunk s payload next) (chunkTurn phase payload turn) := by
  cases h with
  | closed hclosed =>
      rw [serveChunk, if_neg (by simp [hclosed])]
      exact refuse_closed_matches hclosed _
  | @collecting draft hopen hkeeps =>
      have htakes := takes_iff_fits hB (s := s) hshort
      rw [hkeeps.content, hkeeps.capacity] at htakes
      rw [serveChunk, if_pos hopen, chunkTurn]
      by_cases hfits : (draft.message ++ payload).length ≤ flashBufferSize
      · have hadd : draft.add payload =
            some { draft with message := draft.message ++ payload, fits := hfits } :=
          dif_pos hfits
        rw [if_pos (htakes.mpr hfits), hadd]
        exact (hnext _ hopen (hkeeps.appended hB.toAppendsOrRefuses hshort
          (htakes.mpr hfits) hadd)).after _
      · have hadd : draft.add payload = none := dif_neg hfits
        rw [if_neg (fun h => hfits (htakes.mp h)), hadd]
        exact (refuse_closed_matches rfl _).after _

theorem hasMessage_iff_kept (hB : B.AppendsOrRefuses) {s : Session B}
    {draft : Draft} (h : Keeps s draft) :
    hasMessage s = true ↔ draft.message ≠ [] := by
  have hlength := hB.length_content s.buffering
  have hfits := draft.fits
  have hsize : flashBufferSize = 16384 := rfl
  rw [h.content] at hlength
  have hzero : (B.pos s.buffering).toUInt16 = 0 ↔ draft.message.length = 0 := by
    rw [← UInt16.toNat_inj, UInt32.toNat_toUInt16]
    change _ = 0 ↔ _
    omega
  rw [hasMessage_iff, hzero, List.length_eq_zero_iff, not_or]
  constructor
  · exact And.left
  · intro hnonempty
    refine ⟨hnonempty, fun hnone => hnonempty ?_⟩
    rw [← h.content, Buffering.content, Option.isNone_iff_eq_none.mp hnone]
    rfl

theorem serveMessage_matches (hB : B.AppendsOrRefuses) {s : Session B}
    {draft : Draft} (h : Keeps s draft) :
    Matches (serveMessage s) (lastTurn draft) := by
  have hmessage := hasMessage_iff_kept hB h
  unfold serveMessage lastTurn
  by_cases hempty : draft.message = []
  · rw [if_neg (by simpa [hmessage] using hempty), if_pos hempty]
    exact ⟨rfl, rfl, .closed rfl⟩
  · rw [if_pos (hmessage.mpr hempty), if_neg hempty]
    exact ⟨rfl, rfl, .reviewingMessage rfl ⟨h.path, h.content, h.capacity⟩⟩

theorem whenUnlocked_matches {platform : Platform} {s : Session B} {phase : Phase}
    (h : InPhase s none phase) {served : Served B} {turn : Turn}
    (hmatches : Matches served turn) :
    Matches (whenUnlocked platform s served)
      (phase.whenUnlocked (functionality platform) turn) := by
  unfold whenUnlocked Phase.whenUnlocked
  cases hpin : platform.pinIsValidated with
  | false => simpa [functionality, hpin] using refuse_matches h _
  | true => simpa [functionality, hpin] using hmatches

theorem serve_matches (hB : B.AppendsUpToCapacity) (platform : Platform)
    {s : Session B} {phase : Phase} (h : InPhase s none phase) {request : Request}
    (hshort : request.payload.length ≤ ioApduBufferSize) :
    Matches (serve platform s request)
      (phase.answer (functionality platform) request) := by
  cases request with
  | wrongClass => exact refuse_matches h _
  | tooShort => exact refuse_matches h _
  | unknownInstruction => exact refuse_matches h _
  | getVersion => exact ⟨rfl, rfl, h⟩
  | getAddr confirm payload =>
      exact whenUnlocked_matches h
        (servePath_matches fun _ => serveAddress_matches platform confirm rfl)
  | signInit payload =>
      exact whenUnlocked_matches h (servePath_matches fun hpath =>
        ⟨rfl, rfl, .collecting rfl (keeps_opened hB.toAppendsOrRefuses s hpath)⟩)
  | signAdd payload =>
      exact whenUnlocked_matches h
        (serveChunk_matches hB hshort h fun draft hopen hkeeps =>
          ⟨rfl, rfl, .collecting hopen hkeeps⟩)
  | signLast payload =>
      exact whenUnlocked_matches h
        (serveChunk_matches hB hshort h fun draft _ hkeeps =>
          serveMessage_matches hB.toAppendsOrRefuses hkeeps)
  | signOther => exact whenUnlocked_matches h (refuse_matches h _)

theorem Keeps.signedMessage_eq (hB : B.AppendsOrRefuses) {s : Session B}
    {draft : Draft} (h : Keeps s draft) : signedMessage s = draft.message := by
  have hlength := hB.length_content s.buffering
  have hfits := draft.fits
  have hsize : flashBufferSize = 16384 := rfl
  rw [h.content] at hlength
  rw [signedMessage, UInt32.toNat_toUInt16, Nat.mod_eq_of_lt (by omega)]
  exact h.content

theorem serveSignature_matches (hB : B.AppendsOrRefuses) (platform : Platform)
    {s : Session B} {draft : Draft} (hclosed : s.txInitialized = false)
    (h : Keeps s draft) :
    Matches (serveSignature platform s)
      (signTurn (functionality platform) draft) := by
  have hsignature : (functionality platform).signature draft.path draft.message =
      signatureOf platform draft.path draft.message := rfl
  unfold serveSignature signTurn
  rw [h.signedMessage_eq hB, h.path, hsignature]
  rcases signatureOf platform draft.path draft.message with (_ | e) | signature
  · exact ⟨rfl, rfl, .closed hclosed⟩
  · exact ⟨rfl, rfl, .closed hclosed⟩
  · exact ⟨rfl, rfl, .closed hclosed⟩

/-- The application is in a phase. -/
def Refines (s : System B) (phase : Phase) : Prop :=
  ∃ d, Implements s d ∧ InPhase d.session d.pending phase

theorem protocol_bisimilar (hB : B.AppendsUpToCapacity) {d : Device B}
    {phase : Phase} (h : InPhase d.session d.pending phase) (e : Event) :
    (Device.step d (visible e) = none ∧ Phase.step phase (essence e) = none) ∨
      ∃ d' phase' o, Device.step d (visible e) = some (d', o) ∧
        Phase.step phase (essence e) = some (phase', o) ∧
        InPhase d'.session d'.pending phase' := by
  have htogether : ∀ {served : Served B} {turn : Turn},
      Device.step d (visible e) = some (deliver served) →
      Phase.step phase (essence e) = some turn.observed → Matches served turn →
      ∃ d' phase' o, Device.step d (visible e) = some (d', o) ∧
        Phase.step phase (essence e) = some (phase', o) ∧
        InPhase d'.session d'.pending phase' := by
    intro served turn hserved hturn hmatches
    refine ⟨_, _, _, hserved, ?_, hmatches.phase⟩
    rw [hturn, Turn.observed, ← hmatches.response, ← hmatches.calls]
  obtain ⟨session, pending⟩ := d
  dsimp only at h
  cases e with
  | apdu platform request =>
      have hshort := request.length_payload_le rfl
      cases h with
      | closed hclosed =>
          exact .inr (htogether rfl rfl
            (serve_matches hB platform (.closed hclosed) hshort))
      | collecting hopen hkeeps =>
          exact .inr (htogether rfl rfl
            (serve_matches hB platform (.collecting hopen hkeeps) hshort))
      | reviewingAddress _ => exact .inl ⟨rfl, rfl⟩
      | reviewingMessage _ _ => exact .inl ⟨rfl, rfl⟩
  | approve platform =>
      cases h with
      | closed _ => exact .inl ⟨rfl, rfl⟩
      | collecting _ _ => exact .inl ⟨rfl, rfl⟩
      | reviewingAddress hclosed =>
          exact .inr (htogether rfl rfl ⟨rfl, rfl, .closed hclosed⟩)
      | reviewingMessage hclosed hkeeps =>
          exact .inr (htogether rfl rfl
            (serveSignature_matches hB.toAppendsOrRefuses platform hclosed hkeeps))
  | reject =>
      cases h with
      | closed _ => exact .inl ⟨rfl, rfl⟩
      | collecting _ _ => exact .inl ⟨rfl, rfl⟩
      | reviewingAddress hclosed =>
          exact .inr (htogether rfl rfl (refuse_closed_matches hclosed _))
      | reviewingMessage hclosed _ =>
          exact .inr (htogether rfl rfl (refuse_closed_matches hclosed _))

/-- The application and the phases take every event together. -/
theorem bisimulation (hB : B.AppendsUpToCapacity) :
    Bisimulation (machine B) phases essence Refines where
  step := by
    rintro s phase ⟨d, himplements, hphase⟩ e
    rcases step_corresponds himplements e with
      ⟨hnone, hnone'⟩ | ⟨s', d', o, hstep, hstep', himplements'⟩ <;>
    rcases protocol_bisimilar hB hphase e with
      ⟨hrefused, hrefused'⟩ | ⟨d'', phase', o', hserved, hturn, hphase'⟩
    · exact .inl ⟨hnone, hrefused'⟩
    · rw [hnone'] at hserved
      cases hserved
    · rw [hstep'] at hrefused
      cases hrefused
    · rw [hstep', Option.some.injEq, Prod.mk.injEq] at hserved
      obtain ⟨rfl, rfl⟩ := hserved
      exact .inr ⟨s', phase', o, hstep, hturn, d', himplements', hphase'⟩

theorem refines_of_starts {s : System B} (h : Starts s) : Refines s .closed :=
  ⟨_, implements_of_idle h.1, .closed h.2⟩

end LedgerSovereign.SessionPhases
