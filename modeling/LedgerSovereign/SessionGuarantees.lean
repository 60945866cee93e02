import LedgerSovereign.ObservableBehaviour

namespace LedgerSovereign.SessionGuarantees

open LedgerSovereign.ApduHandler
open LedgerSovereign.ApplicationState
open LedgerSovereign.BufferingInterface
open LedgerSovereign.Constants
open LedgerSovereign.CryptoOutcomes
open LedgerSovereign.DeviceProtocol
open LedgerSovereign.HostSession
open LedgerSovereign.MachineBisimulation
open LedgerSovereign.ObservableBehaviour
open LedgerSovereign.PlatformInterface
open LedgerSovereign.RequestSemantics
open LedgerSovereign.SampleDevice
open LedgerSovereign.SessionHistory
open LedgerSovereign.SessionPhases
open LedgerSovereign.SigningIntegrity
open LedgerSovereign.TransitionRuns

def Signs (calls : List Call) : Prop :=
  ∃ path message, Call.cryptoSign path message ∈ calls

theorem signs_append {xs ys : List Call} :
    Signs (xs ++ ys) ↔ Signs xs ∨ Signs ys := by
  simp only [Signs, List.mem_append]
  constructor
  · rintro ⟨path, message, h | h⟩
    · exact .inl ⟨path, message, h⟩
    · exact .inr ⟨path, message, h⟩
  · rintro (⟨path, message, h⟩ | ⟨path, message, h⟩)
    · exact ⟨path, message, .inl h⟩
    · exact ⟨path, message, .inr h⟩

/-- The phases that cannot come to a signature without another SIGN/INIT. -/
def Unarmed : Phase → Prop
  | .closed | .reviewingAddress _ => True
  | _ => False

/-- An answer signs nothing, and only an accepted SIGN/INIT leads out of the
unarmed phases. -/
structure Modest (phase : Phase) (request : Request) (turn : Turn) : Prop where
  unsigned : ¬ Signs turn.calls
  unarmed : Unarmed phase → Unarmed turn.phase ∨
    (∃ payload, request = .signInit payload) ∧
      turn.observed.2.status = some (codeBytes apduCodeOk)

section Turns

variable {phase : Phase} {request : Request} {payload : List UInt8}

theorem Modest.after {turn : Turn} (h : Modest phase request turn)
    {calls : List Call} (hcalls : ¬ Signs calls) :
    Modest phase request (turn.after calls) where
  unsigned := by
    rw [Turn.after, signs_append, not_or]
    exact ⟨hcalls, h.unsigned⟩
  unarmed := by
    rw [status_observed_after]
    exact h.unarmed

theorem refuseIn_modest (code : UInt16) :
    Modest phase request (refuseIn phase code) :=
  ⟨by rintro ⟨_, _, ⟨⟩⟩, .inl⟩

theorem refuseIn_closed_modest (code : UInt16) :
    Modest phase request (refuseIn .closed code) :=
  ⟨by rintro ⟨_, _, ⟨⟩⟩, fun _ => .inl trivial⟩

theorem unsigned_payloadLength (payload : List UInt8) :
    ¬ Signs [payloadLength payload] := by
  rintro ⟨path, message, h⟩
  simp [payloadLength] at h

theorem unsigned_pathCalls (payload : List UInt8) : ¬ Signs (pathCalls payload) := by
  rintro ⟨path, message, h⟩
  simp [pathCalls, payloadLength] at h

theorem unsigned_chunkCalls (payload : List UInt8) :
    ¬ Signs (chunkCalls payload) := by
  rintro ⟨path, message, h⟩
  simp [chunkCalls, payloadLength] at h

theorem pathTurn_modest
    {next : (path : HdPath) → ApduHandler.mainnet path = true → Turn}
    (hnext : ∀ h, Modest phase request (next (pathOf payload) h)) :
    Modest phase request (pathTurn payload next) := by
  apply pathTurn_rule
  · exact (refuseIn_closed_modest _).after (unsigned_payloadLength payload)
  · exact (refuseIn_closed_modest _).after (unsigned_pathCalls payload)
  · exact fun h => (hnext h).after (unsigned_pathCalls payload)

theorem addressTurn_modest (device : Functionality) (confirm : Bool)
    (path : HdPath) : Modest phase request (addressTurn device confirm path) := by
  have hcalls : ¬ Signs [.osDeriveBip32WithSeedNoThrow path] := by
    rintro ⟨_, _, h⟩
    simp at h
  unfold addressTurn
  cases device.addressReply path with
  | error failure => exact ⟨hcalls, fun _ => .inl trivial⟩
  | ok data =>
      cases confirm with
      | false => exact ⟨hcalls, fun _ => .inl trivial⟩
      | true => exact ⟨hcalls, fun _ => .inl trivial⟩

/-- A chunk is taken in an armed phase only. -/
theorem chunkTurn_modest {next : Draft → Turn}
    (hnext : ∀ draft, ¬ Signs (next draft).calls) :
    Modest phase request (chunkTurn phase payload next) := by
  apply chunkTurn_rule
  · exact fun _ => refuseIn_modest _
  · exact fun _ _ =>
      (refuseIn_closed_modest _).after (unsigned_chunkCalls payload)
  · rintro draft draft' rfl -
    exact Modest.after ⟨hnext draft', False.elim⟩ (unsigned_chunkCalls payload)

theorem whenUnlocked_modest {device : Functionality} {turn : Turn}
    (h : Modest phase request turn) :
    Modest phase request (phase.whenUnlocked device turn) :=
  whenUnlockedIn_rule (fun _ => refuseIn_modest _) fun _ => h

theorem lastTurn_unsigned (draft : Draft) : ¬ Signs (lastTurn draft).calls := by
  unfold lastTurn
  split <;> rintro ⟨_, _, ⟨⟩⟩

theorem answer_modest (phase : Phase) (device : Functionality) (request : Request) :
    Modest phase request (phase.answer device request) := by
  cases request with
  | wrongClass => exact refuseIn_modest _
  | tooShort => exact refuseIn_modest _
  | unknownInstruction => exact refuseIn_modest _
  | getVersion => exact ⟨by rintro ⟨_, _, ⟨⟩⟩, .inl⟩
  | getAddr confirm payload =>
      exact whenUnlocked_modest
        (pathTurn_modest fun _ => addressTurn_modest device confirm _)
  | signInit payload =>
      apply whenUnlocked_modest
      refine pathTurn_modest fun _ => ⟨by rintro ⟨_, _, ⟨⟩⟩, fun _ => .inr ?_⟩
      exact ⟨⟨payload, rfl⟩, status_observation _ _ _⟩
  | signAdd payload =>
      exact whenUnlocked_modest (chunkTurn_modest fun _ => by rintro ⟨_, _, ⟨⟩⟩)
  | signLast payload =>
      exact whenUnlocked_modest (chunkTurn_modest lastTurn_unsigned)
  | signOther => exact whenUnlocked_modest (refuseIn_modest _)

end Turns

/-- Only the approval of a message signs, and it closes the session. -/
theorem step_signs_closes {phase phase' : Phase} {e : PhaseEvent}
    {o : Observation} (h : Phase.step phase e = some (phase', o))
    (hsigns : Signs o.calls) : ¬ Unarmed phase ∧ phase' = .closed := by
  rcases Phase.step_cases h with
    ⟨device, request, rfl, -, hturn⟩ | ⟨device, turn, rfl, happrove, hturn⟩ |
      ⟨rfl, -, hturn⟩
  · obtain ⟨rfl, rfl⟩ := Prod.mk.inj hturn
    rw [calls_observation] at hsigns
    exact absurd hsigns (answer_modest phase device request).unsigned
  · obtain ⟨rfl, rfl⟩ := Prod.mk.inj hturn
    refine ⟨fun hunarmed => ?_, approve_closes happrove⟩
    rw [calls_observation] at hsigns
    cases phase with
    | closed => cases happrove
    | collecting draft => cases happrove
    | reviewingMessage draft => exact hunarmed
    | reviewingAddress data =>
        cases happrove
        obtain ⟨_, _, hmem⟩ := hsigns
        cases hmem
  · obtain ⟨rfl, rfl⟩ := Prod.mk.inj hturn
    obtain ⟨_, _, hmem⟩ := hsigns
    cases hmem

theorem step_unarmed {phase phase' : Phase} {e : PhaseEvent} {o : Observation}
    (h : Phase.step phase e = some (phase', o)) (hunarmed : Unarmed phase) :
    Unarmed phase' ∨ ∃ device payload, e = .request device (.signInit payload) ∧
      o.status = some (codeBytes apduCodeOk) := by
  rcases Phase.step_cases h with
    ⟨device, request, rfl, -, hturn⟩ | ⟨device, turn, rfl, happrove, hturn⟩ |
      ⟨rfl, -, hturn⟩
  · obtain ⟨rfl, rfl⟩ := Prod.mk.inj hturn
    rcases (answer_modest phase device request).unarmed hunarmed with
      hleft | ⟨⟨payload, rfl⟩, hstatus⟩
    · exact .inl hleft
    · exact .inr ⟨device, payload, rfl, hstatus⟩
  · left
    rw [(Prod.mk.inj hturn).1, approve_closes happrove]
    trivial
  · left
    rw [(Prod.mk.inj hturn).1]
    trivial

theorem acceptedInit_of_essence {x : Entry} {device : Functionality}
    {payload : List UInt8} (h : essence x.1 = .request device (.signInit payload))
    (hstatus : x.2.status = some (codeBytes apduCodeOk)) :
    acceptedInit x = some payload := by
  obtain ⟨e, o⟩ := x
  cases e with
  | apdu platform request =>
      have hrequest : decode request.received = .signInit payload := by
        simp only [essence, PhaseEvent.request.injEq] at h
        exact h.2
      simp only [acceptedInit, requestOf, hrequest]
      exact if_pos hstatus
  | approve platform => cases h
  | reject => cases h

variable {B : Buffering}

/-- Without an accepted SIGN/INIT an unarmed application stays unarmed. -/
theorem run_unarmed (hB : B.AppendsUpToCapacity) {s t : System B} {phase : Phase}
    {trace : List Entry} (run : Run (machine B) s trace t) (hs : Refines s phase)
    (hunarmed : Unarmed phase) (hinit : ∀ x ∈ trace, acceptedInit x = none) :
    ∃ phase', Refines t phase' ∧ Unarmed phase' := by
  induction run with
  | nil => exact ⟨phase, hs, hunarmed⟩
  | @snoc trace t₁ t₂ e o _ hstep ih =>
      rw [List.forall_mem_append] at hinit
      obtain ⟨phase₁, hrefines₁, hunarmed₁⟩ := ih hinit.1
      obtain ⟨phase₂, hstep', hrefines₂⟩ :=
        (bisimulation hB).simulation.step hrefines₁ hstep
      rcases step_unarmed hstep' hunarmed₁ with
        hunarmed₂ | ⟨device, payload, hevent, hstatus⟩
      · exact ⟨phase₂, hrefines₂, hunarmed₂⟩
      · have haccepted := acceptedInit_of_essence (x := (e, o)) hevent hstatus
        rw [hinit.2 (e, o) (List.mem_singleton_self _)] at haccepted
        cases haccepted

/-- Between two signatures a session is opened: what was approved once is not
signed again. -/
theorem signatures_need_own_sessions (hB : B.AppendsUpToCapacity)
    {start s : System B} (hstart : Starts start) {xs ys : List Entry} {x y : Entry}
    (run : Run (machine B) start (xs ++ x :: (ys ++ [y])) s)
    (hx : Signs x.2.calls) (hy : Signs y.2.calls) :
    ∃ z ∈ ys, ∃ payload, acceptedInit z = some payload := by
  obtain ⟨t₀, t₁, hxs, hstepx, hrest⟩ := run.step_at
  obtain ⟨t₂, hys, hstepy⟩ := run_snoc_iff.mp hrest
  obtain ⟨phase₀, hrefines₀⟩ := run_refines hB hstart hxs
  obtain ⟨phase₁, hstepx', hrefines₁⟩ :=
    (bisimulation hB).simulation.step hrefines₀ hstepx
  obtain rfl := (step_signs_closes hstepx' hx).2
  by_contra hnone
  push Not at hnone
  have hinit : ∀ z ∈ ys, acceptedInit z = none := fun z hz =>
    Option.eq_none_iff_forall_ne_some.mpr (hnone z hz)
  obtain ⟨phase₂, hrefines₂, hunarmed⟩ :=
    run_unarmed hB hys hrefines₁ trivial hinit
  obtain ⟨phase₃, hstepy', -⟩ :=
    (bisimulation hB).simulation.step hrefines₂ hstepy
  exact (step_signs_closes hstepy' hy).1 hunarmed

def secondInit : System ramFlashBuffering × Observation :=
  answer samplePlatform sampleInit afterSampleApproval.1

def secondLast : System ramFlashBuffering × Observation :=
  answer samplePlatform sampleLast secondInit.1

def secondApproval : System ramFlashBuffering × Observation :=
  afterCallback ((acceptCallback samplePlatform .appSign).run
    { secondLast.1.app with calls := [] })

def secondSession : List Entry :=
  [(.apdu samplePlatform sampleInit, secondInit.2),
    (.apdu samplePlatform sampleLast, secondLast.2)]

theorem run_secondSession :
    Run (machine ramFlashBuffering) started
      (sampleTrace ++ (.approve samplePlatform, afterSampleApproval.2) ::
        (secondSession ++ [(.approve samplePlatform, secondApproval.2)]))
      secondApproval.1 := by
  have hsigned := run_sampleTrace.snoc step_sampleApproval
  have hinit := run_snoc_apdu hsigned (by decide) samplePlatform sampleInit
  have hlast := run_snoc_apdu hinit (by decide) samplePlatform sampleLast
  exact run_snoc_step hlast rfl

theorem signatures_need_own_sessions_sample :
    ∃ z ∈ secondSession, ∃ payload, acceptedInit z = some payload := by
  have hfirst : Signs afterSampleApproval.2.calls :=
    ⟨pathOf (coinPath 1 true), [0xbc, 0xcd], by decide⟩
  have hsecond : Signs secondApproval.2.calls :=
    ⟨pathOf (coinPath 1 true), [0xcd], by decide +kernel⟩
  exact signatures_need_own_sessions ramFlashBuffering_appendsUpToCapacity
    starts_started run_secondSession hfirst hsecond

section Phases

variable {device : Functionality}

theorem answer_unlocked {phase : Phase} {turn : Turn}
    (h : device.unlocked = true) : phase.whenUnlocked device turn = turn :=
  if_pos h

theorem step_init (hunlocked : device.unlocked = true) {phase : Phase}
    (hidle : phase.reviewing = false) {payload : List UInt8}
    (hlength : 12 ≤ payload.length)
    (hpath : ApduHandler.mainnet (pathOf payload) = true) :
    ∃ o, phases.step phase (.request device (.signInit payload)) =
      some (.collecting (.start (pathOf payload) hpath), o) := by
  refine ⟨(phase.answer device (.signInit payload)).observed.2, ?_⟩
  rw [phases_step, Phase.step, if_neg (by simp [hidle]), Phase.answer,
    answer_unlocked hunlocked, pathTurn, if_neg (Nat.not_lt.mpr hlength),
    dif_pos hpath]
  rfl

theorem step_reject {phase : Phase} (h : phase.reviewing = true) :
    ∃ o, phases.step phase .reject = some (.closed, o) := by
  refine ⟨(refuseIn .closed apduCodeCommandNotAllowed).observed.2, ?_⟩
  rw [phases_step, Phase.step, if_pos h]
  rfl

theorem step_chunk (hunlocked : device.unlocked = true) {draft : Draft}
    {payload : List UInt8}
    (hfits : (draft.message ++ payload).length ≤ flashBufferSize) :
    ∃ o, phases.step (.collecting draft) (.request device (.signAdd payload)) =
      some (.collecting ⟨draft.path, draft.message ++ payload, draft.mainnet,
        hfits⟩, o) := by
  refine ⟨(Phase.answer (.collecting draft) device (.signAdd payload)).observed.2,
    ?_⟩
  change some (Phase.answer (.collecting draft) device _).observed = _
  rw [Phase.answer, answer_unlocked hunlocked, chunkTurn, Draft.add, dif_pos hfits]
  rfl

theorem step_last (hunlocked : device.unlocked = true) {draft : Draft}
    {payload : List UInt8} (hnonempty : draft.message ++ payload ≠ [])
    (hfits : (draft.message ++ payload).length ≤ flashBufferSize) :
    ∃ o, phases.step (.collecting draft) (.request device (.signLast payload)) =
      some (.reviewingMessage ⟨draft.path, draft.message ++ payload,
        draft.mainnet, hfits⟩, o) := by
  refine ⟨(Phase.answer (.collecting draft) device (.signLast payload)).observed.2,
    ?_⟩
  change some (Phase.answer (.collecting draft) device _).observed = _
  rw [Phase.answer, answer_unlocked hunlocked, chunkTurn, Draft.add, dif_pos hfits]
  dsimp only
  rw [lastTurn, if_neg hnonempty]
  rfl

theorem step_signs {draft : Draft} {signature : Vector UInt8 ed25519SignatureSize}
    (h : device.signature draft.path draft.message = .ok signature) :
    phases.step (.reviewingMessage draft) (.approve device) =
      some (.closed, Response.observation (signCalls draft.path draft.message)
        (.reply signature.toList apduCodeOk)) := by
  change some (signTurn device draft).observed = _
  rw [signTurn, h]
  rfl

/-- Chunks are collected as long as their sum fits. -/
theorem run_chunks (hunlocked : device.unlocked = true) {chunks : List (List UInt8)}
    {draft : Draft}
    (hfits : (draft.message ++ chunks.flatten).length ≤ flashBufferSize) :
    ∃ trace, Run phases (.collecting draft) trace
        (.collecting ⟨draft.path, draft.message ++ chunks.flatten, draft.mainnet,
          hfits⟩) ∧
      trace.map Prod.fst =
        chunks.map fun chunk => .request device (.signAdd chunk) := by
  induction chunks generalizing draft with
  | nil =>
      refine ⟨[], run_nil_iff.mpr ?_, rfl⟩
      simp only [List.flatten_nil, List.append_nil]
  | cons chunk chunks ih =>
      have hsplit : draft.message ++ (chunk :: chunks).flatten =
          draft.message ++ chunk ++ chunks.flatten := by
        simp
      have hchunk : (draft.message ++ chunk).length ≤ flashBufferSize := by
        rw [hsplit, List.length_append] at hfits
        omega
      obtain ⟨o, hstep⟩ := step_chunk hunlocked hchunk
      have hrest : (draft.message ++ chunk ++ chunks.flatten).length ≤
          flashBufferSize := hsplit ▸ hfits
      obtain ⟨trace, hrun, hevents⟩ :=
        @ih ⟨draft.path, draft.message ++ chunk, draft.mainnet, hchunk⟩ hrest
      refine ⟨(.request device (.signAdd chunk), o) :: trace,
        run_cons_iff.mpr ⟨_, hstep, ?_⟩, congrArg _ hevents⟩
      simp only [hsplit]
      exact hrun

/-- A whole session, from its SIGN/INIT to its signature. -/
theorem run_session (hunlocked : device.unlocked = true) {phase : Phase}
    (hidle : phase.reviewing = false) {initPayload lastPayload : List UInt8}
    {chunks : List (List UInt8)} (hlength : 12 ≤ initPayload.length)
    (hpath : ApduHandler.mainnet (pathOf initPayload) = true)
    (hnonempty : chunks.flatten ++ lastPayload ≠ [])
    (hfits : (chunks.flatten ++ lastPayload).length ≤ flashBufferSize)
    {signature : Vector UInt8 ed25519SignatureSize}
    (hsignature : device.signature (pathOf initPayload)
      (chunks.flatten ++ lastPayload) = .ok signature) :
    ∃ trace, Run phases phase
        (trace ++ [(.approve device, Response.observation
          (signCalls (pathOf initPayload) (chunks.flatten ++ lastPayload))
          (.reply signature.toList apduCodeOk))]) .closed ∧
      trace.map Prod.fst = .request device (.signInit initPayload) ::
        (chunks.map (fun chunk => .request device (.signAdd chunk)) ++
          [.request device (.signLast lastPayload)]) := by
  obtain ⟨o₀, hinit⟩ := step_init hunlocked hidle hlength hpath
  have hchunks : ((Draft.start (pathOf initPayload) hpath).message ++
      chunks.flatten).length ≤ flashBufferSize := by
    rw [List.length_append] at hfits
    change chunks.flatten.length ≤ _
    omega
  obtain ⟨trace, hrun, hevents⟩ := run_chunks hunlocked hchunks
  let draft : Draft := ⟨pathOf initPayload,
    (Draft.start (pathOf initPayload) hpath).message ++ chunks.flatten, hpath, hchunks⟩
  have hnonempty' : draft.message ++ lastPayload ≠ [] := hnonempty
  obtain ⟨o₁, hlast⟩ := step_last hunlocked hnonempty' hfits
  refine ⟨(.request device (.signInit initPayload), o₀) ::
    (trace ++ [(.request device (.signLast lastPayload), o₁)]), ?_, ?_⟩
  · have hsession := (run_cons_iff.mpr ⟨_, hinit, hrun⟩).snoc hlast
    exact hsession.snoc (step_signs hsignature)
  · simp [hevents]

end Phases

theorem pending_eq_reviewing {s : System B} {phase : Phase} (h : Refines s phase) :
    s.pending = phase.reviewing := by
  obtain ⟨d, himplements, hphase⟩ := h
  rw [himplements.pending]
  generalize d.pending = pending at hphase
  cases hphase <;> rfl

/-- A review that waits can be rejected. -/
theorem review_dismissed (hB : B.AppendsUpToCapacity) {s : System B} {phase : Phase}
    (h : Refines s phase) :
    ∃ trace t phase', Run (machine B) s trace t ∧
      trace.map Prod.fst = (if s.pending then [.reject] else []) ∧
      Refines t phase' ∧ phase'.reviewing = false := by
  rw [pending_eq_reviewing h]
  cases hreviewing : phase.reviewing with
  | false => exact ⟨[], s, phase, .nil, rfl, h, hreviewing⟩
  | true =>
      obtain ⟨o, hstep⟩ := step_reject hreviewing
      obtain ⟨trace, t, hrun, hevents, -, hrefines⟩ :=
        (bisimulation hB).follow h (run_cons_iff.mpr ⟨_, hstep, .nil⟩)
          (rfl : [Event.reject].map essence = _)
      exact ⟨trace, t, .closed, hrun, hevents, hrefines, rfl⟩

theorem essence_requests (platform : Platform) {requests : List Apdu}
    {chunks : List (List UInt8)}
    (h : requests.map (fun request => decode request.received) =
      chunks.map .signAdd) :
    (requests.map (.apdu platform)).map essence = chunks.map fun chunk =>
      .request (functionality platform) (.signAdd chunk) := by
  have hrequests := congrArg (List.map (PhaseEvent.request (functionality platform))) h
  rw [List.map_map, List.map_map] at hrequests
  rw [List.map_map]
  exact hrequests

/-- Whatever happened so far, after the rejection of a review that may wait, a
message in chunks of any sizes is collected and signed. -/
theorem message_signed_from_anywhere (hB : B.AppendsUpToCapacity)
    {start s : System B} (hstart : Starts start) {trace : List Entry}
    (run : Run (machine B) start trace s) {platform : Platform}
    (hunlocked : platform.pinIsValidated = true) {init last : Apdu}
    {adds : List Apdu} {initPayload lastPayload : List UInt8}
    {chunks : List (List UInt8)}
    (hinit : decode init.received = .signInit initPayload)
    (hadds : adds.map (fun add => decode add.received) = chunks.map .signAdd)
    (hlast : decode last.received = .signLast lastPayload)
    (hlength : 12 ≤ initPayload.length)
    (hpath : ApduHandler.mainnet (pathOf initPayload) = true)
    (hnonempty : chunks.flatten ++ lastPayload ≠ [])
    (hfits : (chunks.flatten ++ lastPayload).length ≤ flashBufferSize)
    {signature : Vector UInt8 ed25519SignatureSize}
    (hsignature : signatureOf platform (pathOf initPayload)
      (chunks.flatten ++ lastPayload) = .ok signature) :
    ∃ more o t, Run (machine B) s (more ++ [(.approve platform, o)]) t ∧
      more.map Prod.fst = (if s.pending then [.reject] else []) ++
        .apdu platform init :: (adds.map (.apdu platform) ++
          [.apdu platform last]) ∧
      o.replyBytes = some (signature.toList ++ codeBytes apduCodeOk) ∧
      o.calls = signCalls (pathOf initPayload) (chunks.flatten ++ lastPayload) := by
  obtain ⟨phase, hrefines⟩ := run_refines hB hstart run
  obtain ⟨dismissal, s₁, phase₁, hdismissed, hevents₁, hrefines₁, hidle⟩ :=
    review_dismissed hB hrefines
  have hdevice : (functionality platform).unlocked = true := hunlocked
  obtain ⟨session, hsession, hrequests⟩ :=
    run_session hdevice hidle hlength hpath hnonempty hfits hsignature
  obtain ⟨reviewed, hcollected, hsigned⟩ := run_snoc_iff.mp hsession
  have hevents : (.apdu platform init :: (adds.map (.apdu platform) ++
      [.apdu platform last])).map essence = session.map Prod.fst := by
    rw [hrequests, List.map_cons, List.map_append, essence_requests platform hadds,
      List.map_singleton, essence, essence, hinit, hlast]
  obtain ⟨entries, s₂, hcollected', hfst, -, hrefines₂⟩ :=
    (bisimulation hB).follow hrefines₁ hcollected hevents
  obtain ⟨t, hsigned', -⟩ :=
    (bisimulation hB).lift_step (e := .approve platform) hrefines₂ hsigned
  have hwhole := hcollected'.snoc hsigned'
  refine ⟨dismissal ++ entries, _, t, ?_, ?_, replyBytes_observation _ _ _,
    calls_observation _ _⟩
  · rw [List.append_assoc]
    exact run_append_iff.mpr ⟨s₁, hdismissed, hwhole⟩
  · rw [List.map_append, hevents₁, hfst]

/-- While the sample review waits, another message is signed. -/
theorem message_signed_from_anywhere_sample :
    ∃ more o t, Run (machine ramFlashBuffering) afterSampleLast.1
        (more ++ [(.approve samplePlatform, o)]) t ∧
      more.map Prod.fst =
        [.reject, .apdu samplePlatform sampleInit, .apdu samplePlatform sampleAdd,
          .apdu samplePlatform sampleAdd, .apdu samplePlatform sampleLast] ∧
      o.replyBytes = some (List.replicate 64 1 ++ codeBytes apduCodeOk) := by
  have hinit : decode sampleInit.received = .signInit (coinPath 1 true) := rfl
  have hlast : decode sampleLast.received = .signLast [0xcd] := rfl
  have hadds : [sampleAdd, sampleAdd].map (fun add => decode add.received) =
      [[0xbc], [0xbc]].map .signAdd := rfl
  have hsignature : signatureOf samplePlatform (pathOf (coinPath 1 true))
      ([[0xbc], [0xbc]].flatten ++ [0xcd]) = .ok (Vector.replicate 64 1) := rfl
  obtain ⟨more, o, t, run, hevents, hreply, -⟩ :=
    message_signed_from_anywhere ramFlashBuffering_appendsUpToCapacity starts_started
      run_sampleTrace rfl hinit hadds hlast (by decide) (by decide) (by decide)
      (by decide) hsignature
  exact ⟨more, o, t, run, hevents, hreply⟩

end LedgerSovereign.SessionGuarantees
