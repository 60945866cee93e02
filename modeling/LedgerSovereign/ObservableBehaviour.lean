import LedgerSovereign.SessionPhases
import LedgerSovereign.SigningIntegrity

namespace LedgerSovereign.ObservableBehaviour

open LedgerSovereign.ApduHandler
open LedgerSovereign.ApplicationState
open LedgerSovereign.BufferingInterface
open LedgerSovereign.Constants
open LedgerSovereign.CryptoOutcomes
open LedgerSovereign.DeviceProtocol
open LedgerSovereign.HostSession
open LedgerSovereign.MachineBisimulation
open LedgerSovereign.Parser
open LedgerSovereign.PlatformInterface
open LedgerSovereign.RequestSemantics
open LedgerSovereign.SampleDevice
open LedgerSovereign.SessionHistory
open LedgerSovereign.SessionPhases
open LedgerSovereign.SigningIntegrity
open LedgerSovereign.TransitionRuns

section Turns

variable {P : Turn → Prop} {phase : Phase} {payload : List UInt8}

theorem pathTurn_rule
    {next : (path : HdPath) → ApduHandler.mainnet path = true → Turn}
    (short : P ((refuseIn .closed apduCodeWrongLength).after
      [payloadLength payload]))
    (wrong : P ((refuseIn .closed apduCodeDataInvalid).after (pathCalls payload)))
    (accepted : ∀ h, P ((next (pathOf payload) h).after (pathCalls payload))) :
    P (pathTurn payload next) := by
  unfold pathTurn
  split
  · exact short
  · split
    · rename_i h
      exact accepted h
    · exact wrong

theorem chunkTurn_rule {next : Draft → Turn}
    (shut : (∀ draft, phase ≠ .collecting draft) →
      P (refuseIn phase apduCodeTxNotInitialized))
    (full : ∀ draft, phase = .collecting draft →
      P ((refuseIn .closed apduCodeOutputBufferTooSmall).after
        (chunkCalls payload)))
    (taken : ∀ draft draft', phase = .collecting draft →
      draft.add payload = some draft' →
      P ((next draft').after (chunkCalls payload))) :
    P (chunkTurn phase payload next) := by
  unfold chunkTurn
  split
  · rename_i draft
    split
    · rename_i draft' hadd
      exact taken draft draft' rfl hadd
    · exact full draft rfl
  · rename_i hother
    exact shut fun draft h => hother draft h

theorem whenUnlockedIn_rule {device : Functionality} {turn : Turn}
    (locked : device.unlocked = false →
      P (refuseIn phase apduCodeCommandNotAllowed))
    (unlocked : device.unlocked = true → P turn) :
    P (phase.whenUnlocked device turn) := by
  unfold Phase.whenUnlocked
  split
  · rename_i h
    exact unlocked h
  · rename_i h
    exact locked (Bool.eq_false_of_not_eq_true h)

end Turns

/-- An entry after which the application may be in another phase, or that
decided about a review. -/
def relevant : PhaseEvent × Observation → Bool
  | (.request device request, o) =>
      match request with
      | .getAddr _ _ => device.unlocked
      | .signInit _ => device.unlocked
      | .signAdd _ =>
          device.unlocked && o.status != some (codeBytes apduCodeTxNotInitialized)
      | .signLast _ =>
          device.unlocked && o.status != some (codeBytes apduCodeTxNotInitialized)
      | _ => false
  | _ => true

theorem status_observed_after (calls : List Call) (turn : Turn) :
    (turn.after calls).observed.2.status = turn.observed.2.status := by
  obtain ⟨phase, response, calls'⟩ := turn
  cases response <;> rfl

theorem status_reply_ne {code code' : UInt16} (h : code ≠ code') (phase : Phase)
    (data : List UInt8) (calls : List Call) :
    (Turn.observed ⟨phase, .reply data code, calls⟩).2.status ≠
      some (codeBytes code') := by
  intro hstatus
  change (Response.observation calls (.reply data code)).status = _ at hstatus
  rw [status_observation, Option.some.injEq] at hstatus
  exact h (codeBytes_inj hstatus)

/-- A chunk answered with this code found no session. -/
theorem chunkTurn_shut {phase : Phase} {payload : List UInt8}
    {next : Draft → Turn}
    (hnext : ∀ draft, (next draft).observed.2.status ≠
      some (codeBytes apduCodeTxNotInitialized))
    (h : (chunkTurn phase payload next).observed.2.status =
      some (codeBytes apduCodeTxNotInitialized)) :
    (chunkTurn phase payload next).phase = phase := by
  revert h
  apply chunkTurn_rule (P := fun turn =>
    turn.observed.2.status = some (codeBytes apduCodeTxNotInitialized) →
      turn.phase = phase)
  · intro _ _
    rfl
  · intro _ _ hstatus
    exact absurd hstatus (status_reply_ne (by decide) _ _ _)
  · intro _ draft _ _ hstatus
    rw [status_observed_after] at hstatus
    exact absurd hstatus (hnext draft)

theorem lastTurn_status (draft : Draft) :
    (lastTurn draft).observed.2.status ≠
      some (codeBytes apduCodeTxNotInitialized) := by
  unfold lastTurn
  split
  · exact status_reply_ne (by decide) _ _ _
  · rintro ⟨⟩

theorem answer_idle {phase : Phase} {device : Functionality} {request : Request}
    (h : relevant (.request device request,
      (phase.answer device request).observed.2) = false) :
    (phase.answer device request).phase = phase := by
  have hlocked : ∀ {turn : Turn}, device.unlocked = false →
      (phase.whenUnlocked device turn).phase = phase := by
    intro turn hlocked
    rw [Phase.whenUnlocked, if_neg (by simp [hlocked])]
    rfl
  have hchunk : ∀ {payload : List UInt8} {next : Draft → Turn},
      (∀ draft, (next draft).observed.2.status ≠
        some (codeBytes apduCodeTxNotInitialized)) →
      (device.unlocked &&
        (phase.whenUnlocked device
          (chunkTurn phase payload next)).observed.2.status !=
            some (codeBytes apduCodeTxNotInitialized)) = false →
      (phase.whenUnlocked device (chunkTurn phase payload next)).phase = phase := by
    intro payload next hnext hirrelevant
    cases hunlocked : device.unlocked with
    | false => exact hlocked hunlocked
    | true =>
        have hturn : phase.whenUnlocked device (chunkTurn phase payload next) =
            chunkTurn phase payload next := by
          rw [Phase.whenUnlocked, if_pos hunlocked]
        rw [hturn, hunlocked, Bool.true_and, bne_eq_false_iff_eq] at hirrelevant
        rw [hturn]
        exact chunkTurn_shut hnext hirrelevant
  cases request with
  | wrongClass => rfl
  | tooShort => rfl
  | unknownInstruction => rfl
  | getVersion => rfl
  | getAddr confirm payload => exact hlocked h
  | signInit payload => exact hlocked h
  | signAdd payload => exact hchunk (fun _ => status_reply_ne (by decide) _ _ _) h
  | signLast payload => exact hchunk lastTurn_status h
  | signOther =>
      exact whenUnlockedIn_rule (P := fun turn => turn.phase = phase)
        (fun _ => rfl) fun _ => rfl

theorem idle_irrelevant : Idle phases relevant := by
  intro phase e o phase' hstep hirrelevant
  cases e with
  | request device request =>
      change (if phase.reviewing then _ else _) = _ at hstep
      split at hstep
      · cases hstep
      · cases hstep
        exact answer_idle hirrelevant
  | approve device => cases hirrelevant
  | reject => cases hirrelevant

section Applications

variable {B B₁ B₂ : Buffering}

/-- The traces that the application has are those of the phases. -/
theorem traces_are_phase_traces (hB : B.AppendsUpToCapacity) {start : System B}
    (hstart : Starts start) (trace : List Entry) :
    (∃ s, Run (machine B) start trace s) ↔
      ∃ phase, Run phases .closed (trace.map (Prod.map essence id)) phase :=
  (bisimulation hB).run_iff (refines_of_starts hstart) trace

theorem traces_are_phase_traces_sample :
    ∃ phase, Run phases .closed (sampleTrace.map (Prod.map essence id)) phase :=
  (traces_are_phase_traces ramFlashBuffering_appendsUpToCapacity starts_started
    sampleTrace).mp ⟨_, run_sampleTrace⟩

def startedInFlash : System flashOnlyBuffering where
  app := { started.app with buffering := FlashOnly.init flashBufferSize }
  pending := false

/-- No sequence of events tells the two applications apart. -/
def Indistinguishable (s : System B₁) (t : System B₂) : Prop :=
  ∀ xs ys : List Entry,
    xs.map (Prod.map essence id) = ys.map (Prod.map essence id) →
    ((∃ u, Run (machine B₁) s xs u) ↔ ∃ u, Run (machine B₂) t ys u)

theorem indistinguishable_of_refines (hB₁ : B₁.AppendsUpToCapacity)
    (hB₂ : B₂.AppendsUpToCapacity) {s : System B₁} {t : System B₂} {phase : Phase}
    (hs : Refines s phase) (ht : Refines t phase) : Indistinguishable s t := by
  intro xs ys hevents
  rw [(bisimulation hB₁).run_iff hs, (bisimulation hB₂).run_iff ht, hevents]

/-- Two applications are asked the same of devices with the same answers.
Neither what buffers the message, nor the bytes that a request leaves unused,
nor anything else in the device shows. -/
theorem same_essence_same_observations (hB₁ : B₁.AppendsUpToCapacity)
    (hB₂ : B₂.AppendsUpToCapacity) {start₁ s₁ : System B₁} {start₂ : System B₂}
    (hstart₁ : Starts start₁) (hstart₂ : Starts start₂) {xs : List Entry}
    (run : Run (machine B₁) start₁ xs s₁) {events : List Event}
    (hevents : events.map essence = xs.map fun x => essence x.1) :
    ∃ ys s₂, Run (machine B₂) start₂ ys s₂ ∧ ys.map Prod.fst = events ∧
      ys.map Prod.snd = xs.map Prod.snd ∧ Indistinguishable s₁ s₂ := by
  obtain ⟨ys, s₂, phase, run₂, hfst, hsnd, hrefines₁, hrefines₂⟩ :=
    (bisimulation hB₁).matched (bisimulation hB₂) (refines_of_starts hstart₁)
      (refines_of_starts hstart₂) run hevents
  exact ⟨ys, s₂, run₂, hfst, hsnd,
    indistinguishable_of_refines hB₁ hB₂ hrefines₁ hrefines₂⟩

/-- The sample device with other leftovers on its stack and in expert mode. -/
def otherDevice : Platform :=
  { samplePlatform with
    appModeExpert := true
    uninitPrivateKey := [1, 2, 3]
    uninitPublicKey := Vector.replicate 65 9 }

/-- The request with another P2, another length byte and other bytes behind it. -/
def altered (request : Apdu) : Apdu where
  received := (request.received.set 3 7).set 4 99
  stale := request.stale.map (· ^^^ 0xff)
  nonempty := by simpa using request.nonempty
  size := by simpa using request.size

def otherEvents : List Event :=
  [.apdu otherDevice (altered sampleInit), .apdu otherDevice (altered sampleAdd),
    .apdu otherDevice (altered sampleLast)]

theorem starts_startedInFlash : Starts startedInFlash :=
  ⟨rfl, rfl⟩

theorem same_essence_same_observations_sample :
    ∃ ys s, Run (machine flashOnlyBuffering) startedInFlash ys s ∧
      ys.map Prod.fst = otherEvents ∧
      ys.map Prod.snd = sampleTrace.map Prod.snd := by
  have hevents : otherEvents.map essence =
      sampleTrace.map fun x => essence x.1 := rfl
  obtain ⟨ys, s, run, hfst, hsnd, -⟩ :=
    same_essence_same_observations ramFlashBuffering_appendsUpToCapacity
      flashOnlyBuffering_appendsUpToCapacity starts_started starts_startedInFlash
      run_sampleTrace hevents
  exact ⟨ys, s, run, hfst, hsnd⟩

def relevantEntry (x : Entry) : Bool :=
  relevant (essence x.1, x.2)

/-- Two runs in which the same relevant things happen show the same there, and
lead to applications that cannot be told apart. -/
theorem relevant_entries_decide (hB₁ : B₁.AppendsUpToCapacity)
    (hB₂ : B₂.AppendsUpToCapacity) {start₁ s₁ : System B₁} {start₂ s₂ : System B₂}
    (hstart₁ : Starts start₁) (hstart₂ : Starts start₂) {xs ys : List Entry}
    (run₁ : Run (machine B₁) start₁ xs s₁) (run₂ : Run (machine B₂) start₂ ys s₂)
    (hevents : (xs.filter relevantEntry).map (fun x => essence x.1) =
      (ys.filter relevantEntry).map fun y => essence y.1) :
    (xs.filter relevantEntry).map Prod.snd =
        (ys.filter relevantEntry).map Prod.snd ∧
      Indistinguishable s₁ s₂ := by
  obtain ⟨hobserved, phase, hrefines₁, hrefines₂⟩ :=
    (bisimulation hB₁).kept_agree (bisimulation hB₂) (refines_of_starts hstart₁)
      (refines_of_starts hstart₂) idle_irrelevant run₁ run₂ hevents
  exact ⟨hobserved, indistinguishable_of_refines hB₁ hB₂ hrefines₁ hrefines₂⟩

def sampleVersion : Apdu :=
  .filled [cla, insGetVersion, 0, 0, 0] 0 (by decide)

def afterVersion : System ramFlashBuffering × Observation :=
  answer samplePlatform sampleVersion started

def afterVersionInit : System ramFlashBuffering × Observation :=
  answer samplePlatform sampleInit afterVersion.1

def versionInitTrace : List Entry :=
  [(.apdu samplePlatform sampleVersion, afterVersion.2),
    (.apdu samplePlatform sampleInit, afterVersionInit.2)]

theorem run_versionInitTrace :
    Run (machine ramFlashBuffering) started versionInitTrace afterVersionInit.1 := by
  have hversion := run_snoc_apdu (.nil (s := started)) rfl samplePlatform sampleVersion
  exact run_snoc_apdu hversion (by decide) samplePlatform sampleInit

theorem relevant_entries_decide_sample :
    Indistinguishable afterVersionInit.1 afterSampleInit.1 := by
  have run : Run (machine ramFlashBuffering) started
      [(.apdu samplePlatform sampleInit, afterSampleInit.2)] afterSampleInit.1 :=
    run_snoc_apdu .nil rfl samplePlatform sampleInit
  exact (relevant_entries_decide ramFlashBuffering_appendsUpToCapacity
    ramFlashBuffering_appendsUpToCapacity starts_started starts_started
    run_versionInitTrace run rfl).2

/-- What is irrelevant can be left out of a run. -/
theorem irrelevant_entries_removed (hB : B.AppendsUpToCapacity)
    {start s : System B} (hstart : Starts start) {xs : List Entry}
    (run : Run (machine B) start xs s) :
    ∃ t, Run (machine B) start (xs.filter relevantEntry) t ∧
      Indistinguishable s t := by
  obtain ⟨t, phase, hrun, hrefines, hrefines'⟩ :=
    (bisimulation hB).erase idle_irrelevant (refines_of_starts hstart) run
  exact ⟨t, hrun, indistinguishable_of_refines hB hB hrefines hrefines'⟩

theorem irrelevant_entries_removed_sample :
    ∃ t, Run (machine ramFlashBuffering) started
        [(.apdu samplePlatform sampleInit, afterVersionInit.2)] t ∧
      Indistinguishable afterVersionInit.1 t :=
  irrelevant_entries_removed ramFlashBuffering_appendsUpToCapacity starts_started
    run_versionInitTrace

end Applications

/-- The three ways in which a phase takes a step. -/
theorem Phase.step_cases {phase phase' : Phase} {e : PhaseEvent} {o : Observation}
    (h : Phase.step phase e = some (phase', o)) :
    (∃ device request, e = .request device request ∧ phase.reviewing = false ∧
        (phase', o) = (phase.answer device request).observed) ∨
      (∃ device turn, e = .approve device ∧ phase.approve device = some turn ∧
        (phase', o) = turn.observed) ∨
      (e = .reject ∧ phase.reviewing = true ∧
        (phase', o) = (refuseIn .closed apduCodeCommandNotAllowed).observed) := by
  cases e with
  | request device request =>
      cases hreviewing : phase.reviewing with
      | true =>
          rw [Phase.step, if_pos hreviewing] at h
          cases h
      | false =>
          rw [Phase.step, if_neg (by simp [hreviewing]), Option.some.injEq] at h
          exact .inl ⟨device, request, rfl, rfl, h.symm⟩
  | approve device =>
      rw [Phase.step, Option.map_eq_some_iff] at h
      obtain ⟨turn, happrove, hturn⟩ := h
      exact .inr (.inl ⟨device, turn, rfl, happrove, hturn.symm⟩)
  | reject =>
      cases hreviewing : phase.reviewing with
      | true =>
          rw [Phase.step, if_pos hreviewing, Option.some.injEq] at h
          exact .inr (.inr ⟨rfl, rfl, h.symm⟩)
      | false =>
          rw [Phase.step, if_neg (by simp [hreviewing])] at h
          cases h

theorem signTurn_phase (device : Functionality) (draft : Draft) :
    (signTurn device draft).phase = .closed := by
  unfold signTurn
  split <;> rfl

theorem approve_closes {phase : Phase} {device : Functionality} {turn : Turn}
    (h : phase.approve device = some turn) : turn.phase = .closed := by
  cases phase with
  | closed => cases h
  | collecting draft => cases h
  | reviewingAddress data =>
      cases h
      rfl
  | reviewingMessage draft =>
      cases h
      exact signTurn_phase device draft

/-- An accepted SIGN/INIT leads to the same phase from everywhere. -/
theorem answer_init {phase : Phase} {device : Functionality}
    {payload : List UInt8}
    (h : (phase.answer device (.signInit payload)).observed.2.status =
      some (codeBytes apduCodeOk)) :
    ∃ hpath, (phase.answer device (.signInit payload)).phase =
      .collecting (.start (pathOf payload) hpath) := by
  revert h
  apply whenUnlockedIn_rule (P := fun turn =>
    turn.observed.2.status = some (codeBytes apduCodeOk) →
      ∃ hpath, turn.phase = .collecting (.start (pathOf payload) hpath))
  · intro _ hstatus
    exact absurd hstatus (status_reply_ne (by decide) _ _ _)
  · intro _
    apply pathTurn_rule (P := fun turn =>
      turn.observed.2.status = some (codeBytes apduCodeOk) →
        ∃ hpath, turn.phase = .collecting (.start (pathOf payload) hpath))
    · intro hstatus
      exact absurd hstatus (status_reply_ne (by decide) _ _ _)
    · intro hstatus
      exact absurd hstatus (status_reply_ne (by decide) _ _ _)
    · intro hpath _
      exact ⟨hpath, rfl⟩

theorem acceptedInit_eq_some {x : Entry} {payload : List UInt8}
    (h : acceptedInit x = some payload) :
    ∃ platform request, x.1 = .apdu platform request ∧
      decode request.received = .signInit payload ∧ Accepted x := by
  obtain ⟨e, o⟩ := x
  cases e with
  | apdu platform request =>
      unfold acceptedInit requestOf at h
      split at h
      · rename_i hrequest
        split at h
        · rename_i haccepted
          cases h
          exact ⟨platform, request, rfl, Option.some.inj hrequest, haccepted⟩
        · cases h
      · cases h
  | approve platform => cases h
  | reject => cases h

section Applications

variable {B B₁ B₂ : Buffering}

theorem run_refines (hB : B.AppendsUpToCapacity) {start s : System B}
    (hstart : Starts start) {trace : List Entry}
    (run : Run (machine B) start trace s) : ∃ phase, Refines s phase := by
  obtain ⟨phase, -, hrefines⟩ :=
    (bisimulation hB).simulation.run (refines_of_starts hstart) run
  exact ⟨phase, hrefines⟩

/-- The last step of a run, as a step of the phases. -/
theorem last_step_refines (hB : B.AppendsUpToCapacity) {start s : System B}
    (hstart : Starts start) {trace : List Entry} {x : Entry}
    (run : Run (machine B) start (trace ++ [x]) s) :
    ∃ phase phase', Phase.step phase (essence x.1) = some (phase', x.2) ∧
      Refines s phase' := by
  obtain ⟨t, hrun, hstep⟩ := run_snoc_iff.mp run
  obtain ⟨phase, hrefines⟩ := run_refines hB hstart hrun
  obtain ⟨phase', hstep', hrefines'⟩ :=
    (bisimulation hB).simulation.step hrefines hstep
  exact ⟨phase, phase', hstep', hrefines'⟩

theorem init_refines (hB : B.AppendsUpToCapacity) {start s : System B}
    (hstart : Starts start) {trace : List Entry} {x : Entry}
    (run : Run (machine B) start (trace ++ [x]) s) {payload : List UInt8}
    (hinit : acceptedInit x = some payload) :
    ∃ hpath, Refines s (.collecting (.start (pathOf payload) hpath)) := by
  obtain ⟨platform, request, hevent, hrequest, haccepted⟩ := acceptedInit_eq_some hinit
  obtain ⟨phase, phase', hstep, hrefines⟩ := last_step_refines hB hstart run
  rw [hevent, essence, hrequest] at hstep
  rcases Phase.step_cases hstep with
    ⟨device, _, hsame, -, hturn⟩ | ⟨_, _, ⟨⟩, -⟩ | ⟨⟨⟩, -⟩
  cases hsame
  obtain ⟨rfl, hobserved⟩ := Prod.mk.inj hturn
  rw [Accepted, hobserved] at haccepted
  obtain ⟨hpath, hphase⟩ := answer_init haccepted
  exact ⟨hpath, hphase ▸ hrefines⟩

/-- After an accepted SIGN/INIT only its path matters, whatever came before. -/
theorem sessions_start_afresh (hB₁ : B₁.AppendsUpToCapacity)
    (hB₂ : B₂.AppendsUpToCapacity) {start₁ s₁ : System B₁} {start₂ s₂ : System B₂}
    (hstart₁ : Starts start₁) (hstart₂ : Starts start₂) {xs ys : List Entry}
    {x y : Entry} (run₁ : Run (machine B₁) start₁ (xs ++ [x]) s₁)
    (run₂ : Run (machine B₂) start₂ (ys ++ [y]) s₂) {payload₁ payload₂ : List UInt8}
    (hinit₁ : acceptedInit x = some payload₁)
    (hinit₂ : acceptedInit y = some payload₂)
    (hpath : pathOf payload₁ = pathOf payload₂) : Indistinguishable s₁ s₂ := by
  obtain ⟨_, hrefines₁⟩ := init_refines hB₁ hstart₁ run₁ hinit₁
  obtain ⟨_, hrefines₂⟩ := init_refines hB₂ hstart₂ run₂ hinit₂
  simp only [hpath] at hrefines₁
  exact indistinguishable_of_refines hB₁ hB₂ hrefines₁ hrefines₂

theorem sessions_start_afresh_sample :
    Indistinguishable afterVersionInit.1 afterSampleInit.1 := by
  have run : Run (machine ramFlashBuffering) started
      ([] ++ [(.apdu samplePlatform sampleInit, afterSampleInit.2)])
      afterSampleInit.1 :=
    run_snoc_apdu .nil rfl samplePlatform sampleInit
  have run' : Run (machine ramFlashBuffering) started
      ([(.apdu samplePlatform sampleVersion, afterVersion.2)] ++
        [(.apdu samplePlatform sampleInit, afterVersionInit.2)])
      afterVersionInit.1 :=
    run_versionInitTrace
  have hinit : acceptedInit (.apdu samplePlatform sampleInit, afterSampleInit.2) =
      some (coinPath 1 true) := by decide +kernel
  have hinit' : acceptedInit (.apdu samplePlatform sampleInit, afterVersionInit.2) =
      some (coinPath 1 true) := by decide +kernel
  exact sessions_start_afresh ramFlashBuffering_appendsUpToCapacity
    ramFlashBuffering_appendsUpToCapacity starts_started starts_started
    run' run hinit' hinit rfl

/-- A decided review leaves an application like one that has just started. -/
theorem reviews_end_afresh (hB₁ : B₁.AppendsUpToCapacity)
    (hB₂ : B₂.AppendsUpToCapacity) {start₁ s : System B₁} {start₂ : System B₂}
    (hstart₁ : Starts start₁) (hstart₂ : Starts start₂) {trace : List Entry}
    {x : Entry} (run : Run (machine B₁) start₁ (trace ++ [x]) s)
    (hdecided : requestOf x.1 = none) : Indistinguishable s start₂ := by
  obtain ⟨phase, phase', hstep, hrefines⟩ := last_step_refines hB₁ hstart₁ run
  have hclosed : phase' = .closed := by
    rcases Phase.step_cases hstep with
      ⟨device, request, hevent, -⟩ | ⟨device, turn, -, happrove, hturn⟩ |
        ⟨-, -, hturn⟩
    · obtain ⟨e, o⟩ := x
      cases e with
      | apdu platform request => cases hdecided
      | approve platform => cases hevent
      | reject => cases hevent
    · rw [(Prod.mk.inj hturn).1]
      exact approve_closes happrove
    · exact (Prod.mk.inj hturn).1
  rw [hclosed] at hrefines
  exact indistinguishable_of_refines hB₁ hB₂ hrefines (refines_of_starts hstart₂)

theorem reviews_end_afresh_sample :
    Indistinguishable afterSampleApproval.1 startedInFlash :=
  reviews_end_afresh ramFlashBuffering_appendsUpToCapacity
    flashOnlyBuffering_appendsUpToCapacity starts_started starts_startedInFlash
    (run_sampleTrace.snoc step_sampleApproval) rfl

end Applications

end LedgerSovereign.ObservableBehaviour
