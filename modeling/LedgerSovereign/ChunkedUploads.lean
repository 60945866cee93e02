import LedgerSovereign.DisplayedText
import LedgerSovereign.ObservableBehaviour

namespace LedgerSovereign.ChunkedUploads

open LedgerSovereign.ApplicationState
open LedgerSovereign.BufferingInterface
open LedgerSovereign.Constants
open LedgerSovereign.DeviceProtocol
open LedgerSovereign.DisplayedText
open LedgerSovereign.HostSession
open LedgerSovereign.ObservableBehaviour
open LedgerSovereign.RequestSemantics
open LedgerSovereign.SampleDevice
open LedgerSovereign.SessionHistory
open LedgerSovereign.SessionPhases
open LedgerSovereign.SigningIntegrity
open LedgerSovereign.SigningSessions
open LedgerSovereign.TransitionRuns

section Traces

/-- The last entry without a property splits a list in one way. -/
theorem splits_agree {α : Type} {q : α → Prop} {xs ys xs' ys' : List α} {x x' : α}
    (h : xs ++ x :: ys = xs' ++ x' :: ys') (hx : ¬ q x) (hx' : ¬ q x')
    (hys : ∀ a ∈ ys, q a) (hys' : ∀ a ∈ ys', q a) : x = x' ∧ ys = ys' := by
  rcases List.append_eq_append_iff.mp h with ⟨between, -, hrest⟩ | ⟨between, -, hrest⟩
  · cases between with
    | nil => exact List.cons.inj hrest
    | cons a between =>
        obtain ⟨-, rfl⟩ := List.cons.inj hrest
        exact absurd (hys x' (by simp)) hx'
  · cases between with
    | nil =>
        obtain ⟨rfl, rfl⟩ := List.cons.inj hrest
        exact ⟨rfl, rfl⟩
    | cons a between =>
        obtain ⟨-, rfl⟩ := List.cons.inj hrest
        exact absurd (hys' x (by simp)) hx

/-- The last accepted SIGN/INIT of a trace is the one that opened the session. -/
theorem drafted_unique {trace : List Entry} {initPayload initPayload' : List UInt8}
    {message message' : List UInt8} (h : Drafted trace initPayload message)
    (h' : Drafted trace initPayload' message') :
    initPayload = initPayload' ∧ message = message' := by
  obtain ⟨earlier, init, middle, rfl, hinit, hmiddle, rfl⟩ := h
  obtain ⟨earlier', init', middle', htrace, hinit', hmiddle', rfl⟩ := h'
  obtain ⟨rfl, rfl⟩ := splits_agree (q := fun x => acceptedInit x = none) htrace
    (by simp [hinit]) (by simp [hinit']) (fun x hx => (hmiddle x hx).1)
    (fun x hx => (hmiddle' x hx).1)
  rw [hinit, Option.some.injEq] at hinit'
  exact ⟨hinit', rfl⟩

theorem sent_unique {trace : List Entry} {initPayload initPayload' : List UInt8}
    {bytes bytes' : List UInt8} (h : Sent trace initPayload bytes)
    (h' : Sent trace initPayload' bytes') :
    initPayload = initPayload' ∧ bytes = bytes' := by
  obtain ⟨earlier, last, lastPayload, message, rfl, hlast, hdrafted, rfl⟩ := h
  obtain ⟨earlier', last', lastPayload', message', htrace, hlast', hdrafted', rfl⟩ := h'
  obtain ⟨rfl, hentry⟩ := List.append_inj' htrace rfl
  obtain rfl : last = last' := by simpa using hentry
  obtain ⟨rfl, rfl⟩ := drafted_unique hdrafted hdrafted'
  rw [hlast, Option.some.injEq] at hlast'
  exact ⟨rfl, by rw [hlast']⟩

end Traces

variable {B B₁ B₂ : Buffering}

/-- A review that an entry opens of a message is the one that waits. -/
theorem pending_of_opened {d d' : Device B} {e : Event} {o : Observation}
    (hstep : Device.step d (visible e) = some (d', o))
    (hopened : o.opened = some messageView) : d'.pending = some .message := by
  have hresponse : ∀ (calls : List PlatformInterface.Call) (response : Response),
      (Response.observation calls response).opened = some messageView →
        Response.pending response = some .message := by
    intro calls response hview
    cases response with
    | reply data code => cases hview
    | addressReview data => cases hview
    | messageReview => rfl
    | silence => cases hview
  rcases d.step_cases hstep with
    ⟨platform, request, -, -, hresult⟩ | ⟨platform, p, -, -, hresult⟩ |
      ⟨p, -, -, hresult⟩
  · cases hresult
    exact hresponse _ _ hopened
  · cases hresult
    exact hresponse _ _ hopened
  · cases hresult
    exact hresponse _ _ hopened

theorem step_inPhase (hB : B.AppendsUpToCapacity) {d d' : Device B} {phase : Phase}
    {e : Event} {o : Observation} (h : InPhase d.session d.pending phase)
    (hstep : Device.step d (visible e) = some (d', o)) :
    ∃ phase', InPhase d'.session d'.pending phase' := by
  rcases protocol_bisimilar hB h e with ⟨hnone, -⟩ | ⟨_, phase', _, hstep', -, hphase'⟩
  · rw [hstep] at hnone
    cases hnone
  · rw [hstep, Option.some.injEq, Prod.mk.injEq] at hstep'
    obtain ⟨rfl, -⟩ := hstep'
    exact ⟨phase', hphase'⟩

/-- What a trace tells about the device, and the phase that the device is in. -/
structure Follows (trace : List Entry) (d : Device B) : Prop where
  tracks : Tracks trace d
  phase : ∃ phase, InPhase d.session d.pending phase

theorem step_follows (hB : B.AppendsUpToCapacity) {trace : List Entry}
    {d d' : Device B} {e : Event} {o : Observation} (h : Follows trace d)
    (hstep : Device.step d (visible e) = some (d', o)) :
    Follows (trace ++ [(e, o)]) d' where
  tracks := step_tracks hB.toAppendsOrRefuses h.tracks hstep
  phase := by
    obtain ⟨phase, hphase⟩ := h.phase
    exact step_inPhase hB hphase hstep

theorem run_follows (hB : B.AppendsUpToCapacity) {start s : System B}
    (hstart : Starts start) {trace : List Entry}
    (run : Run (machine B) start trace s) :
    ∃ d, Implements s d ∧ Follows trace d := by
  apply (simulation B).invariant Follows (implements_of_idle hstart.1) _ _ run
  · constructor
    · constructor
      · intro hopen
        change start.app.txInitialized = true at hopen
        rw [hstart.2] at hopen
        cases hopen
      · rintro ⟨⟩
    · exact ⟨.closed, .closed hstart.2⟩
  · intro trace d e o d' hfollows hstep
    exact step_follows hB hfollows hstep

/-- The last step of a run, on the device. -/
theorem last_step_follows (hB : B.AppendsUpToCapacity) {start s : System B}
    (hstart : Starts start) {trace : List Entry} {x : Entry}
    (run : Run (machine B) start (trace ++ [x]) s) :
    ∃ d d', Device.step d (visible x.1) = some (d', x.2) ∧ Implements s d' ∧
      Follows (trace ++ [x]) d' := by
  obtain ⟨t, hrun, hstep⟩ := run_snoc_iff.mp run
  obtain ⟨d, himplements, hfollows⟩ := run_follows hB hstart hrun
  obtain ⟨d', hstep', himplements'⟩ := (simulation B).step himplements hstep
  exact ⟨d, d', hstep', himplements', step_follows hB hfollows hstep'⟩

/-- While a session is open, the phase is made of the path and the accepted bytes. -/
theorem drafted_refines (hB : B.AppendsUpToCapacity) {start s : System B}
    (hstart : Starts start) {trace : List Entry}
    (run : Run (machine B) start trace s) {initPayload bytes : List UInt8}
    (h : Drafted trace initPayload bytes) (hopen : s.app.txInitialized = true) :
    ∃ draft : Draft, Refines s (.collecting draft) ∧ draft.path = pathOf initPayload ∧
      draft.message = bytes := by
  obtain ⟨d, himplements, hfollows⟩ := run_follows hB hstart run
  have hopen' : d.session.txInitialized = true := by
    rw [← himplements.session]
    exact hopen
  obtain ⟨initPayload', message, hdrafted, hholds⟩ := hfollows.tracks.drafted hopen'
  obtain ⟨rfl, rfl⟩ := drafted_unique h hdrafted
  obtain ⟨phase, hphase⟩ := hfollows.phase
  have hrefines : Refines s phase := ⟨d, himplements, hphase⟩
  generalize d.pending = pending at hphase
  cases hphase with
  | closed hclosed => simp [hclosed] at hopen'
  | @collecting draft _ hkeeps =>
      exact ⟨draft, hrefines, hkeeps.path.symm.trans hholds.path,
        hkeeps.content.symm.trans hholds.content⟩
  | reviewingAddress hclosed => simp [hclosed] at hopen'
  | reviewingMessage hclosed _ => simp [hclosed] at hopen'

theorem sent_refines (hB : B.AppendsUpToCapacity) {start s : System B}
    (hstart : Starts start) {trace : List Entry}
    (run : Run (machine B) start trace s) {initPayload bytes : List UInt8}
    (h : Sent trace initPayload bytes) :
    ∃ draft : Draft, Refines s (.reviewingMessage draft) ∧
      draft.path = pathOf initPayload ∧ draft.message = bytes := by
  obtain ⟨earlier, last, lastPayload, message, rfl, hlast, hrest⟩ := h
  obtain ⟨d, d', hstep, himplements, hfollows⟩ := last_step_follows hB hstart run
  have hpending := pending_of_opened hstep (opened_of_reviewedLast hlast)
  obtain ⟨earlier', last', lastPayload', initPayload', message', htrace, hlast',
    hdrafted', hholds⟩ := hfollows.tracks.reviewed hpending
  obtain ⟨rfl, rfl⟩ := sent_unique ⟨earlier, last, lastPayload, message, rfl, hlast, hrest⟩
    ⟨earlier', last', lastPayload', message', htrace, hlast', hdrafted', rfl⟩
  obtain ⟨phase, hphase⟩ := hfollows.phase
  have hrefines : Refines s phase := ⟨d', himplements, hphase⟩
  rw [hpending] at hphase
  cases hphase with
  | @reviewingMessage draft _ hkeeps =>
      exact ⟨draft, hrefines, hkeeps.path.symm.trans hholds.path,
        hkeeps.content.symm.trans hholds.content⟩

/-- The draft of a phase is known from its path and its message. -/
theorem indistinguishable_of_drafts (hB₁ : B₁.AppendsUpToCapacity)
    (hB₂ : B₂.AppendsUpToCapacity) {s₁ : System B₁} {s₂ : System B₂}
    (phaseOf : Draft → Phase) {path : PlatformInterface.HdPath}
    {bytes : List UInt8}
    (h₁ : ∃ draft, Refines s₁ (phaseOf draft) ∧ draft.path = path ∧
      draft.message = bytes)
    (h₂ : ∃ draft, Refines s₂ (phaseOf draft) ∧ draft.path = path ∧
      draft.message = bytes) : Indistinguishable s₁ s₂ := by
  obtain ⟨draft₁, hrefines₁, hpath₁, hmessage₁⟩ := h₁
  obtain ⟨draft₂, hrefines₂, hpath₂, hmessage₂⟩ := h₂
  obtain rfl : draft₁ = draft₂ :=
    draft_eq (hpath₁.trans hpath₂.symm) (hmessage₁.trans hmessage₂.symm)
  exact indistinguishable_of_refines hB₁ hB₂ hrefines₁ hrefines₂

/-- Two runs that come to the same path and the same accepted bytes, with a session
open or with a review, in chunks of any sizes and with anything else in between or
behind: nothing that follows tells the two applications apart. -/
theorem accepted_bytes_decide (hB₁ : B₁.AppendsUpToCapacity)
    (hB₂ : B₂.AppendsUpToCapacity) {start₁ s₁ : System B₁} {start₂ s₂ : System B₂}
    (hstart₁ : Starts start₁) (hstart₂ : Starts start₂) {xs ys : List Entry}
    (run₁ : Run (machine B₁) start₁ xs s₁) (run₂ : Run (machine B₂) start₂ ys s₂)
    {initPayload₁ initPayload₂ : List UInt8}
    (hpath : pathOf initPayload₁ = pathOf initPayload₂) (bytes : List UInt8) :
    (Drafted xs initPayload₁ bytes → s₁.app.txInitialized = true →
      Drafted ys initPayload₂ bytes → s₂.app.txInitialized = true →
      Indistinguishable s₁ s₂) ∧
    (Sent xs initPayload₁ bytes → Sent ys initPayload₂ bytes →
      Indistinguishable s₁ s₂) := by
  constructor
  · intro hxs hopen₁ hys hopen₂
    have hcollecting := drafted_refines hB₁ hstart₁ run₁ hxs hopen₁
    rw [hpath] at hcollecting
    exact indistinguishable_of_drafts hB₁ hB₂ .collecting hcollecting
      (drafted_refines hB₂ hstart₂ run₂ hys hopen₂)
  · intro hxs hys
    have hreviewing := sent_refines hB₁ hstart₁ run₁ hxs
    rw [hpath] at hreviewing
    exact indistinguishable_of_drafts hB₁ hB₂ .reviewingMessage hreviewing
      (sent_refines hB₂ hstart₂ run₂ hys)

/-- The bytes of the sample message in one chunk. -/
def wholeLast : Apdu :=
  .command insSign p1Last [0xbc, 0xcd] (by decide)

def afterWholeInit : System flashOnlyBuffering × Observation :=
  answer otherDevice sampleInit startedInFlash

def afterWholeVersion : System flashOnlyBuffering × Observation :=
  answer otherDevice sampleVersion afterWholeInit.1

def afterWholeLast : System flashOnlyBuffering × Observation :=
  answer otherDevice wholeLast afterWholeVersion.1

def versionTrace : List Entry :=
  [(.apdu otherDevice sampleInit, afterWholeInit.2),
    (.apdu otherDevice sampleVersion, afterWholeVersion.2)]

theorem run_versionTrace :
    Run (machine flashOnlyBuffering) startedInFlash versionTrace
      afterWholeVersion.1 := by
  have hinit := run_snoc_apdu (.nil (s := startedInFlash)) rfl otherDevice sampleInit
  exact run_snoc_apdu hinit (by decide) otherDevice sampleVersion

theorem drafted_versionTrace : Drafted versionTrace (coinPath 1 true) [] := by
  refine ⟨[], _, [_], rfl, ?_, ?_, ?_⟩
  · decide +kernel
  · decide +kernel
  · decide +kernel

/-- Before any chunk, and with the whole message on the screen. -/
theorem accepted_bytes_decide_sample :
    Indistinguishable afterSampleInit.1 afterWholeVersion.1 ∧
      Indistinguishable afterSampleLast.1 afterWholeLast.1 := by
  have runInit : Run (machine ramFlashBuffering) started
      [(.apdu samplePlatform sampleInit, afterSampleInit.2)] afterSampleInit.1 :=
    run_snoc_apdu .nil rfl samplePlatform sampleInit
  have runLast : Run (machine flashOnlyBuffering) startedInFlash
      (versionTrace ++ [(.apdu otherDevice wholeLast, afterWholeLast.2)])
      afterWholeLast.1 :=
    run_snoc_apdu run_versionTrace (by decide) otherDevice wholeLast
  constructor
  · have hinit : Drafted [(.apdu samplePlatform sampleInit, afterSampleInit.2)]
        (coinPath 1 true) [] := by
      refine ⟨[], _, [], rfl, ?_, ?_, rfl⟩
      · decide +kernel
      · rintro _ ⟨⟩
    exact (accepted_bytes_decide ramFlashBuffering_appendsUpToCapacity
      flashOnlyBuffering_appendsUpToCapacity starts_started starts_startedInFlash
      runInit run_versionTrace rfl []).1 hinit (by decide) drafted_versionTrace
      (by decide)
  · have hcut : Sent sampleTrace (coinPath 1 true) [0xbc, 0xcd] := by
      refine ⟨[_, _], _, [0xcd], [0xbc], rfl, ?_, ⟨[], _, [_], rfl, ?_, ?_, ?_⟩, rfl⟩
      · decide +kernel
      · decide +kernel
      · decide +kernel
      · decide +kernel
    have hwhole : Sent
        (versionTrace ++ [(.apdu otherDevice wholeLast, afterWholeLast.2)])
        (coinPath 1 true) [0xbc, 0xcd] := by
      refine ⟨_, _, [0xbc, 0xcd], [], rfl, ?_, drafted_versionTrace, rfl⟩
      decide +kernel
    exact (accepted_bytes_decide ramFlashBuffering_appendsUpToCapacity
      flashOnlyBuffering_appendsUpToCapacity starts_started starts_startedInFlash
      run_sampleTrace runLast rfl [0xbc, 0xcd]).2 hcut hwhole

end LedgerSovereign.ChunkedUploads
