import LedgerSovereign.SessionGuarantees

namespace LedgerSovereign.PhaseDistinction

open LedgerSovereign.BufferingInterface
open LedgerSovereign.Constants
open LedgerSovereign.CryptoOutcomes
open LedgerSovereign.DeviceProtocol
open LedgerSovereign.HostSession
open LedgerSovereign.MachineBisimulation
open LedgerSovereign.ObservableBehaviour
open LedgerSovereign.PlatformInterface
open LedgerSovereign.RequestSemantics
open LedgerSovereign.SampleDevice
open LedgerSovereign.SessionGuarantees
open LedgerSovereign.SessionHistory
open LedgerSovereign.SessionPhases
open LedgerSovereign.SigningIntegrity
open LedgerSovereign.TransitionRuns

theorem signCalls_inj {path path' : HdPath} {message message' : List UInt8}
    (h : signCalls path message = signCalls path' message') :
    path = path' ∧ message = message' := by
  simp only [signCalls, List.cons.injEq, Call.cryptoSign.injEq] at h
  exact h.1

theorem signTurn_calls (device : Functionality) (draft : Draft) :
    (signTurn device draft).calls = signCalls draft.path draft.message := by
  unfold signTurn
  split <;> rfl

theorem draft_of_add {draft draft' taken : Draft} {payload : List UInt8}
    (h : draft.add payload = some taken) (h' : draft'.add payload = some taken) :
    draft = draft' := by
  unfold Draft.add at h h'
  split at h
  · split at h'
    · cases h
      rw [Option.some.injEq, Draft.mk.injEq] at h'
      exact draft_eq h'.1.symm (List.append_cancel_right h'.2).symm
    · cases h'
  · cases h

section Distinctions

variable {draft draft' : Draft} {phase phase' : Phase}

def askApproval : Event :=
  .approve samplePlatform

/-- A chunk for the sample device. -/
def sendChunk (p1 : UInt8) (payload : List UInt8) (h : payload.length ≤ 255) : Event :=
  .apdu samplePlatform (.command insSign p1 payload h)

theorem essence_sendLast {payload : List UInt8} (h : payload.length ≤ 255) :
    essence (sendChunk p1Last payload h) =
      .request (functionality samplePlatform) (.signLast payload) :=
  rfl

theorem approval_calls {o : Observation}
    (h : phases.step (.reviewingMessage draft) (essence askApproval) = some (phase, o)) :
    o.calls = signCalls draft.path draft.message := by
  change some (signTurn (functionality samplePlatform) draft).observed = _ at h
  rw [Option.some.injEq, Turn.observed, Prod.mk.injEq] at h
  rw [← h.2, calls_observation, signTurn_calls]

/-- Of a SIGN/LAST only the one draft is reviewed that its chunk completes. -/
theorem add_of_step_last {payload : List UInt8} {taken : Draft} {o : Observation}
    (h : phases.step (.collecting draft)
      (.request (functionality samplePlatform) (.signLast payload)) =
        some (.reviewingMessage taken, o)) : draft.add payload = some taken := by
  change some (Phase.answer (.collecting draft) _ _).observed = _ at h
  rw [Phase.answer, answer_unlocked rfl, chunkTurn, Option.some.injEq, Turn.observed,
    Prod.mk.injEq] at h
  have hphase := h.1
  split at hphase
  · rename_i draft' hadd
    rw [hadd]
    change (lastTurn draft').phase = _ at hphase
    unfold lastTurn at hphase
    split at hphase
    · cases hphase
    · cases hphase
      rfl
  · cases hphase

theorem collecting_of_alike (h : Alike phases essence (.collecting draft) phase) :
    ∃ draft', phase = .collecting draft' := by
  have hadd : draft.add [] = some draft := by
    simp [Draft.add, draft.fits]
  have hcollects : phases.step (.collecting draft)
      (essence (sendChunk p1Add [] (Nat.zero_le _))) = some (.collecting draft,
        Response.observation (chunkCalls []) (.reply [] apduCodeOk)) := by
    change some (Turn.observed (chunkTurn (.collecting draft) [] _)) = _
    rw [chunkTurn, hadd]
    rfl
  obtain ⟨phase₁, hstep, -⟩ := h.step hcollects
  cases phase with
  | closed =>
      have hcalls := congrArg (Option.map fun x => x.2.calls) hstep
      cases hcalls
  | collecting draft' => exact ⟨draft', rfl⟩
  | reviewingAddress data => cases hstep
  | reviewingMessage draft' => cases hstep

theorem reviewingAddress_of_alike {data : List UInt8}
    (h : Alike phases essence (.reviewingAddress data) phase) :
    phase = .reviewingAddress data := by
  obtain ⟨phase₁, hstep, -⟩ := h.step (e := askApproval) rfl
  cases phase with
  | closed => cases hstep
  | collecting draft => cases hstep
  | reviewingAddress data' =>
      change some (Phase.closed, Response.observation [] (.reply data' apduCodeOk)) =
        some (phase₁, Response.observation [] (.reply data apduCodeOk)) at hstep
      rw [Option.some.injEq, Prod.mk.injEq] at hstep
      have hreply := congrArg Observation.replyBytes hstep.2
      rw [replyBytes_observation, replyBytes_observation, Option.some.injEq] at hreply
      rw [List.append_cancel_right hreply]
  | reviewingMessage draft' =>
      have hcalls := approval_calls hstep
      cases hcalls

theorem reviewingMessage_of_alike
    (h : Alike phases essence (.reviewingMessage draft) phase) :
    phase = .reviewingMessage draft := by
  obtain ⟨phase₁, hstep, -⟩ := h.step (e := askApproval) rfl
  cases phase with
  | closed => cases hstep
  | collecting draft => cases hstep
  | reviewingAddress data => cases reviewingAddress_of_alike h.symm
  | reviewingMessage draft' =>
      have hcalls := approval_calls hstep
      rw [calls_observation, signTurn_calls] at hcalls
      obtain ⟨hpath, hmessage⟩ := signCalls_inj hcalls
      rw [draft_eq hpath hmessage]

/-- A chunk that makes a message of the draft tells it from all others. -/
theorem draft_of_alike (h : Alike phases essence (.collecting draft) (.collecting draft'))
    (payload : List UInt8) (hlength : payload.length ≤ 255)
    (hnonempty : draft.message ++ payload ≠ [])
    (hfits : (draft.message ++ payload).length ≤ flashBufferSize) : draft = draft' := by
  have hunlocked : (functionality samplePlatform).unlocked = true := rfl
  obtain ⟨o, hlast⟩ := step_last hunlocked hnonempty hfits
  rw [← essence_sendLast hlength] at hlast
  obtain ⟨phase, hstep, halike⟩ := h.step hlast
  obtain rfl := reviewingMessage_of_alike halike
  exact draft_of_add (add_of_step_last hlast) (add_of_step_last hstep)

theorem phase_of_alike (h : Alike phases essence phase phase') : phase' = phase := by
  cases phase with
  | closed =>
      cases phase' with
      | closed => rfl
      | collecting draft =>
          obtain ⟨draft', hphase⟩ := collecting_of_alike h.symm
          cases hphase
      | reviewingAddress data => cases reviewingAddress_of_alike h.symm
      | reviewingMessage draft => cases reviewingMessage_of_alike h.symm
  | collecting draft =>
      obtain ⟨draft', rfl⟩ := collecting_of_alike h
      by_cases hmessage : draft.message = []
      · have hfits : (draft.message ++ [1]).length ≤ flashBufferSize := by
          rw [hmessage]
          decide
        rw [draft_of_alike h [1] (by decide) (by simp) hfits]
      · have hfits : (draft.message ++ []).length ≤ flashBufferSize := by
          rw [List.append_nil]
          exact draft.fits
        rw [draft_of_alike h [] (by decide) (by simpa) hfits]
  | reviewingAddress data => exact reviewingAddress_of_alike h
  | reviewingMessage draft => exact reviewingMessage_of_alike h

end Distinctions

variable {B₁ B₂ : Buffering}

/-- Two runs lead to applications that cannot be told apart if and only if the phases
come to the same state after them. -/
theorem indistinguishable_iff_same_phase (hB₁ : B₁.AppendsUpToCapacity)
    (hB₂ : B₂.AppendsUpToCapacity) {start₁ s₁ : System B₁} {start₂ s₂ : System B₂}
    (hstart₁ : Starts start₁) (hstart₂ : Starts start₂) {xs ys : List Entry}
    (run₁ : Run (machine B₁) start₁ xs s₁) (run₂ : Run (machine B₂) start₂ ys s₂) :
    Indistinguishable s₁ s₂ ↔
      ∃ phase, Run phases .closed (xs.map (Prod.map essence id)) phase ∧
        Run phases .closed (ys.map (Prod.map essence id)) phase := by
  obtain ⟨phase₁, hrun₁, hrefines₁⟩ :=
    (bisimulation hB₁).simulation.run (refines_of_starts hstart₁) run₁
  obtain ⟨phase₂, hrun₂, hrefines₂⟩ :=
    (bisimulation hB₂).simulation.run (refines_of_starts hstart₂) run₂
  constructor
  · intro hsame
    have halike := (bisimulation hB₁).alike (bisimulation hB₂) hrefines₁ hrefines₂
      fun trace => hsame trace trace rfl
    obtain rfl := phase_of_alike halike
    exact ⟨_, hrun₁, hrun₂⟩
  · rintro ⟨phase, hrun₁', hrun₂'⟩
    obtain ⟨-, rfl⟩ := hrun₁.deterministic hrun₁' rfl
    obtain ⟨-, rfl⟩ := hrun₂.deterministic hrun₂' rfl
    exact indistinguishable_of_refines hB₁ hB₂ hrefines₁ hrefines₂

theorem indistinguishable_iff_same_phase_sample :
    ¬ Indistinguishable started afterSampleInit.1 := by
  have run : Run (machine ramFlashBuffering) started
      [(.apdu samplePlatform sampleInit, afterSampleInit.2)] afterSampleInit.1 :=
    run_snoc_apdu .nil rfl samplePlatform sampleInit
  intro hsame
  obtain ⟨phase, hnil, hinit⟩ := (indistinguishable_iff_same_phase
    ramFlashBuffering_appendsUpToCapacity ramFlashBuffering_appendsUpToCapacity
    starts_started starts_started .nil run).mp hsame
  obtain rfl := run_nil_iff.mp hnil
  obtain ⟨t, hstep, hrest⟩ := run_cons_iff.mp hinit
  obtain rfl := run_nil_iff.mp hrest
  cases hstep

end LedgerSovereign.PhaseDistinction
