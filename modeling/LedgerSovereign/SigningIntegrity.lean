import LedgerSovereign.SampleDevice
import LedgerSovereign.SessionHistory

namespace LedgerSovereign.SigningIntegrity

open LedgerSovereign.ApplicationState
open LedgerSovereign.BufferingInterface
open LedgerSovereign.Constants
open LedgerSovereign.CryptoOutcomes
open LedgerSovereign.DeviceProtocol
open LedgerSovereign.HostSession
open LedgerSovereign.PlatformInterface
open LedgerSovereign.RequestSemantics
open LedgerSovereign.SampleDevice
open LedgerSovereign.SessionHistory
open LedgerSovereign.SigningSessions
open LedgerSovereign.TransitionRuns

variable {B : Buffering}

theorem serve_signs_nothing (platform : Platform) (s : Session B)
    (request : Request) (path : HdPath) (message : List UInt8) :
    Call.cryptoSign path message ∉ (serve platform s request).calls := by
  have hchange := serve_change platform s request
  generalize serve platform s request = served at hchange
  cases hchange with
  | kept _ => exact List.not_mem_nil
  | opened _ _ _ => simp [pathCalls, payloadLength]
  | appended _ _ _ => simp [chunkCalls, payloadLength]
  | shown _ _ _ _ => simp [chunkCalls, payloadLength]
  | closed _ _ h => exact h path message

theorem serveSignature_calls (platform : Platform) (s : Session B) :
    (serveSignature platform s).calls = signCalls s.hdPath (signedMessage s) := by
  unfold serveSignature
  split <;> rfl

theorem step_signs {d d' : Device B} {e : Event} {o : Observation}
    (hstep : Device.step d (visible e) = some (d', o)) {path : HdPath}
    {message : List UInt8} (hsign : Call.cryptoSign path message ∈ o.calls) :
    (∃ platform, e = .approve platform) ∧ d.pending = some .message ∧
      o.calls = signCalls path message ∧ path = d.session.hdPath ∧
      message = signedMessage d.session := by
  rcases d.step_cases hstep with
    ⟨platform, request, rfl, -, hresult⟩ | ⟨platform, p, rfl, hp, hresult⟩ |
      ⟨p, rfl, -, hresult⟩
  · cases hresult
    rw [calls_observation] at hsign
    exact absurd hsign (serve_signs_nothing platform d.session _ path message)
  · cases hresult
    rw [calls_observation] at hsign ⊢
    cases p with
    | address data => cases hsign
    | message =>
        rw [serveApproval, serveSignature_calls] at hsign ⊢
        simp only [signCalls, List.mem_cons, Call.cryptoSign.injEq, List.not_mem_nil,
          reduceCtorEq, or_false] at hsign
        obtain ⟨rfl, rfl⟩ := hsign
        exact ⟨⟨platform, rfl⟩, hp, rfl, rfl, rfl⟩
  · cases hresult
    cases hsign

/-- Take any entry of a run that starts with no session open.  What it signs,
it signs once, as an approval of the review that the SIGN/LAST before it opened;
the path and the message are those accepted in that session.  What comes behind
the review of an address signs nothing. -/
theorem signature_covers_accepted_session (hB : B.AppendsOrRefuses)
    {start s : System B} (hstart : Starts start) {before after : List Entry}
    {e : Event} {o : Observation}
    (run : Run (machine B) start (before ++ (e, o) :: after) s) :
    (∀ path message, Call.cryptoSign path message ∈ o.calls →
      (∃ platform, e = .approve platform) ∧
      o.calls = [.cryptoSign path message, .osDeriveBip32WithSeedNoThrow path] ∧
      ∃ earlier init middle last initPayload lastPayload,
        before = earlier ++ init :: middle ++ [last] ∧
        acceptedInit init = some initPayload ∧
        (∀ x ∈ middle, acceptedInit x = none ∧ reviewedLast x = none) ∧
        reviewedLast last = some lastPayload ∧
        path = pathOf initPayload ∧
        message = middle.flatMap acceptedAdd ++ lastPayload) ∧
    (∀ earlier x, before = earlier ++ [x] → x.2.opened = some addressView →
      ∀ path message, Call.cryptoSign path message ∉ o.calls) := by
  obtain ⟨t, t', hbefore, hstep, -⟩ := run.step_at
  obtain ⟨d, himplements, htracks⟩ := run_tracks hB hstart hbefore
  obtain ⟨d', hstep', -⟩ := (simulation B).step himplements hstep
  have hsigned : ∀ path message, Call.cryptoSign path message ∈ o.calls →
      ∃ earlier last lastPayload, before = earlier ++ [last] ∧
        reviewedLast last = some lastPayload ∧
        ∃ initPayload accepted, Drafted earlier initPayload accepted ∧
          path = pathOf initPayload ∧ message = accepted ++ lastPayload := by
    intro path message hsign
    obtain ⟨-, hpending, -, rfl, rfl⟩ := step_signs hstep' hsign
    obtain ⟨earlier, last, lastPayload, initPayload, accepted, hsplit, hlast,
      hdrafted, hholds⟩ := htracks.reviewed hpending
    exact ⟨earlier, last, lastPayload, hsplit, hlast, initPayload, accepted,
      hdrafted, hholds.path, hholds.signedMessage_eq hB⟩
  constructor
  · intro path message hsign
    obtain ⟨happrove, -, hcalls, -, -⟩ := step_signs hstep' hsign
    obtain ⟨_, last, lastPayload, rfl, hlast, initPayload, _,
      ⟨earlier, init, middle, rfl, hinit, hmiddle, rfl⟩, hpath, hmessage⟩ :=
      hsigned path message hsign
    exact ⟨happrove, hcalls, earlier, init, middle, last, initPayload, lastPayload,
      rfl, hinit, hmiddle, hlast, hpath, hmessage⟩
  · intro earlier x hx hopened path message hsign
    obtain ⟨earlier', last, lastPayload, hsplit, hlast, -⟩ :=
      hsigned path message hsign
    obtain ⟨-, hsame⟩ := List.append_inj' (hx.symm.trans hsplit) rfl
    obtain rfl : x = last := by simpa using hsame
    have hview := opened_of_reviewedLast hlast
    rw [hopened] at hview
    cases hview

def sampleInit : Apdu :=
  .command insSign p1Init (coinPath 1 true) (by decide)

def sampleAdd : Apdu :=
  .command insSign p1Add [0xbc] (by decide)

def sampleLast : Apdu :=
  .command insSign p1Last [0xcd] (by decide)

def afterSampleInit : System ramFlashBuffering × Observation :=
  answer samplePlatform sampleInit started

def afterSampleAdd : System ramFlashBuffering × Observation :=
  answer samplePlatform sampleAdd afterSampleInit.1

def afterSampleLast : System ramFlashBuffering × Observation :=
  answer samplePlatform sampleLast afterSampleAdd.1

def afterSampleApproval : System ramFlashBuffering × Observation :=
  afterCallback ((acceptCallback samplePlatform .appSign).run
    { afterSampleLast.1.app with calls := [] })

def sampleTrace : List Entry :=
  [(.apdu samplePlatform sampleInit, afterSampleInit.2),
    (.apdu samplePlatform sampleAdd, afterSampleAdd.2),
    (.apdu samplePlatform sampleLast, afterSampleLast.2)]

theorem run_sampleTrace :
    Run (machine ramFlashBuffering) started sampleTrace afterSampleLast.1 := by
  have hinit := run_snoc_apdu (.nil (s := started)) rfl samplePlatform sampleInit
  have hadd := run_snoc_apdu hinit (by decide) samplePlatform sampleAdd
  exact run_snoc_apdu hadd (by decide) samplePlatform sampleLast

theorem step_sampleApproval :
    (machine ramFlashBuffering).step afterSampleLast.1 (.approve samplePlatform) =
      some (afterSampleApproval.1, afterSampleApproval.2) :=
  rfl

theorem signature_covers_accepted_session_sample :
    ∃ earlier init middle last initPayload lastPayload,
      sampleTrace = earlier ++ init :: middle ++ [last] ∧
      acceptedInit init = some initPayload ∧
      reviewedLast last = some lastPayload ∧
      pathOf (coinPath 1 true) = pathOf initPayload ∧
      [0xbc, 0xcd] = middle.flatMap acceptedAdd ++ lastPayload := by
  have hsign : Call.cryptoSign (pathOf (coinPath 1 true)) [0xbc, 0xcd] ∈
      afterSampleApproval.2.calls := by
    decide
  have hrun : Run (machine ramFlashBuffering) started
      (sampleTrace ++ [(.approve samplePlatform, afterSampleApproval.2)])
      afterSampleApproval.1 :=
    run_sampleTrace.snoc step_sampleApproval
  obtain ⟨-, -, earlier, init, middle, last, initPayload, lastPayload, hsplit, hinit,
    -, hlast, hpath, hmessage⟩ :=
    (signature_covers_accepted_session
      ramFlashBuffering_appendsUpToCapacity.toAppendsOrRefuses starts_started hrun).1
      _ _ hsign
  exact ⟨earlier, init, middle, last, initPayload, lastPayload, hsplit, hinit, hlast,
    hpath, hmessage⟩

end LedgerSovereign.SigningIntegrity
