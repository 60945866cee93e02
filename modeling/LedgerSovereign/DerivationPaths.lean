import LedgerSovereign.SigningIntegrity
import Mathlib.Data.Nat.Bitwise

namespace LedgerSovereign.DerivationPaths

open LedgerSovereign.ApduHandler
open LedgerSovereign.ApplicationState
open LedgerSovereign.BufferingInterface
open LedgerSovereign.Constants
open LedgerSovereign.CryptoOutcomes
open LedgerSovereign.DeviceProtocol
open LedgerSovereign.HostSession
open LedgerSovereign.PlatformInterface
open LedgerSovereign.RequestSemantics
open LedgerSovereign.SampleDevice
open LedgerSovereign.SessionHistory
open LedgerSovereign.SigningIntegrity
open LedgerSovereign.SigningSessions
open LedgerSovereign.TransitionRuns

variable {B : Buffering}

/-- `Path` of GET_ADDR and SIGN in the specification. -/
def Documented (path : HdPath) : Prop :=
  path[0]! = 0x80000000 ||| 44 ∧ path[1]! = 0x80000000 ||| 1551 ∧
    path[2]! &&& 0x80000000 = 0x80000000

instance (path : HdPath) : Decidable (Documented path) :=
  inferInstanceAs (Decidable (_ ∧ _ ∧ _))

theorem documented_iff (path : HdPath) :
    Documented path ↔ mainnet path = true ∧ path[2]! &&& 0x80000000 = 0x80000000 := by
  rw [Documented, mainnet, Bool.and_eq_true, beq_iff_eq, beq_iff_eq, and_assoc]
  exact Iff.rfl

def carriedPath : Request → Option (List UInt8)
  | .getAddr _ payload => some payload
  | .signInit payload => some payload
  | _ => none

def Refused (o : Observation) : Prop :=
  o.opened = none ∧ ∃ code, code ≠ apduCodeOk ∧ o.replyBytes = some (codeBytes code)

/-- What the specification says about an entry: keys are derived from documented
paths only, and a request with another path, or with less than a path, is
refused. -/
structure Lawful (x : Entry) : Prop where
  derived : ∀ path, Call.osDeriveBip32WithSeedNoThrow path ∈ x.2.calls →
    Documented path
  refused : ∀ request payload, requestOf x.1 = some request →
    carriedPath request = some payload →
    ¬ (12 ≤ payload.length ∧ Documented (pathOf payload)) → Refused x.2

theorem not_refused_ok (s : Session B) (calls : List Call) :
    ¬ Refused (deliver (⟨s, .reply [] apduCodeOk, calls⟩ : Served B)).2 := by
  rintro ⟨-, code, hcode, hreply⟩
  rw [deliver, replyBytes_observation, Option.some.injEq] at hreply
  exact hcode (codeBytes_inj hreply).symm

def PathAccepted (platform : Platform) (payload : List UInt8) : Prop :=
  platform.pinIsValidated = true ∧ 12 ≤ payload.length ∧
    mainnet (pathOf payload) = true

instance (platform : Platform) (payload : List UInt8) :
    Decidable (PathAccepted platform payload) :=
  inferInstanceAs (Decidable (_ ∧ _ ∧ _))

/-- A path whose first two words are the coin's and whose third is not hardened,
for an unlocked device. -/
def SlipsThrough (e : Event) : Prop :=
  ∃ platform request payload, e = .apdu platform request ∧
    carriedPath (decode request.received) = some payload ∧
    PathAccepted platform payload ∧ (pathOf payload)[2]! &&& 0x80000000 = 0

theorem hardened_bit (w : UInt32) :
    w &&& 0x80000000 = 0x80000000 ∨ w &&& 0x80000000 = 0 := by
  rw [← UInt32.toNat_inj, ← UInt32.toNat_inj, UInt32.toNat_and]
  change w.toNat &&& 2 ^ 31 = 2 ^ 31 ∨ w.toNat &&& 2 ^ 31 = 0
  rw [Nat.and_two_pow]
  cases w.toNat.testBit 31 with
  | false => exact .inr (Nat.zero_mul _)
  | true => exact .inl (Nat.one_mul _)

section Requests

variable {platform : Platform} {s : Session B} {request : Request}
  {payload : List UInt8} {path : HdPath}

/-- A path that is not accepted leads to a refusal and to no derivation. -/
def RefusesPath (served : Served B) : Prop :=
  Refused (deliver served).2 ∧
    ∀ path, Call.osDeriveBip32WithSeedNoThrow path ∉ served.calls

theorem refusesPath_refuse {t : Session B} {code : UInt16} (h : code ≠ apduCodeOk)
    {calls : List Call} (hcalls : ∀ path,
      Call.osDeriveBip32WithSeedNoThrow path ∉ calls) :
    RefusesPath ((refuse t code).after calls) :=
  ⟨⟨rfl, code, h, replyBytes_observation _ _ _⟩, by simpa [refuse, Served.after]⟩

theorem pathCalls_derive_nothing (payload : List UInt8) (path : HdPath) :
    Call.osDeriveBip32WithSeedNoThrow path ∉ pathCalls payload := by
  simp [pathCalls, payloadLength]

theorem servePath_cases (s t : Session B) (next : Session B → Served B) :
    PathAccepted platform payload ∧
        whenUnlocked platform s (servePath t payload next) =
          (next (withPath t payload)).after (pathCalls payload) ∨
      ¬ PathAccepted platform payload ∧
        RefusesPath (whenUnlocked platform s (servePath t payload next)) := by
  apply whenUnlocked_rule (P := fun served => PathAccepted platform payload ∧
      served = (next (withPath t payload)).after (pathCalls payload) ∨
    ¬ PathAccepted platform payload ∧ RefusesPath served)
  · intro hlocked
    have hrefuses : RefusesPath ((refuse s apduCodeCommandNotAllowed).after []) :=
      refusesPath_refuse (by decide) (by simp)
    refine .inr ⟨?_, hrefuses⟩
    rintro ⟨hunlocked, -⟩
    simp [hlocked] at hunlocked
  · intro hunlocked
    apply servePath_rule (P := fun served => PathAccepted platform payload ∧
        served = (next (withPath t payload)).after (pathCalls payload) ∨
      ¬ PathAccepted platform payload ∧ RefusesPath served)
    · intro hshort
      refine .inr ⟨?_, refusesPath_refuse (by decide) (by simp [payloadLength])⟩
      rintro ⟨-, hlength, -⟩
      omega
    · intro _ hwrong
      refine .inr ⟨?_, refusesPath_refuse (by decide)
        (pathCalls_derive_nothing payload)⟩
      rintro ⟨-, -, hpath⟩
      simp [hwrong] at hpath
    · intro hlength hpath
      exact .inl ⟨⟨hunlocked, hlength, hpath⟩, rfl⟩

theorem serve_refuses (hcarried : carriedPath request = some payload)
    (h : ¬ PathAccepted platform payload) :
    Refused (deliver (serve platform s request)).2 := by
  cases request with
  | getAddr confirm payload' =>
      cases hcarried
      rcases servePath_cases s s (serveAddress platform confirm) with
        ⟨haccepted, -⟩ | ⟨-, hrefuses⟩
      · exact absurd haccepted h
      · exact hrefuses.1
  | signInit payload' =>
      cases hcarried
      rcases servePath_cases s (emptied s)
        (fun s => ⟨opened s, .reply [] apduCodeOk, []⟩) with
        ⟨haccepted, -⟩ | ⟨-, hrefuses⟩
      · exact absurd haccepted h
      · exact hrefuses.1
  | _ => cases hcarried

theorem calls_serveAddress (confirm : Bool) :
    (serveAddress platform confirm s).calls =
      [.osDeriveBip32WithSeedNoThrow s.hdPath] := by
  apply serveAddress_rule (P := fun served => served.calls =
      [Call.osDeriveBip32WithSeedNoThrow s.hdPath])
  · exact fun _ _ => rfl
  · exact fun _ _ _ => rfl
  · exact fun _ _ _ => rfl

theorem serveChunk_derives_nothing {next : Session B → Served B}
    (hnext : ∀ s, (next s).calls = []) :
    Call.osDeriveBip32WithSeedNoThrow path ∉
      (whenUnlocked platform s (serveChunk s payload next)).calls := by
  apply whenUnlocked_rule (P := fun served =>
    Call.osDeriveBip32WithSeedNoThrow path ∉ served.calls)
  · intro _
    exact List.not_mem_nil
  · intro _
    apply serveChunk_rule (P := fun served =>
      Call.osDeriveBip32WithSeedNoThrow path ∉ served.calls)
    · intro _
      exact List.not_mem_nil
    · intro _ _
      simp [refuse, Served.after, chunkCalls, payloadLength]
    · intro _ _
      simp [Served.after, hnext, chunkCalls, payloadLength]

theorem serve_derives
    (h : Call.osDeriveBip32WithSeedNoThrow path ∈ (serve platform s request).calls) :
    ∃ payload, carriedPath request = some payload ∧ PathAccepted platform payload ∧
      path = pathOf payload := by
  cases request with
  | getAddr confirm payload =>
      rcases servePath_cases s s (serveAddress platform confirm) with
        ⟨haccepted, hserve⟩ | ⟨-, hrefuses⟩
      · rw [serve, hserve] at h
        simp only [Served.after, calls_serveAddress, List.mem_append,
          List.mem_singleton, Call.osDeriveBip32WithSeedNoThrow.injEq] at h
        rcases h with hcalls | rfl
        · exact absurd hcalls (pathCalls_derive_nothing payload path)
        · exact ⟨payload, rfl, haccepted, rfl⟩
      · exact absurd h (hrefuses.2 path)
  | signInit payload =>
      rcases servePath_cases s (emptied s)
        (fun s => ⟨opened s, .reply [] apduCodeOk, []⟩) with
        ⟨-, hserve⟩ | ⟨-, hrefuses⟩
      · rw [serve, serveInit, hserve] at h
        simp only [Served.after, List.append_nil] at h
        exact absurd h (pathCalls_derive_nothing payload path)
      · exact absurd h (hrefuses.2 path)
  | signAdd payload =>
      exact absurd h (serveChunk_derives_nothing fun _ => rfl)
  | signLast payload =>
      refine absurd h (serveChunk_derives_nothing fun s => ?_)
      rw [serveMessage]
      split <;> rfl
  | signOther =>
      refine absurd h (whenUnlocked_rule (P := fun served =>
        Call.osDeriveBip32WithSeedNoThrow path ∉ served.calls) ?_ ?_)
      · exact fun _ => List.not_mem_nil
      · exact fun _ => List.not_mem_nil
  | _ => cases h

theorem serve_accepts (hcarried : carriedPath request = some payload)
    (h : PathAccepted platform payload) :
    Call.osDeriveBip32WithSeedNoThrow (pathOf payload) ∈
        (serve platform s request).calls ∨
      ¬ Refused (deliver (serve platform s request)).2 := by
  cases request with
  | getAddr confirm payload' =>
      cases hcarried
      rcases servePath_cases s s (serveAddress platform confirm) with
        ⟨-, hserve⟩ | ⟨hrefused, -⟩
      · left
        rw [serve, hserve]
        simp [Served.after, calls_serveAddress, withPath]
      · exact absurd h hrefused
  | signInit payload' =>
      cases hcarried
      rcases servePath_cases s (emptied s)
        (fun s => ⟨opened s, .reply [] apduCodeOk, []⟩) with
        ⟨-, hserve⟩ | ⟨hrefused, -⟩
      · right
        rw [serve, serveInit, hserve]
        exact not_refused_ok _ _
      · exact absurd h hrefused
  | _ => cases hcarried

end Requests

def KeepsDocumented (d : Device B) : Prop :=
  d.session.txInitialized = true ∨ d.pending = some .message →
    Documented d.session.hdPath

theorem documented_of_accepted {platform : Platform} {payload : List UInt8}
    (haccepted : PathAccepted platform payload)
    (h : ¬ (pathOf payload)[2]! &&& 0x80000000 = 0) : Documented (pathOf payload) :=
  (documented_iff _).mpr ⟨haccepted.2.2, (hardened_bit _).resolve_right h⟩

theorem serve_keepsDocumented {platform : Platform} {request : Apdu}
    {s : Session B} (hpasses : ¬ SlipsThrough (.apdu platform request))
    (h : s.txInitialized = true → Documented s.hdPath) :
    KeepsDocumented (deliver (serve platform s (decode request.received))).1 := by
  have hrefuses : ∀ payload, carriedPath (decode request.received) = some payload →
      ¬ PathAccepted platform payload →
      Refused (deliver (serve platform s (decode request.received))).2 :=
    fun _ => serve_refuses
  have hchange := serve_change platform s (decode request.received)
  generalize serve platform s (decode request.received) = served at hchange hrefuses
  rintro (hopen | hpending)
  · cases hchange with
    | kept _ => exact h hopen
    | @opened payload hrequest _ _ =>
        have hcarried : carriedPath (decode request.received) = some payload := by
          rw [hrequest]
          rfl
        have haccepted : PathAccepted platform payload := by
          by_contra hnot
          exact not_refused_ok _ _ (hrefuses payload hcarried hnot)
        exact documented_of_accepted haccepted fun hclear =>
          hpasses ⟨platform, request, payload, rfl, hcarried, haccepted, hclear⟩
    | appended _ hsession _ => exact h hsession
    | shown _ hsession _ _ => exact h hsession
    | closed hclosed _ _ =>
        change served.session.txInitialized = true at hopen
        simp [hclosed] at hopen
  · cases hchange with
    | kept hquiet => exact absurd (pending_message hpending) hquiet.unshown
    | opened _ _ _ => cases hpending
    | appended _ _ _ => cases hpending
    | shown _ hsession _ _ => exact h hsession
    | closed _ hquiet _ => exact absurd (pending_message hpending) hquiet.unshown

theorem serve_lawful {platform : Platform} {request : Apdu} {s : Session B}
    (hpasses : ¬ SlipsThrough (.apdu platform request)) :
    Lawful (.apdu platform request,
      (deliver (serve platform s (decode request.received))).2) := by
  have hdocumented : ∀ {payload}, carriedPath (decode request.received) = some payload →
      PathAccepted platform payload → Documented (pathOf payload) :=
    fun hcarried haccepted => documented_of_accepted haccepted fun hclear =>
      hpasses ⟨platform, request, _, rfl, hcarried, haccepted, hclear⟩
  constructor
  · intro path hcall
    rw [deliver, calls_observation] at hcall
    obtain ⟨payload, hcarried, haccepted, rfl⟩ := serve_derives hcall
    exact hdocumented hcarried haccepted
  · rintro _ payload ⟨⟩ hcarried hwrong
    apply serve_refuses hcarried
    intro haccepted
    exact hwrong ⟨haccepted.2.1, hdocumented hcarried haccepted⟩

theorem step_lawful {d d' : Device B} {e : Event} {o : Observation}
    (hstep : Device.step d (visible e) = some (d', o)) (hpasses : ¬ SlipsThrough e)
    (h : KeepsDocumented d) : KeepsDocumented d' ∧ Lawful (e, o) := by
  have hanswer : ∀ served : Served B, served.session = d.session →
      Response.pending served.response = none →
      KeepsDocumented (deliver served).1 := by
    rintro served hsession hpending (hopen | hmessage)
    · change served.session.txInitialized = true at hopen
      change Documented served.session.hdPath
      rw [hsession] at hopen ⊢
      exact h (.inl hopen)
    · change Response.pending served.response = _ at hmessage
      rw [hpending] at hmessage
      cases hmessage
  rcases d.step_cases hstep with
    ⟨platform, request, rfl, -, hresult⟩ | ⟨platform, p, rfl, hp, hresult⟩ |
      ⟨p, rfl, -, hresult⟩
  · cases hresult
    exact ⟨serve_keepsDocumented hpasses fun hopen => h (.inl hopen),
      serve_lawful hpasses⟩
  · cases hresult
    refine ⟨hanswer _ (serveApproval_session platform d.session p)
      (serveApproval_pending platform d.session p), ?_, by rintro _ _ ⟨⟩⟩
    intro path hcall
    rw [calls_observation] at hcall
    cases p with
    | address data => cases hcall
    | message =>
        rw [serveApproval, serveSignature_calls] at hcall
        simp only [signCalls, List.mem_cons, reduceCtorEq, List.not_mem_nil, false_or,
          or_false, Call.osDeriveBip32WithSeedNoThrow.injEq] at hcall
        rw [hcall]
        exact h (.inr hp)
  · cases hresult
    refine ⟨hanswer (refuse d.session apduCodeCommandNotAllowed) rfl rfl, ?_,
      by rintro _ _ ⟨⟩⟩
    intro path hcall
    cases hcall

/-- In a run that starts with no session open, the paths are as specified exactly
when no request slips through. -/
theorem paths_documented_iff {start s : System B} (hstart : Starts start)
    {trace : List Entry} (run : Run (machine B) start trace s) :
    (∀ x ∈ trace, Lawful x) ↔ ∀ x ∈ trace, ¬ SlipsThrough x.1 := by
  constructor
  · rintro hlawful ⟨e, o⟩ hx ⟨platform, request, payload, rfl, hcarried, haccepted,
      hclear⟩
    have hx' := hlawful _ hx
    have hundocumented : ¬ Documented (pathOf payload) := by
      rintro ⟨-, -, hset⟩
      rw [hclear] at hset
      cases hset
    obtain ⟨earlier, later, rfl⟩ := List.append_of_mem hx
    obtain ⟨t, t', -, hstep, -⟩ := run.step_at
    obtain ⟨-, -, rfl⟩ := step_serves hstep
    rcases serve_accepts hcarried haccepted with hcall | hreplied
    · refine hundocumented (hx'.derived _ ?_)
      rw [deliver, calls_observation]
      exact hcall
    · exact hreplied (hx'.refused _ payload rfl hcarried fun h => hundocumented h.2)
  · have hinvariant := (simulation B).invariant
      (fun trace d => (∀ x ∈ trace, ¬ SlipsThrough x.1) →
        KeepsDocumented d ∧ ∀ x ∈ trace, Lawful x)
      (implements_of_idle hstart.1)
      (by
        refine fun _ => ⟨?_, by simp⟩
        rintro (hopen | hpending)
        · change start.app.txInitialized = true at hopen
          simp [hstart.2] at hopen
        · cases hpending)
      (by
        intro trace d e o d' htrace hstep hall
        rw [List.forall_mem_append] at hall
        obtain ⟨hkeeps, hlawful⟩ := htrace hall.1
        obtain ⟨hkeeps', hlawful'⟩ := step_lawful hstep (by simpa using hall.2) hkeeps
        refine ⟨hkeeps', List.forall_mem_append.mpr ⟨hlawful, ?_⟩⟩
        simpa using hlawful')
      run
    obtain ⟨d, -, hd⟩ := hinvariant
    exact fun h => (hd h).2

/-- The approval at the end of the run derives the key at the path. -/
theorem paths_documented_iff_sample :
    (sampleTrace ++ [(Event.approve samplePlatform, afterSampleApproval.2)]).Forall
        Lawful ∧
      Call.osDeriveBip32WithSeedNoThrow (pathOf (coinPath 1 true)) ∈
        afterSampleApproval.2.calls := by
  have hcall : Call.osDeriveBip32WithSeedNoThrow (pathOf (coinPath 1 true)) ∈
      afterSampleApproval.2.calls := by
    decide +kernel
  refine ⟨List.forall_iff_forall_mem.mpr ?_, hcall⟩
  apply (paths_documented_iff starts_started
    (run_sampleTrace.snoc step_sampleApproval)).mpr
  rintro x hx ⟨platform, request, payload, hevent, hcarried, -, hclear⟩
  have hinit : carriedPath (decode sampleInit.received) = some (coinPath 1 true) := rfl
  have hadd : carriedPath (decode sampleAdd.received) = none := rfl
  have hlast : carriedPath (decode sampleLast.received) = none := rfl
  simp only [sampleTrace, List.mem_append, List.mem_cons, List.not_mem_nil,
    or_false] at hx
  rcases hx with (rfl | rfl | rfl) | rfl
  · cases hevent
    rw [hinit, Option.some.injEq] at hcarried
    rw [← hcarried] at hclear
    revert hclear
    decide
  · cases hevent
    simp [hadd] at hcarried
  · cases hevent
    simp [hlast] at hcarried
  · cases hevent

/-- A SIGN/INIT and a GET_ADDR whose account is not hardened. -/
def unhardenedInit : Apdu :=
  .command insSign p1Init (coinPath 0 false) (by decide)

def unhardenedGetAddr : Apdu :=
  .command insGetAddr 0 (coinPath 0 false) (by decide)

def afterUnhardenedInit : System ramFlashBuffering × Observation :=
  answer samplePlatform unhardenedInit started

def afterUnhardenedGetAddr : System ramFlashBuffering × Observation :=
  answer samplePlatform unhardenedGetAddr afterUnhardenedInit.1

theorem unhardened_path_accepted :
    Run (machine ramFlashBuffering) started
        [(.apdu samplePlatform unhardenedInit, afterUnhardenedInit.2),
          (.apdu samplePlatform unhardenedGetAddr, afterUnhardenedGetAddr.2)]
        afterUnhardenedGetAddr.1 ∧
      ¬ Documented (pathOf (coinPath 0 false)) ∧
      afterUnhardenedInit.2.replyBytes = some [0x90, 0x00] ∧
      Call.osDeriveBip32WithSeedNoThrow (pathOf (coinPath 0 false)) ∈
        afterUnhardenedGetAddr.2.calls ∧
      ¬ Lawful (.apdu samplePlatform unhardenedInit, afterUnhardenedInit.2) ∧
      ¬ Lawful (.apdu samplePlatform unhardenedGetAddr,
        afterUnhardenedGetAddr.2) := by
  have hrun := run_snoc_apdu (run_snoc_apdu (.nil (s := started)) rfl samplePlatform
    unhardenedInit) (by decide) samplePlatform unhardenedGetAddr
  have hundocumented : ¬ Documented (pathOf (coinPath 0 false)) := by decide
  have hreply : afterUnhardenedInit.2.replyBytes = some [0x90, 0x00] := by decide
  have hcall : Call.osDeriveBip32WithSeedNoThrow (pathOf (coinPath 0 false)) ∈
      afterUnhardenedGetAddr.2.calls := by
    decide +kernel
  have hderived : ∀ o : Observation,
      Call.osDeriveBip32WithSeedNoThrow (pathOf (coinPath 0 false)) ∈ o.calls →
      ¬ Lawful (.apdu samplePlatform unhardenedGetAddr, o) :=
    fun o hcall hlawful => hundocumented (hlawful.derived _ hcall)
  refine ⟨hrun, hundocumented, hreply, hcall, fun hlawful => ?_, hderived _ hcall⟩
  obtain ⟨-, code, hcode, hrefused⟩ := hlawful.refused (.signInit (coinPath 0 false))
    (coinPath 0 false) rfl rfl fun h => hundocumented h.2
  exact hcode (codeBytes_inj (Option.some.inj (hrefused.symm.trans hreply)))

end LedgerSovereign.DerivationPaths
