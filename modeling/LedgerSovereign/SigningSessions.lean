import LedgerSovereign.DeviceProtocol

namespace LedgerSovereign.SigningSessions

open LedgerSovereign.ApduHandler
open LedgerSovereign.ApplicationState
open LedgerSovereign.BufferingInterface
open LedgerSovereign.Constants
open LedgerSovereign.DeviceProtocol
open LedgerSovereign.HostSession
open LedgerSovereign.Parser
open LedgerSovereign.PlatformInterface
open LedgerSovereign.RequestSemantics
open LedgerSovereign.TaggedBuffer
open LedgerSovereign.TransitionRuns

variable {B : Buffering}

/-- An answer that neither accepts a chunk nor shows a message. -/
structure Quiet (request : Request) (response : Response) : Prop where
  unshown : response ≠ .messageReview
  refused : ∀ payload, request = .signInit payload ∨ request = .signAdd payload →
    ∃ code, response = .reply [] code ∧ code ≠ apduCodeOk

def shown (s : Session B) : Session B :=
  { parsedSession (closed s) with view := some messageView }

inductive Change (s : Session B) (request : Request) : Served B → Prop
  | kept {response : Response} : Quiet request response →
      Change s request ⟨s, response, []⟩
  | opened {payload : List UInt8} : request = .signInit payload →
      12 ≤ payload.length → mainnet (pathOf payload) = true →
      Change s request
        ⟨opened (withPath (emptied s) payload), .reply [] apduCodeOk,
          pathCalls payload⟩
  | appended {payload : List UInt8} : request = .signAdd payload →
      s.txInitialized = true → Takes s payload →
      Change s request
        ⟨appended s payload, .reply [] apduCodeOk, chunkCalls payload⟩
  | shown {payload : List UInt8} : request = .signLast payload →
      s.txInitialized = true → Takes s payload →
      hasMessage (appended s payload) = true →
      Change s request
        ⟨shown (appended s payload), .messageReview, chunkCalls payload⟩
  | closed {served : Served B} : served.session.txInitialized = false →
      Quiet request served.response →
      (∀ path message, Call.cryptoSign path message ∉ served.calls) →
      Change s request served

theorem quiet_refuse (request : Request) {code : UInt16} (h : code ≠ apduCodeOk) :
    Quiet request (.reply [] code) :=
  ⟨by rintro ⟨⟩, fun _ _ => ⟨code, rfl, h⟩⟩

theorem quiet_of_other (request : Request) {response : Response}
    (hshown : response ≠ .messageReview)
    (hinit : ∀ payload, request ≠ .signInit payload)
    (hadd : ∀ payload, request ≠ .signAdd payload) : Quiet request response := by
  refine ⟨hshown, ?_⟩
  rintro payload (h | h)
  · exact absurd h (hinit payload)
  · exact absurd h (hadd payload)

theorem refuse_change (s : Session B) (request : Request) {code : UInt16}
    (h : code ≠ apduCodeOk) : Change s request (refuse s code) :=
  .kept (quiet_refuse request h)

/-- A path that is refused, or that no session is opened with, closes the
session. -/
theorem servePath_change {s s₀ : Session B} {request : Request}
    {payload : List UInt8} {next : Session B → Served B}
    (hnext : 12 ≤ payload.length → mainnet (pathOf payload) = true →
      Change s₀ request ((next (withPath s payload)).after (pathCalls payload))) :
    Change s₀ request (servePath s payload next) := by
  apply servePath_rule
  · intro _
    exact .closed rfl (quiet_refuse request (by decide)) (by simp [refuse,
      Served.after, payloadLength])
  · intro _ _
    exact .closed rfl (quiet_refuse request (by decide)) (by simp [refuse,
      Served.after, pathCalls, payloadLength])
  · exact hnext

theorem serveAddress_change (platform : Platform) (confirm : Bool)
    {s s₀ : Session B} {payload : List UInt8} (h : s.txInitialized = false) :
    Change s₀ (.getAddr confirm payload)
      ((serveAddress platform confirm s).after (pathCalls payload)) := by
  have hquiet : ∀ {response : Response}, response ≠ .messageReview →
      Quiet (.getAddr confirm payload) response := fun h =>
    quiet_of_other _ h (by rintro _ ⟨⟩) (by rintro _ ⟨⟩)
  have hcalls : ∀ path message, Call.cryptoSign path message ∉
      pathCalls payload ++ [.osDeriveBip32WithSeedNoThrow s.hdPath] := by
    simp [pathCalls, payloadLength]
  apply serveAddress_rule (P := fun served =>
    Change s₀ (.getAddr confirm payload) (served.after (pathCalls payload)))
  · intro failure _
    refine .closed h (hquiet ?_) hcalls
    rcases failure with _ | (_ | e)
    · rintro ⟨⟩
    · rintro ⟨⟩
    · rintro ⟨⟩
  · intro data _ _
    exact .closed h (hquiet (by rintro ⟨⟩)) hcalls
  · intro data _ _
    exact .closed h (hquiet (by rintro ⟨⟩)) hcalls

theorem serveMessage_change {s : Session B} {payload : List UInt8}
    (hopen : s.txInitialized = true) (htakes : Takes s payload) :
    Change s (.signLast payload)
      ((serveMessage (appended s payload)).after (chunkCalls payload)) := by
  unfold serveMessage
  split
  · rename_i hmessage
    exact .shown rfl hopen htakes hmessage
  · refine .closed rfl (quiet_of_other _ ?_ ?_ ?_) ?_
    · rintro ⟨⟩
    · rintro _ ⟨⟩
    · rintro _ ⟨⟩
    · simp [Served.after, chunkCalls, payloadLength]

theorem serveChunk_change {s : Session B} {request : Request}
    {payload : List UInt8} {next : Session B → Served B}
    (hnext : s.txInitialized = true → Takes s payload →
      Change s request ((next (appended s payload)).after (chunkCalls payload))) :
    Change s request (serveChunk s payload next) := by
  apply serveChunk_rule
  · intro _
    exact refuse_change s request (by decide)
  · intro _ _
    exact .closed rfl (quiet_refuse request (by decide)) (by simp [refuse,
      Served.after, chunkCalls, payloadLength])
  · exact hnext

theorem serve_change (platform : Platform) (s : Session B) (request : Request) :
    Change s request (serve platform s request) := by
  have hlocked {served : Served B} (h : Change s request served) :
      Change s request (whenUnlocked platform s served) :=
    whenUnlocked_rule (fun _ => refuse_change s request (by decide)) fun _ => h
  cases request with
  | wrongClass => exact refuse_change s _ (by decide)
  | tooShort => exact refuse_change s _ (by decide)
  | unknownInstruction => exact refuse_change s _ (by decide)
  | getVersion =>
      exact .kept (quiet_of_other _ (by rintro ⟨⟩) (by rintro _ ⟨⟩) (by rintro _ ⟨⟩))
  | getAddr confirm payload =>
      exact hlocked (servePath_change fun _ _ =>
        serveAddress_change platform confirm rfl)
  | signInit payload =>
      exact hlocked (servePath_change fun hlength hpath =>
        .opened rfl hlength hpath)
  | signAdd payload =>
      exact hlocked (serveChunk_change fun hopen htakes =>
        .appended rfl hopen htakes)
  | signLast payload =>
      exact hlocked (serveChunk_change serveMessage_change)
  | signOther => exact hlocked (refuse_change s _ (by decide))

theorem serveApproval_session (platform : Platform) (s : Session B) (p : Pending) :
    (serveApproval platform s p).session = s := by
  cases p with
  | address data => rfl
  | message =>
      rw [serveApproval, serveSignature]
      split <;> rfl

end LedgerSovereign.SigningSessions
