import LedgerSovereign.HandlerCorrectness
import LedgerSovereign.TransitionRuns

/-!
The application under its main loop and its user.  A request starts with fresh
`flags` and `tx`, and none arrives while a review waits for the user.
-/

namespace LedgerSovereign.HostSession

open LedgerSovereign.Actions
open LedgerSovereign.ApduHandler
open LedgerSovereign.ApplicationState
open LedgerSovereign.BufferingInterface
open LedgerSovereign.Constants
open LedgerSovereign.Parser
open LedgerSovereign.PlatformInterface
open LedgerSovereign.RequestSemantics
open LedgerSovereign.TaggedBuffer
open LedgerSovereign.TransitionRuns

variable {B : Buffering}

structure System (B : Buffering) where
  app : State B
  pending : Bool

inductive Event
  | apdu (platform : Platform) (request : Apdu)
  | approve (platform : Platform)
  | reject

/-- What can be seen of an event: the reply that is sent, the review that is
opened, and the recorded calls. -/
structure Observation where
  reply : Option (List Cell)
  opened : Option Review
  calls : List Call
  deriving DecidableEq

def Observation.replyBytes (o : Observation) : Option (List UInt8) :=
  o.reply.map cellBytes

def Observation.status (o : Observation) : Option (List UInt8) :=
  o.replyBytes.map fun bytes => bytes.drop (bytes.length - 2)

def arrival (s : State B) (request : Apdu) : State B :=
  { s with ioApduBuffer := request.buffer, flags := 0, tx := 0, calls := [] }

/-- What the main loop does with the result of `handleApdu`: unless the reply is
deferred or an exception leaves, it sends `tx` bytes. -/
def afterHandleApdu :
    EStateM.Result Thrown (State B) Unit → System B × Observation
  | .ok _ t =>
      if t.flags &&& ioAsynchReply = 0 then
        (⟨t, false⟩, ⟨some (t.ioApduBuffer.slice 0 t.tx.toNat), none, t.calls⟩)
      else
        (⟨t, true⟩, ⟨none, t.view, t.calls⟩)
  | .error _ t => (⟨t, false⟩, ⟨none, none, t.calls⟩)

/-- A callback sends the reply itself. -/
def afterCallback :
    EStateM.Result Thrown (State B) (List Cell) → System B × Observation
  | .ok cells t => (⟨t, false⟩, ⟨some cells, none, t.calls⟩)
  | .error _ t => (⟨t, false⟩, ⟨none, none, t.calls⟩)

def acceptCallback (platform : Platform) : AcceptCallback → App B (List Cell)
  | .appReplyAddress => appReplyAddress
  | .appSign => appSign platform

def answer (platform : Platform) (request : Apdu) (s : System B) :
    System B × Observation :=
  afterHandleApdu ((handleApdu platform request.rx).run (arrival s.app request))

def step (s : System B) : Event → Option (System B × Observation)
  | .apdu platform request =>
      if s.pending then none else some (answer platform request s)
  | .approve platform =>
      match s.pending, s.app.view with
      | true, some review =>
          some (afterCallback ((acceptCallback platform review.accept).run
            { s.app with calls := [] }))
      | _, _ => none
  | .reject =>
      if s.pending then
        some (afterCallback (appReject.run { s.app with calls := [] }))
      else none

def machine (B : Buffering) : Machine (System B) Event Observation where
  step := step

theorem step_apdu {s : System B} (h : s.pending = false) (platform : Platform)
    (request : Apdu) :
    step s (.apdu platform request) =
      some ((answer platform request s).1, (answer platform request s).2) := by
  rw [step, h]
  rfl

theorem run_snoc_step {s t u : System B} {trace : List (Event × Observation)}
    (run : Run (machine B) s trace t) {e : Event} {o : Observation}
    (h : step t e = some (u, o)) : Run (machine B) s (trace ++ [(e, o)]) u :=
  run.snoc h

theorem run_snoc_apdu {s t : System B} {trace : List (Event × Observation)}
    (run : Run (machine B) s trace t) (h : t.pending = false) (platform : Platform)
    (request : Apdu) :
    Run (machine B) s
      (trace ++ [(.apdu platform request, (answer platform request t).2)])
      (answer platform request t).1 :=
  run_snoc_step run (step_apdu h platform request)

/-- No session is open when the application starts, and no review waits. -/
def Starts (s : System B) : Prop :=
  s.pending = false ∧ s.app.txInitialized = false

def started : System ramFlashBuffering where
  app :=
    { txInitialized := false
      hdPath := Vector.replicate hdPathLenDefault 0
      actionAddrResponseLen := 0
      buffering := RamFlash.init ramBufferSize flashBufferSize
      txObj := .zero Region
      ctxParsedTx := ⟨none, 0, 0, none⟩
      view := none
      ioApduBuffer := Buffer.zeros ioApduBufferSize
      flags := 0
      tx := 0
      calls := [] }
  pending := false

theorem starts_started : Starts started :=
  ⟨rfl, rfl⟩

end LedgerSovereign.HostSession
