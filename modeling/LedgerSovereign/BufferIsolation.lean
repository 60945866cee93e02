import LedgerSovereign.DeviceProtocol
import LedgerSovereign.SampleDevice

namespace LedgerSovereign.BufferIsolation

open LedgerSovereign.ApplicationState
open LedgerSovereign.BufferingInterface
open LedgerSovereign.Constants
open LedgerSovereign.CryptoOutcomes
open LedgerSovereign.DeviceProtocol
open LedgerSovereign.HostSession
open LedgerSovereign.PlatformInterface
open LedgerSovereign.RequestSemantics
open LedgerSovereign.SampleDevice
open LedgerSovereign.TaggedBuffer
open LedgerSovereign.TransitionRuns

variable {B : Buffering}

/-- A call that reads the buffer reads received bytes, and a difference of
unsigned numbers does not wrap. -/
def ReadsReceived : Call → Prop
  | .hdPathMemcpy source => ∀ c ∈ source, c.origin = .received
  | .txAppend source => ∀ c ∈ source, c.origin = .received
  | .unsignedSub a b => b ≤ a
  | _ => True

/-- Every byte that is sent was written, and only received bytes were read. -/
structure Isolated (o : Observation) : Prop where
  reply : ∀ cells ∈ o.reply, ∀ c ∈ cells, c.origin = .written
  calls : ∀ c ∈ o.calls, ReadsReceived c

theorem payloadLength_reads {payload : List UInt8} (h : payload.length ≤ 260) :
    ReadsReceived (payloadLength payload) := by
  change offsetData ≤ UInt32.ofNat (payload.length + 5)
  rw [UInt32.le_iff_toNat_le, UInt32.toNat_ofNat']
  change 5 ≤ _
  omega

theorem pathCalls_read {payload : List UInt8} (h : payload.length ≤ 260) :
    ∀ c ∈ pathCalls payload, ReadsReceived c := by
  simp only [pathCalls, List.forall_mem_cons]
  exact ⟨payloadLength_reads h, fun _ => origin_of_mem_receivedCells, by simp⟩

theorem chunkCalls_read {payload : List UInt8} (h : payload.length ≤ 260) :
    ∀ c ∈ chunkCalls payload, ReadsReceived c := by
  simp only [chunkCalls, List.forall_mem_cons]
  exact ⟨payloadLength_reads h, fun _ => origin_of_mem_receivedCells, by simp⟩

def ReadsOnly (served : Served B) : Prop :=
  ∀ c ∈ served.calls, ReadsReceived c

theorem ReadsOnly.after {served : Served B} {calls : List Call}
    (h : ReadsOnly served) (hcalls : ∀ c ∈ calls, ReadsReceived c) :
    ReadsOnly (served.after calls) :=
  List.forall_mem_append.mpr ⟨hcalls, h⟩

theorem refuse_readsOnly (s : Session B) (code : UInt16) :
    ReadsOnly (refuse s code) := by
  simp [ReadsOnly, refuse]

theorem servePath_readsOnly {s : Session B} {payload : List UInt8}
    {next : Session B → Served B} (h : payload.length ≤ 260)
    (hnext : ∀ t, ReadsOnly (next t)) : ReadsOnly (servePath s payload next) := by
  apply servePath_rule
  · intro _
    exact (refuse_readsOnly _ _).after (by simpa using payloadLength_reads h)
  · intro _ _
    exact (refuse_readsOnly _ _).after (pathCalls_read h)
  · intro _ _
    exact (hnext _).after (pathCalls_read h)

theorem serveChunk_readsOnly {s : Session B} {payload : List UInt8}
    {next : Session B → Served B} (h : payload.length ≤ 260)
    (hnext : ∀ t, ReadsOnly (next t)) : ReadsOnly (serveChunk s payload next) := by
  apply serveChunk_rule
  · exact fun _ => refuse_readsOnly _ _
  · intro _ _
    exact (refuse_readsOnly _ _).after (chunkCalls_read h)
  · intro _ _
    exact (hnext _).after (chunkCalls_read h)

theorem serve_readsOnly (platform : Platform) (s : Session B) {request : Request}
    (h : request.payload.length ≤ 260) : ReadsOnly (serve platform s request) := by
  have hrefuse := @refuse_readsOnly B
  have hlocked {served : Served B} (h : ReadsOnly served) :
      ReadsOnly (whenUnlocked platform s served) :=
    whenUnlocked_rule (fun _ => hrefuse s _) fun _ => h
  cases request with
  | wrongClass => exact hrefuse s _
  | tooShort => exact hrefuse s _
  | unknownInstruction => exact hrefuse s _
  | getVersion => simp [ReadsOnly, serve]
  | getAddr confirm payload =>
      refine hlocked (servePath_readsOnly h fun t => ?_)
      exact serveAddress_rule (by simp [ReadsOnly, ReadsReceived])
        (by simp [ReadsOnly, ReadsReceived]) (by simp [ReadsOnly, ReadsReceived])
  | signInit payload => exact hlocked (servePath_readsOnly h fun t => hrefuse _ _)
  | signAdd payload => exact hlocked (serveChunk_readsOnly h fun t => hrefuse _ _)
  | signLast payload =>
      refine hlocked (serveChunk_readsOnly h fun t => ?_)
      unfold serveMessage
      split <;> simp [ReadsOnly]
  | signOther => exact hlocked (hrefuse s _)

theorem deliver_isolated {served : Served B} (h : ReadsOnly served) :
    Isolated (deliver served).2 := by
  obtain ⟨session, response, calls⟩ := served
  cases response with
  | reply data code =>
      refine ⟨?_, h⟩
      rintro cells ⟨⟩ c hc
      exact origin_of_mem_writtenCells hc
  | addressReview data => exact ⟨by rintro cells ⟨⟩, h⟩
  | messageReview => exact ⟨by rintro cells ⟨⟩, h⟩
  | silence => exact ⟨by rintro cells ⟨⟩, h⟩

theorem serveApproval_readsOnly (platform : Platform) (s : Session B)
    (p : Pending) : ReadsOnly (serveApproval platform s p) := by
  cases p with
  | address data => simp [ReadsOnly, serveApproval]
  | message =>
      rw [serveApproval, serveSignature]
      split <;> simp [ReadsOnly, signCalls, ReadsReceived]

theorem step_isolated {d d' : Device B} {e : Event} {o : Observation}
    (hstep : Device.step d (visible e) = some (d', o)) : Isolated o := by
  rcases d.step_cases hstep with
    ⟨platform, request, rfl, -, hresult⟩ | ⟨platform, p, rfl, -, hresult⟩ |
      ⟨p, rfl, -, hresult⟩
  · cases hresult
    have hpayload := length_payload_decode request.nonempty
    have hlength := request.length_le
    exact deliver_isolated (serve_readsOnly platform d.session (by omega))
  · cases hresult
    exact deliver_isolated (serveApproval_readsOnly platform d.session p)
  · cases hresult
    exact deliver_isolated (refuse_readsOnly d.session _)

theorem run_isolated {s u : System B} {trace : List (Event × Observation)}
    (hidle : s.pending = false) (run : Run (machine B) s trace u) :
    ∀ x ∈ trace, Isolated x.2 := by
  obtain ⟨d, -, hall⟩ := (simulation B).invariant
    (fun trace _ => ∀ x ∈ trace, Isolated x.2) (implements_of_idle hidle) (by simp)
    (by
      intro trace d e o d' htrace hstep
      rw [List.forall_mem_append]
      exact ⟨htrace, by simpa using step_isolated hstep⟩)
    run
  exact hall

/-- Prefixes of runs on requests that differ behind their received bytes only
end in the same session. -/
theorem run_prefixes_agree {s₁ s₂ u₁ u₂ : System B}
    {xs ys : List (Event × Observation)}
    (hidle₁ : s₁.pending = false) (hidle₂ : s₂.pending = false)
    (hsession : s₁.app.toSession = s₂.app.toSession)
    (run₁ : Run (machine B) s₁ xs u₁) (run₂ : Run (machine B) s₂ ys u₂)
    (hevents : xs.map (fun x => visible x.1) = ys.map (fun y => visible y.1)) :
    xs.map Prod.snd = ys.map Prod.snd ∧
      u₁.app.toSession = u₂.app.toSession ∧ u₁.pending = u₂.pending := by
  have h₁ := implements_of_idle hidle₁
  rw [hsession] at h₁
  obtain ⟨hobserved, d, hd₁, hd₂⟩ := (simulation B).runs_agree h₁
    (implements_of_idle hidle₂) run₁ run₂ hevents
  exact ⟨hobserved, hd₁.session.trans hd₂.session.symm,
    hd₁.pending.trans hd₂.pending.symm⟩

/-- What stale bytes could change: nothing that is observed, no session on the
way, and no byte read or sent. -/
theorem stale_bytes_have_no_effect {s₁ s₂ u₁ u₂ : System B}
    {xs ys : List (Event × Observation)}
    (hidle₁ : s₁.pending = false) (hidle₂ : s₂.pending = false)
    (hsession : s₁.app.toSession = s₂.app.toSession)
    (run₁ : Run (machine B) s₁ xs u₁) (run₂ : Run (machine B) s₂ ys u₂)
    (hevents : xs.map (fun x => visible x.1) = ys.map (fun y => visible y.1)) :
    xs.map Prod.snd = ys.map Prod.snd ∧
      (∀ k, ∃ t₁ t₂, Run (machine B) s₁ (xs.take k) t₁ ∧
        Run (machine B) s₂ (ys.take k) t₂ ∧
        t₁.app.toSession = t₂.app.toSession ∧ t₁.pending = t₂.pending) ∧
      ∀ x ∈ xs ++ ys, Isolated x.2 := by
  refine ⟨(run_prefixes_agree hidle₁ hidle₂ hsession run₁ run₂ hevents).1, ?_, ?_⟩
  · intro k
    rw [← List.take_append_drop k xs] at run₁
    rw [← List.take_append_drop k ys] at run₂
    obtain ⟨t₁, hprefix₁, -⟩ := run_append_iff.mp run₁
    obtain ⟨t₂, hprefix₂, -⟩ := run_append_iff.mp run₂
    have htake : (xs.take k).map (fun x => visible x.1) =
        (ys.take k).map (fun y => visible y.1) := by
      rw [List.map_take, List.map_take, hevents]
    exact ⟨t₁, t₂, hprefix₁, hprefix₂, (run_prefixes_agree hidle₁ hidle₂ hsession
      hprefix₁ hprefix₂ htake).2⟩
  · rw [List.forall_mem_append]
    exact ⟨run_isolated hidle₁ run₁, run_isolated hidle₂ run₂⟩

def shortGetAddr (fill : UInt8) : Apdu :=
  .filled [0x64, 0x01, 0x00, 0x00, 0x04, 0x2c, 0x00, 0x00, 0x80] fill (by decide)

theorem stale_bytes_have_no_effect_shortGetAddr :
    let first := answer samplePlatform (shortGetAddr 0x00) started
    let second := answer samplePlatform (shortGetAddr 0x0f) started
    first.2 = second.2 ∧ first.2.replyBytes = some [0x67, 0x00] ∧
      first.1.app.toSession = second.1.app.toSession ∧ Isolated first.2 := by
  have hagree := stale_bytes_have_no_effect rfl rfl rfl
    (run_snoc_apdu (.nil (s := started)) rfl samplePlatform (shortGetAddr 0x00))
    (run_snoc_apdu (.nil (s := started)) rfl samplePlatform (shortGetAddr 0x0f)) rfl
  obtain ⟨hobserved, -, hisolated⟩ := hagree
  have hfirst := hisolated (.apdu samplePlatform (shortGetAddr 0x00),
    (answer samplePlatform (shortGetAddr 0x00) started).2) (by simp)
  exact ⟨by simpa using hobserved, by decide, rfl, hfirst⟩

end LedgerSovereign.BufferIsolation
