import LedgerSovereign.SigningIntegrity

namespace LedgerSovereign.DisplayedMessage

open LedgerSovereign.Actions
open LedgerSovereign.ApplicationState
open LedgerSovereign.BufferingInterface
open LedgerSovereign.Constants
open LedgerSovereign.CryptoOutcomes
open LedgerSovereign.DeviceProtocol
open LedgerSovereign.HostSession
open LedgerSovereign.Parser
open LedgerSovereign.PlatformInterface
open LedgerSovereign.RequestSemantics
open LedgerSovereign.SampleDevice
open LedgerSovereign.SessionHistory
open LedgerSovereign.SigningIntegrity
open LedgerSovereign.TaggedBuffer
open LedgerSovereign.Transaction
open LedgerSovereign.TransitionRuns

variable {B : Buffering}

/-- What `parser_getItem` renders: the bytes of the object that `ctx_parsed_tx`
points at. -/
def renderedBlob (s : Session B) : Bytes Region :=
  ((txMemory s).txAt s.ctxParsedTx.txObj).txBlindSignature

/-- The length that `app_sign` passes to `crypto_sign`. -/
def messageLength (s : Session B) : UInt16 :=
  (txGetBufferLength s).toUInt16

/-- The parse state refers to the whole content of the message buffer. -/
structure Displays (s : Session B) : Prop where
  context : s.ctxParsedTx =
    ⟨(renderedBlob s).ptr, (renderedBlob s).len, 0, some .txObj⟩
  pointer : (renderedBlob s).ptr = txGetBuffer s
  length : (renderedBlob s).len = messageLength s
  untruncated : (messageLength s).toNat = (txGetBufferLength s).toNat
  nonempty : B.content s.buffering ≠ []
  rendered : (txMemory s).bytesAt (renderedBlob s).ptr (renderedBlob s).len.toNat =
    B.content s.buffering
  fetched : (messageBytes s).map (List.take (messageLength s).toNat) =
    some (B.content s.buffering)

theorem toNat_messageLength (hB : B.AppendsOrRefuses) {s : Session B}
    (hcapacity : B.capacity s.buffering = flashBufferSize) :
    (messageLength s).toNat = (txGetBufferLength s).toNat := by
  have hlength := hB.length_content s.buffering
  have hle := hB.content_le s.buffering
  have hsize : flashBufferSize = 16384 := rfl
  rw [hcapacity, hsize] at hle
  rw [messageLength, txGetBufferLength, UInt32.toNat_toUInt16,
    Nat.mod_eq_of_lt (by omega)]

theorem displays_of_parsed (hB : B.AppendsOrRefuses) {s : Session B}
    (hcapacity : B.capacity s.buffering = flashBufferSize)
    (hmessage : hasMessage s = true) (hparsed : parsedSession s = s) : Displays s := by
  have huntruncated := toNat_messageLength hB hcapacity
  have hcontext : s.ctxParsedTx =
      ⟨txGetBuffer s, messageLength s, 0, some .txObj⟩ :=
    (congrArg Session.ctxParsedTx hparsed).symm
  have htx : s.txObj = ⟨⟨txGetBuffer s, messageLength s⟩⟩ :=
    (congrArg Session.txObj hparsed).symm
  have hblob : renderedBlob s = ⟨txGetBuffer s, messageLength s⟩ := by
    rw [renderedBlob, hcontext]
    change s.txObj.txBlindSignature = _
    rw [htx]
  have hbytes : (txMemory s).bytesAt (txGetBuffer s) (messageLength s).toNat =
      B.content s.buffering := by
    rw [huntruncated]
    rfl
  rw [hasMessage_iff, not_or] at hmessage
  obtain ⟨hnonzero, hdata⟩ := hmessage
  obtain ⟨region, hregion⟩ : ∃ region, txGetBuffer s = some region := by
    cases hregion : txGetBuffer s with
    | none =>
        change ¬ (txGetBuffer s).isNone = true at hdata
        simp [hregion] at hdata
    | some region => exact ⟨region, rfl⟩
  refine ⟨?_, ?_, ?_, huntruncated, ?_, ?_, ?_⟩
  · rw [hblob]
    exact hcontext
  · rw [hblob]
  · rw [hblob]
  · intro hempty
    have hlength := hB.length_content s.buffering
    rw [hempty] at hlength
    apply hnonzero
    rw [← UInt16.toNat_inj]
    exact huntruncated.trans hlength.symm
  · rw [hblob]
    exact hbytes
  · rw [← hbytes, messageBytes, hregion]
    rfl

theorem txGetItem_of_displays {s : Session B} (h : Displays s) (platform : Platform)
    (outKeyLen outValLen : UInt16) (pageIdx : UInt8) (out : ItemOutput) :
    txGetItem platform s 1 outKeyLen outValLen pageIdx out =
      let page := platform.pageStringHex outValLen (B.content s.buffering) pageIdx
      (.ok, ⟨snprintf outKeyLen (ascii "Txn") (cleanOutput outKeyLen outValLen out).outKey,
        page.1, page.2⟩) := by
  rw [← h.rendered]
  rfl

theorem pending_of_view {s : System B} {d : Device B} (h : Implements s d)
    (hpending : s.pending = true) (hview : s.app.view = some messageView) :
    d.pending = some .message := by
  have hsome := h.pending.symm.trans hpending
  cases hp : d.pending with
  | none => simp [hp] at hsome
  | some p =>
      cases p with
      | message => rfl
      | address data =>
          have haddress := (h.awaits _ hp).prepared.1
          change s.app.view = _ at haddress
          rw [hview] at haddress
          cases haddress

/-- What is rendered while a message waits for its approval is what the approval
signs, byte for byte. -/
theorem shown_bytes_are_signed_bytes (hB : B.AppendsOrRefuses)
    {start s : System B} (hstart : Starts start) {trace : List Entry}
    (run : Run (machine B) start trace s) (hpending : s.pending = true)
    (hview : s.app.view = some messageView) :
    Displays s.app.toSession ∧
    (∀ platform outKeyLen outValLen pageIdx out,
      let item := txGetItem platform s.app.toSession 1 outKeyLen outValLen pageIdx out
      let page := platform.pageStringHex outValLen (B.content s.app.buffering) pageIdx
      item.1 = .ok ∧ item.2.outVal = page.1 ∧ item.2.pageCount = page.2) ∧
    ∀ platform, ∃ s' o, HostSession.step s (.approve platform) = some (s', o) ∧
      o.calls = [.cryptoSign s.app.hdPath (B.content s.app.buffering),
        .osDeriveBip32WithSeedNoThrow s.app.hdPath] := by
  obtain ⟨d, himplements, htracks⟩ := run_tracks hB hstart run
  have hmessage := pending_of_view himplements hpending hview
  obtain ⟨-, -, lastPayload, initPayload, message, -, -, -, hholds⟩ :=
    htracks.reviewed hmessage
  have hprepared := (himplements.awaits _ hmessage).prepared
  rw [← himplements.session] at hholds
  have hdisplays :=
    displays_of_parsed hB hholds.capacity hprepared.2.1 hprepared.2.2
  refine ⟨hdisplays, ?_, ?_⟩
  · intro platform outKeyLen outValLen pageIdx out
    rw [txGetItem_of_displays hdisplays]
    exact ⟨rfl, rfl, rfl⟩
  · intro platform
    obtain ⟨s', hstep, -⟩ := step_approve himplements hmessage platform
    refine ⟨s', _, hstep, ?_⟩
    have hsigned := hholds.signedMessage_eq hB
    rw [← hholds.content] at hsigned
    change (Response.observation _ _).calls = _
    rw [calls_observation, serveApproval, serveSignature_calls, ← himplements.session,
      hsigned]
    rfl

theorem shown_bytes_are_signed_bytes_sample :
    Displays afterSampleLast.1.app.toSession ∧
      ramFlashBuffering.content afterSampleLast.1.app.buffering = [0xbc, 0xcd] :=
  ⟨(shown_bytes_are_signed_bytes
    ramFlashBuffering_appendsUpToCapacity.toAppendsOrRefuses starts_started
    run_sampleTrace (by decide) (by decide)).1, by decide⟩

end LedgerSovereign.DisplayedMessage
