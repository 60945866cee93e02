import LedgerSovereign.DisplayedMessage
import LedgerSovereign.KeyEncoding

namespace LedgerSovereign.SecretErasure

open LedgerSovereign.Actions
open LedgerSovereign.ApplicationState
open LedgerSovereign.BufferingInterface
open LedgerSovereign.Constants
open LedgerSovereign.Crypto
open LedgerSovereign.CryptoOutcomes
open LedgerSovereign.DeviceProtocol
open LedgerSovereign.DisplayedMessage
open LedgerSovereign.HandlerCorrectness
open LedgerSovereign.HostSession
open LedgerSovereign.KeyEncoding
open LedgerSovereign.PlatformInterface
open LedgerSovereign.RequestSemantics
open LedgerSovereign.SampleDevice
open LedgerSovereign.SessionHistory
open LedgerSovereign.SigningIntegrity
open LedgerSovereign.TaggedBuffer
open LedgerSovereign.ThrowingPrograms
open LedgerSovereign.Transaction
open LedgerSovereign.TransitionRuns

section Functions

variable {n : Nat}

/-- The two objects that hold a private key, as `MEMZERO` leaves them. -/
structure Wiped (f : Frame n) : Prop where
  privateKeyData : ∀ b ∈ f.privateKeyData.toList, b = 0
  cxPrivateKey : ∀ b ∈ f.cxPrivateKey, b = 0

/-- What a function leaves when it returns `err`, with an output of `outLen` bytes. -/
structure Cleaned (outLen : UInt16) (err : ZxErr) (succeeded : Prop) (f : Frame n) :
    Prop where
  wiped : Wiped f
  succeeded : err = .ok ↔ succeeded
  erased : err ≠ .ok → ∀ b ∈ f.out.load 0 outLen.toNat, b = 0

theorem wiped_wipe (f : Frame n) : Wiped (wipe f) where
  privateKeyData _ hb := by
    simp only [wipe, Vector.toList_replicate] at hb
    exact List.eq_of_mem_replicate hb
  cxPrivateKey _ hb := List.eq_of_mem_replicate hb

/-- Both functions end behind the label, and a returned error comes with zeros. -/
theorem returned_behind_label {x : EStateM Thrown (Frame n) ZxErr} {outLen : UInt16}
    {err : ZxErr} {f f' : Frame n}
    (h : (x >>= Crypto.afterLabel outLen).run f = .ok err f') :
    ∃ g, x.run f = .ok err g ∧ Wiped f' ∧
      (err ≠ .ok → ∀ b ∈ f'.out.load 0 outLen.toNat, b = 0) := by
  rw [EStateM.run_bind] at h
  cases hx : x.run f with
  | error e g =>
      rw [hx] at h
      cases h
  | ok err' g =>
      rw [hx] at h
      dsimp only at h
      by_cases herr : err' = .ok
      · subst herr
        rw [afterLabel_run_ok] at h
        cases h
        exact ⟨g, rfl, wiped_wipe g, fun hne => absurd rfl hne⟩
      · rw [afterLabel_run_error outLen herr] at h
        cases h
        have hwiped := wiped_wipe g
        refine ⟨g, rfl, ⟨hwiped.1, hwiped.2⟩, fun _ b hb => ?_⟩
        exact g.out.eq_zero_of_mem_load_zero hb

theorem outcome_eq_ok_iff {α β : Type} {call : SdkCall α β} {a : α} :
    outcome call = .ok a ↔ call = .ok a := by
  cases call with
  | ok out => simp [outcome]
  | error out => simp [outcome]
  | throws e => simp [outcome]

/-- The calls that make the private key of a path succeed. -/
def KeySucceeds (platform : Platform) (path : HdPath) (key : List UInt8) : Prop :=
  ∃ data, platform.osDeriveBip32WithSeedNoThrow path = .ok data ∧
    platform.cxEcfpInitPrivateKeyNoThrow (data.toList.take scalarLenEd25519) = .ok key

/-- Every call of `crypto_extractPublicKey` succeeds. -/
def ExtractSucceeds (platform : Platform) (path : HdPath) : Prop :=
  ∃ key w pair, KeySucceeds platform path key ∧
    platform.cxEcfpInitPublicKeyNoThrow = .ok w ∧
    platform.cxEcfpGeneratePairNoThrow w key = .ok pair

/-- Every call of `crypto_sign` succeeds, and the last one gives `signature`. -/
def SignSucceeds (platform : Platform) (path : HdPath) (message : List UInt8)
    (signature : Vector UInt8 ed25519SignatureSize) : Prop :=
  ∃ key, KeySucceeds platform path key ∧
    platform.cxEddsaSignNoThrow key message = .ok signature

theorem privateKeyOf_eq_ok_iff {platform : Platform} {path : HdPath}
    {key : List UInt8} :
    privateKeyOf platform path = .ok key ↔ KeySucceeds platform path key := by
  simp only [privateKeyOf, KeySucceeds, except_bind_eq_ok, outcome_eq_ok_iff]

theorem signatureOf_eq_ok_iff {platform : Platform} {path : HdPath}
    {message : List UInt8} {signature : Vector UInt8 ed25519SignatureSize} :
    signatureOf platform path message = .ok signature ↔
      SignSucceeds platform path message signature := by
  simp only [signatureOf, SignSucceeds, except_bind_eq_ok, privateKeyOf_eq_ok_iff,
    outcome_eq_ok_iff]

theorem publicKeyOf_isOk_iff {platform : Platform} {path : HdPath} :
    (∃ pubkey, publicKeyOf platform path = .ok pubkey) ↔
      ExtractSucceeds platform path := by
  simp only [publicKeyOf, except_bind_eq_ok, privateKeyOf_eq_ok_iff, outcome_eq_ok_iff]
  constructor
  · rintro ⟨pubkey, key, hkey, w, hw, pair, hpair, -⟩
    exact ⟨key, w, pair, hkey, hw, hpair⟩
  · rintro ⟨key, w, pair, hkey, hw, hpair⟩
    exact ⟨_, key, hkey, w, hw, pair, hpair, rfl⟩

/-- A report is `zxerr_ok` exactly when the outcome is a value. -/
theorem ok_iff_of_reports {β : Type} {P : β → Frame n → Prop} {Q R : Frame n → Prop}
    {err : ZxErr} {f : Frame n} {o : Outcome β} (h : Reports P Q R (.ok err f) o) :
    err = .ok ↔ ∃ b, o = .ok b := by
  constructor
  · rintro rfl
    obtain ⟨b, hb, -⟩ := h.of_ok
    exact ⟨b, hb⟩
  · rintro ⟨b, rfl⟩
    obtain ⟨f', hresult, -⟩ := h
    cases hresult
    rfl

theorem cryptoExtractPublicKey_cleaned {platform : Platform} {path : HdPath}
    {pubKey : Pointer} {len : UInt16} {f f' : Frame n} {err : ZxErr}
    (hvalid : ¬ (pubKey = .null ∨ len.toNat < pkLen25519)) (hn : len.toNat ≤ n)
    (h : (cryptoExtractPublicKey platform path pubKey len).run f = .ok err f') :
    Cleaned len err (ExtractSucceeds platform path) f' := by
  have hlen : pkLen25519 = 32 := rfl
  rw [cryptoExtractPublicKey, if_neg hvalid, run_modify_bind] at h
  obtain ⟨g, hrun, hwiped, herased⟩ := returned_behind_label h
  refine ⟨hwiped, ?_, herased⟩
  rw [not_or] at hvalid
  have hreports := untilCatchCxError_reports
    (extractUntilLabel_agrees platform path (enter platform f) (by omega))
  rw [hrun] at hreports
  rw [ok_iff_of_reports hreports, publicKeyOf_isOk_iff]

theorem cryptoSign_cleaned {platform : Platform} {path : HdPath} {signature : Pointer}
    {maxlen messageLen : UInt16} {message : Option (List UInt8)} {f f' : Frame n}
    {err : ZxErr}
    (hvalid : ¬ (signature = .null ∨ message.isNone ∨
      maxlen.toNat < ed25519SignatureSize ∨ messageLen = 0))
    (h : (cryptoSign platform path signature maxlen message messageLen).run f =
      .ok err f') :
    Cleaned maxlen err
      (∃ result, SignSucceeds platform path
        ((message.getD []).take messageLen.toNat) result) f' := by
  have hsize : ed25519SignatureSize = 64 := rfl
  rw [cryptoSign, run_modify_bind, if_neg hvalid, run_modify_bind] at h
  obtain ⟨g, hrun, hwiped, herased⟩ := returned_behind_label h
  refine ⟨hwiped, ?_, herased⟩
  simp only [not_or] at hvalid
  have hmaxlen : 64 ≤ maxlen.toNat := by omega
  have hreports := untilCatchCxError_reports (signUntilLabel_agrees platform path
    ((message.getD []).take messageLen.toNat) (enter platform { f with
      calls := f.calls ++ [.cryptoSign path ((message.getD []).take messageLen.toNat)] })
    hmaxlen)
  rw [hrun] at hreports
  simp only [ok_iff_of_reports hreports, signatureOf_eq_ok_iff]

end Functions

section Replies

variable {B : Buffering}

/-- A call that `crypto_sign` makes fails: with an error, `none`, or an exception. -/
def CallFails (platform : Platform) (path : HdPath) (message : List UInt8)
    (failure : Option Thrown) : Prop :=
  outcome (platform.osDeriveBip32WithSeedNoThrow path) = .error failure ∨
  (∃ data, platform.osDeriveBip32WithSeedNoThrow path = .ok data ∧
    outcome (platform.cxEcfpInitPrivateKeyNoThrow (data.toList.take scalarLenEd25519)) =
      .error failure) ∨
  ∃ key, KeySucceeds platform path key ∧
    outcome (platform.cxEddsaSignNoThrow key message) = .error failure

theorem signatureOf_eq_error_iff {platform : Platform} {path : HdPath}
    {message : List UInt8} {failure : Option Thrown} :
    signatureOf platform path message = .error failure ↔
      CallFails platform path message failure := by
  simp only [signatureOf, CallFails, except_bind_eq_error, privateKeyOf_eq_ok_iff]
  rw [privateKeyOf, except_bind_eq_error, or_assoc]
  simp only [outcome_eq_ok_iff]

/-- A reply of `app_sign`: a signature that was completed, or the error alone when
there is no message or a call fails. -/
def SignReply (platform : Platform) (path : HdPath) (message reply : List UInt8) :
    Prop :=
  (∃ signature, SignSucceeds platform path message signature ∧
    reply = signature.toList ++ codeBytes apduCodeOk) ∨
  (message = [] ∨ CallFails platform path message none) ∧
    reply = codeBytes apduCodeSignVerifyError

/-- What an approval of a message is answered with: a reply, or nothing when a call
throws. -/
theorem serveSignature_cases (platform : Platform) (s : Session B) :
    (∃ data code, (serveSignature platform s).response = .reply data code ∧
      SignReply platform s.hdPath (signedMessage s) (data ++ codeBytes code)) ∨
    (serveSignature platform s).response = .silence ∧
      ∃ e, CallFails platform s.hdPath (signedMessage s) (some e) := by
  unfold serveSignature
  dsimp only
  split
  · rename_i signature hsignature
    exact .inl ⟨_, _, rfl, .inl ⟨signature, signatureOf_eq_ok_iff.mp hsignature, rfl⟩⟩
  · rename_i hfailed
    exact .inl ⟨_, _, rfl, .inr ⟨.inr (signatureOf_eq_error_iff.mp hfailed), rfl⟩⟩
  · rename_i e hthrown
    exact .inr ⟨rfl, e, signatureOf_eq_error_iff.mp hthrown⟩

theorem signedMessage_eq {s : Session B} (h : hasMessage s = true) :
    signedMessage s =
      ((messageBytes s).getD []).take (txGetBufferLength s).toUInt16.toNat := by
  rw [hasMessage_iff, not_or] at h
  cases hdata : B.data s.buffering with
  | none => simp [hdata] at h
  | some region => simp [signedMessage, messageBytes, txGetBuffer, Buffering.bytesAt, hdata,
      txGetBufferLength]

theorem message_eq_nil {s : Session B} (h : ¬ hasMessage s = true) :
    ((messageBytes s).getD []).take (txGetBufferLength s).toUInt16.toNat = [] := by
  rw [hasMessage_iff, not_not] at h
  rcases h with hlength | hdata
  · have hzero : (txGetBufferLength s).toUInt16 = 0 := hlength
    rw [hzero]
    rfl
  · have hnone : messageBytes s = none := by
      simpa [messageBytes, txGetBuffer] using hdata
    rw [hnone]
    exact List.take_nil

/-- Without a message, also with one whose length is zero in sixteen bits, nothing is
signed. -/
theorem appSign_refused (platform : Platform) {s : State B}
    (h : ¬ hasMessage s.toSession = true) :
    ∃ t, (appSign platform).run s =
      .ok (writtenCells (codeBytes apduCodeSignVerifyError)) t := by
  rw [hasMessage_iff, not_not] at h
  have hguard : Pointer.object = .null ∨ (messageBytes s.toSession).isNone ∨
      (UInt16.ofNat (ioApduBufferSize - 3)).toNat < ed25519SignatureSize ∨
      (txGetBufferLength s.toSession).toUInt16 = 0 := by
    rcases h with hlength | hdata
    · exact .inr (.inr (.inr hlength))
    · refine .inr (.inl ?_)
      simpa [messageBytes, txGetBuffer] using hdata
  rw [appSign, run_get_bind, EStateM.run_bind, withIoBuffer_run, cryptoSign,
    run_modify_bind, if_pos hguard]
  have hcode := setCode_ioExchange_run (s.fromFrame { ioFrame platform s with
    calls := s.calls ++ [.cryptoSign s.hdPath (((messageBytes s.toSession).getD []).take
      (txGetBufferLength s.toSession).toUInt16.toNat)] }) [] 2
    apduCodeSignVerifyError rfl rfl (by decide)
  exact ⟨_, hcode⟩

/-- How `app_sign` ends in any state. -/
theorem appSign_ends (platform : Platform) (s : State B) :
    let message := ((messageBytes s.toSession).getD []).take
      (txGetBufferLength s.toSession).toUInt16.toNat
    (∃ bytes t, (appSign platform).run s = .ok (writtenCells bytes) t ∧
      SignReply platform s.hdPath message bytes) ∨
    ∃ e t, (appSign platform).run s = .error e t ∧
      ∃ e', CallFails platform s.hdPath message (some e') := by
  intro message
  by_cases hmessage : hasMessage s.toSession = true
  · have hdelivers := appSign_delivers platform hmessage
    have hsigned : signedMessage s.toSession = message := signedMessage_eq hmessage
    rw [Delivers, serveApproval] at hdelivers
    rw [← hsigned]
    rcases serveSignature_cases platform s.toSession with
      ⟨data, code, hresponse, hreply⟩ | ⟨hresponse, hthrows⟩
    · rw [hresponse] at hdelivers
      obtain ⟨t, hrun, -⟩ := hdelivers
      exact .inl ⟨_, t, hrun, hreply⟩
    · rw [hresponse] at hdelivers
      obtain ⟨e, t, hrun, -⟩ := hdelivers
      exact .inr ⟨e, t, hrun, hthrows⟩
  · obtain ⟨t, hrun⟩ := appSign_refused platform hmessage
    exact .inl ⟨_, t, hrun, .inr ⟨.inl (message_eq_nil hmessage), rfl⟩⟩

/-- The answer to the approval of a message that is on the screen. -/
theorem approve_reply (hB : B.AppendsOrRefuses) {start s : System B}
    (hstart : Starts start) {trace : List Entry}
    (run : Run (machine B) start trace s) (hpending : s.pending = true)
    (hview : s.app.view = some messageView) (platform : Platform) :
    ∃ s' o, HostSession.step s (.approve platform) = some (s', o) ∧
      ((∃ reply, o.replyBytes = some reply ∧
        SignReply platform s.app.hdPath (B.content s.app.buffering) reply) ∨
      o.replyBytes = none ∧
        ∃ e, CallFails platform s.app.hdPath (B.content s.app.buffering) (some e)) := by
  obtain ⟨d, himplements, htracks⟩ := run_tracks hB hstart run
  have hmessage := pending_of_view himplements hpending hview
  obtain ⟨-, -, lastPayload, initPayload, message, -, -, -, hholds⟩ :=
    htracks.reviewed hmessage
  obtain ⟨s', hstep, -⟩ := step_approve himplements hmessage platform
  have hsigned := hholds.signedMessage_eq hB
  rw [← hholds.content] at hsigned
  rw [← himplements.session] at hsigned hstep
  refine ⟨s', _, hstep, ?_⟩
  rw [deliver, serveApproval, ← hsigned]
  rcases serveSignature_cases platform s.app.toSession with
    ⟨data, code, hresponse, hreply⟩ | ⟨hresponse, hthrows⟩
  · rw [hresponse]
    exact .inl ⟨_, replyBytes_observation _ _ _, hreply⟩
  · rw [hresponse]
    exact .inr ⟨rfl, hthrows⟩

/-- A crypto function that begins a derivation leaves no byte of a secret, returns
`zxerr_ok` only when all its calls succeeded, and otherwise leaves zeros for its
output.  So the reply to an approval is a completed signature or the error alone. -/
theorem no_secret_or_partial_output_remains (hB : B.AppendsOrRefuses) :
    (∀ (n : Nat) (platform : Platform) (path : HdPath) (pubKey : Pointer)
      (len : UInt16) (f f' : Frame n) (err : ZxErr), len.toNat ≤ n →
      (cryptoExtractPublicKey platform path pubKey len).run f = .ok err f' →
      ((pubKey = .null ∨ len.toNat < pkLen25519) ∧ err ≠ .ok ∧ f' = f) ∨
        Cleaned len err (ExtractSucceeds platform path) f') ∧
    (∀ (n : Nat) (platform : Platform) (path : HdPath) (signature : Pointer)
      (maxlen : UInt16) (message : Option (List UInt8)) (messageLen : UInt16)
      (f f' : Frame n) (err : ZxErr),
      (cryptoSign platform path signature maxlen message messageLen).run f =
        .ok err f' →
      let bytes := (message.getD []).take messageLen.toNat
      ((signature = .null ∨ message.isNone ∨ maxlen.toNat < ed25519SignatureSize ∨
          messageLen = 0) ∧ err ≠ .ok ∧
        f' = { f with calls := f.calls ++ [.cryptoSign path bytes] }) ∨
        Cleaned maxlen err (∃ result, SignSucceeds platform path bytes result) f') ∧
    (∀ (platform : Platform) (s : State B),
      let message := ((messageBytes s.toSession).getD []).take
        (txGetBufferLength s.toSession).toUInt16.toNat
      (∃ bytes t, (appSign platform).run s = .ok (writtenCells bytes) t ∧
        SignReply platform s.hdPath message bytes) ∨
      ∃ e t, (appSign platform).run s = .error e t ∧
        ∃ e', CallFails platform s.hdPath message (some e')) ∧
    ∀ (start s : System B) (trace : List Entry), Starts start →
      Run (machine B) start trace s → s.pending = true →
      s.app.view = some messageView → ∀ platform : Platform,
      ∃ s' o, HostSession.step s (.approve platform) = some (s', o) ∧
        ((∃ reply, o.replyBytes = some reply ∧
          SignReply platform s.app.hdPath (B.content s.app.buffering) reply) ∨
        o.replyBytes = none ∧
          ∃ e, CallFails platform s.app.hdPath (B.content s.app.buffering) (some e)) := by
  refine ⟨?_, ?_, appSign_ends, ?_⟩
  · intro n platform path pubKey len f f' err hn hrun
    by_cases hrefused : pubKey = .null ∨ len.toNat < pkLen25519
    · rw [cryptoExtractPublicKey, if_pos hrefused] at hrun
      cases hrun
      exact .inl ⟨hrefused, by decide, rfl⟩
    · exact .inr (cryptoExtractPublicKey_cleaned hrefused hn hrun)
  · intro n platform path signature maxlen message messageLen f f' err hrun bytes
    by_cases hrefused : signature = .null ∨ message.isNone ∨
        maxlen.toNat < ed25519SignatureSize ∨ messageLen = 0
    · rw [cryptoSign, run_modify_bind, if_pos hrefused] at hrun
      cases hrun
      exact .inl ⟨hrefused, by decide, rfl⟩
    · exact .inr (cryptoSign_cleaned hrefused hrun)
  · intro start s trace hstart run hpending hview platform
    exact approve_reply hB hstart run hpending hview platform

/-- A device whose signing call fails halfway. -/
def failingSigner : Platform :=
  { samplePlatform with
    cxEddsaSignNoThrow := fun key _ => .error (key.take 32 ++ [1, 2, 3]) }

/-- The signing call fails halfway, and an approval on another device is signed. -/
theorem no_secret_or_partial_output_remains_sample :
    (∃ f', (cryptoSign failingSigner (Vector.replicate 3 5) .object 64
        (some [0xbc, 0xcd]) 2).run (sampleFrame (List.replicate 98 0xff)) =
          .ok .unknown f' ∧
      Wiped f' ∧ ∀ b ∈ f'.out.load 0 64, b = 0) ∧
    ∃ reply, afterSampleApproval.2.replyBytes = some reply ∧
      SignReply samplePlatform afterSampleLast.1.app.hdPath
        (ramFlashBuffering.content afterSampleLast.1.app.buffering) reply := by
  obtain ⟨-, hsign, -, happrove⟩ := no_secret_or_partial_output_remains
    ramFlashBuffering_appendsUpToCapacity.toAppendsOrRefuses
  constructor
  · obtain ⟨f', hrun⟩ : ∃ f', (cryptoSign failingSigner (Vector.replicate 3 5) .object 64
        (some [0xbc, 0xcd]) 2).run (sampleFrame (List.replicate 98 0xff)) =
          .ok .unknown f' := ⟨_, rfl⟩
    rcases hsign 98 failingSigner _ _ _ _ _ _ f' _ hrun with ⟨hrefused, -, -⟩ | hcleaned
    · exact absurd hrefused (by decide)
    · exact ⟨f', hrun, hcleaned.wiped, hcleaned.erased (by decide)⟩
  · obtain ⟨s', o, hstep, hreply⟩ := happrove started afterSampleLast.1 sampleTrace
      starts_started run_sampleTrace (by decide) (by decide) samplePlatform
    obtain ⟨rfl, rfl⟩ := Prod.mk.inj (Option.some.inj (step_sampleApproval.symm.trans hstep))
    rcases hreply with hreply | ⟨hnone, -⟩
    · exact hreply
    · have hsome : afterSampleApproval.2.replyBytes.isSome = true := by decide +kernel
      rw [hnone] at hsome
      cases hsome

end Replies

end LedgerSovereign.SecretErasure
