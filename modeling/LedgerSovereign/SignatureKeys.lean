import LedgerSovereign.AddressDecoding
import LedgerSovereign.DisplayedText
import LedgerSovereign.KeyEncoding
import LedgerSovereign.SecretErasure

namespace LedgerSovereign.SignatureKeys

open LedgerSovereign.AddressConfirmation
open LedgerSovereign.AddressDecoding
open LedgerSovereign.ApplicationState
open LedgerSovereign.BufferingInterface
open LedgerSovereign.Constants
open LedgerSovereign.CryptoOutcomes
open LedgerSovereign.DeviceProtocol
open LedgerSovereign.DisplayedText
open LedgerSovereign.HostSession
open LedgerSovereign.KeyEncoding
open LedgerSovereign.LittleEndian
open LedgerSovereign.PlatformInterface
open LedgerSovereign.RequestSemantics
open LedgerSovereign.SampleDevice
open LedgerSovereign.SecretErasure
open LedgerSovereign.SessionHistory
open LedgerSovereign.SigningIntegrity
open LedgerSovereign.ThrowingPrograms
open LedgerSovereign.TransitionRuns

/-- What checks a signature: from an encoded point, a message and the signature. -/
abbrev Verifier := (key message signature : List UInt8) → Bool

/-- The SDK makes the key pair and the signatures of one private key.  A signature
verifies under the encoding of the point: `y`, with the parity of `x` in bit 255. -/
structure SignsVerifiably (platform : Platform) (verify : Verifier) : Prop where
  pair : ∀ w key w' key', platform.cxEcfpGeneratePairNoThrow w key = .ok (w', key') →
    ∃ x y, w' = uncompressed x y ∧ y < 2 ^ 255 ∧ ∀ message signature,
      platform.cxEddsaSignNoThrow key message = .ok signature →
        verify (bytesOf 32 (y + 2 ^ 255 * (x % 2))) message signature.toList = true

section Keys

variable {platform : Platform} {verify : Verifier} {path : HdPath}

/-- Both commands start from one private key. -/
theorem verify_of_outcomes (h : SignsVerifiably platform verify) {key message : List UInt8}
    {signature : Vector UInt8 ed25519SignatureSize}
    (hkey : publicKeyOf platform path = .ok key)
    (hsignature : signatureOf platform path message = .ok signature) :
    verify key message signature.toList = true := by
  simp only [publicKeyOf, signatureOf, except_bind_eq_ok] at hkey hsignature
  obtain ⟨privateKey, hprivate, w, -, ⟨w', privateKey'⟩, hpair, hencoded⟩ := hkey
  obtain ⟨privateKey₂, hprivate₂, hsigned⟩ := hsignature
  obtain rfl : privateKey = privateKey₂ := by
    rw [hprivate] at hprivate₂
    exact Except.ok.inj hprivate₂
  obtain ⟨x, y, rfl, hy, hverify⟩ :=
    h.pair w privateKey w' privateKey' (outcome_eq_ok_iff.mp hpair)
  have hkey : key = bytesOf 32 (y + 2 ^ 255 * (x % 2)) := by
    rw [← encodePoint_uncompressed x hy]
    exact (Except.ok.inj hencoded).symm
  rw [hkey]
  exact hverify message signature (outcome_eq_ok_iff.mp hsigned)

end Keys

variable {B : Buffering}

/-- What an approval replies when it is no status word alone. -/
theorem serveSignature_replied {platform : Platform} {s : Session B} {reply : List UInt8}
    (hreply : (deliver (serveSignature platform s)).2.replyBytes = some reply)
    (hlength : reply.length ≠ 2) :
    ∃ signature, signatureOf platform s.hdPath (signedMessage s) = .ok signature ∧
      reply = signature.toList ++ codeBytes apduCodeOk := by
  rw [serveSignature] at hreply
  cases hsignature : signatureOf platform s.hdPath (signedMessage s) with
  | ok signature =>
      simp only [hsignature, deliver, replyBytes_observation, Option.some.injEq] at hreply
      exact ⟨signature, rfl, hreply.symm⟩
  | error failure =>
      rw [hsignature] at hreply
      cases failure with
      | none =>
          simp only [deliver, replyBytes_observation, Option.some.injEq] at hreply
          rw [← hreply] at hlength
          exact absurd rfl hlength
      | some e => cases hreply

/-- In every run, a signature that an approval returns is one of what the host sent,
and it verifies under the key in any reply to an address request for the same path,
on a device with the same keys. -/
theorem signature_verifies_under_replied_key (hB : B.AppendsOrRefuses)
    {platform platform' : Platform} {verify : Verifier}
    (hverifies : SignsVerifiably platform verify)
    (hkeys : publicKeyOf platform' = publicKeyOf platform) {start s : System B}
    (hstart : Starts start) {before after : List Entry} {o : Observation}
    (run : Run (machine B) start (before ++ (.approve platform, o) :: after) s)
    {path : HdPath} {message reply : List UInt8}
    (hsign : Call.cryptoSign path message ∈ o.calls)
    (hreply : o.replyBytes = some reply) (hlength : reply.length ≠ 2) :
    ∃ initPayload signature, Sent before initPayload message ∧
      path = pathOf initPayload ∧ signature.length = ed25519SignatureSize ∧
      reply = signature ++ codeBytes apduCodeOk ∧
      ∀ (B' : Buffering) (payload addressReply : List UInt8),
        RepliesToGetAddr B' platform' payload addressReply → addressReply.length ≠ 2 →
        pathOf payload = path →
        ∃ key rest, addressReply = key ++ rest ∧ key.length = pkLen25519 ∧
          verify key message signature = true := by
  obtain ⟨t, t', hbefore, hstep, -⟩ := run.step_at
  obtain ⟨d, himplements, htracks⟩ := run_tracks hB hstart hbefore
  obtain ⟨d', hstep', -⟩ := (simulation B).step himplements hstep
  change Device.step d (visible (.approve platform)) = _ at hstep'
  obtain ⟨-, hpending, -, rfl, rfl⟩ := step_signs hstep' hsign
  obtain ⟨earlier, last, lastPayload, initPayload, accepted, hsplit, hlast, hdrafted,
    hholds⟩ := htracks.reviewed hpending
  have hdelivered : deliver (serveSignature platform d.session) = (d', o) := by
    change d.pending.map (fun p => deliver (serveApproval platform d.session p)) = _ at hstep'
    rw [hpending] at hstep'
    exact Option.some.inj hstep'
  obtain rfl : (deliver (serveSignature platform d.session)).2 = o := by rw [hdelivered]
  obtain ⟨signature, hsignature, rfl⟩ := serveSignature_replied hreply hlength
  refine ⟨initPayload, signature.toList, ?_, hholds.path, Vector.length_toList, rfl, ?_⟩
  · exact ⟨earlier, last, lastPayload, accepted, hsplit, hlast, hdrafted,
      hholds.signedMessage_eq hB⟩
  · intro B' payload addressReply haddress hlong hpath
    obtain hshort | ⟨data, haddressable, rfl⟩ := reply_cases haddress
    · exact absurd hshort hlong
    · obtain ⟨key, text, hkey, -, hkeyLength, rfl⟩ :=
        addressReplyOf_eq_ok haddressable.reply
      rw [hkeys, hpath] at hkey
      exact ⟨key, text.chars ++ codeBytes apduCodeOk, List.append_assoc _ _ _, hkeyLength,
        verify_of_outcomes hverifies hkey hsignature⟩

/-- A device whose signatures are made of the encoded key and the message. -/
def signingPlatform : Platform :=
  { encodingPlatform with
    cxEcfpGeneratePairNoThrow := fun _ key =>
      .ok (uncompressed 1 (littleEndian key % 2 ^ 255), key)
    cxEddsaSignNoThrow := fun key message =>
      .ok (vectorOf 64 (littleEndian key % 2 ^ 255 + 2 ^ 255 +
        256 ^ 32 * littleEndian message)) }

def sampleVerifier : Verifier := fun key message signature =>
  signature == bytesOf 64 (littleEndian key + 256 ^ 32 * littleEndian message)

theorem signingPlatform_signsVerifiably : SignsVerifiably signingPlatform sampleVerifier where
  pair := by
    intro w key w' key' hpair
    obtain ⟨rfl, rfl⟩ := Prod.mk.inj (SdkCall.ok.inj hpair)
    have hy : littleEndian key % 2 ^ 255 < 2 ^ 255 := Nat.mod_lt _ (Nat.two_pow_pos 255)
    refine ⟨1, littleEndian key % 2 ^ 255, rfl, hy, ?_⟩
    intro message signature hsign
    cases hsign
    rw [sampleVerifier, littleEndian_bytesOf (encoding_lt hy)]
    exact beq_self_eq_true _

theorem signingPlatform_encodes : EncodesBech32 signingPlatform :=
  ⟨encodingPlatform_encodes.encodes⟩

theorem signingPlatform_addressable :
    ∃ data, Addressable signingPlatform (coinPath 1 true) data := by
  obtain ⟨pubkey, hkey⟩ : ∃ pubkey,
      publicKeyOf signingPlatform (pathOf (coinPath 1 true)) = .ok pubkey := ⟨_, rfl⟩
  obtain ⟨text, htext, -⟩ := addressOf_eq signingPlatform_encodes pubkey
  refine ⟨pubkey ++ text.chars, rfl, by decide, by decide, ?_⟩
  rw [addressReplyOf, hkey]
  change addressOf signingPlatform pubkey >>= _ = _
  rw [htext]
  rfl

/-- The first request of a host. -/
theorem repliesToGetAddr_started {platform : Platform} {request : Apdu}
    {payload data : List UInt8} (hrequest : decode request.received = .getAddr false payload)
    (h : Addressable platform payload data) :
    RepliesToGetAddr ramFlashBuffering platform payload (data ++ codeBytes apduCodeOk) := by
  have hserves := (answer_serves platform request started).2
  rw [hrequest, deliver, serve_addressable h] at hserves
  refine ⟨started, _, request, false, _, hrequest,
    step_apdu starts_started.1 platform request, .inl ?_⟩
  rw [hserves]
  exact replyBytes_observation _ _ _

def afterSigningApproval : System ramFlashBuffering × Observation :=
  afterCallback ((acceptCallback signingPlatform .appSign).run
    { afterSampleLast.1.app with calls := [] })

theorem signature_verifies_under_replied_key_sample :
    ∃ key rest signature,
      RepliesToGetAddr ramFlashBuffering signingPlatform (coinPath 1 true) (key ++ rest) ∧
      afterSigningApproval.2.replyBytes = some (signature ++ codeBytes apduCodeOk) ∧
      sampleVerifier key [0xbc, 0xcd] signature = true := by
  have run : Run (machine ramFlashBuffering) started
      (sampleTrace ++ [(.approve signingPlatform, afterSigningApproval.2)])
      afterSigningApproval.1 :=
    run_sampleTrace.snoc rfl
  have hsign : Call.cryptoSign (pathOf (coinPath 1 true)) [0xbc, 0xcd] ∈
      afterSigningApproval.2.calls := by
    decide +kernel
  obtain ⟨reply, hreply, hlength⟩ :
      ∃ reply, afterSigningApproval.2.replyBytes = some reply ∧ reply.length ≠ 2 := by
    refine ⟨_, rfl, ?_⟩
    decide +kernel
  obtain ⟨_, signature, -, -, -, rfl, hverifies⟩ :=
    signature_verifies_under_replied_key
      ramFlashBuffering_appendsUpToCapacity.toAppendsOrRefuses
      signingPlatform_signsVerifiably rfl starts_started run hsign hreply hlength
  have hrequest : decode (Apdu.command insGetAddr 0 (coinPath 1 true)
      (by decide)).received = .getAddr false (coinPath 1 true) := rfl
  obtain ⟨data, haddressable⟩ := signingPlatform_addressable
  have haddress := repliesToGetAddr_started hrequest haddressable
  have hlong : (data ++ codeBytes apduCodeOk).length ≠ 2 := by
    have hdata := (length_of_addressReplyOf haddressable.reply).1
    rw [List.length_append]
    omega
  obtain ⟨key, rest, hsplit, -, hverify⟩ := hverifies _ _ _ haddress hlong rfl
  rw [hsplit] at haddress
  exact ⟨key, rest, signature, haddress, hreply, hverify⟩

end LedgerSovereign.SignatureKeys
