import LedgerSovereign.DeviceProtocol
import LedgerSovereign.SampleDevice

namespace LedgerSovereign.AddressConfirmation

open LedgerSovereign.Actions
open LedgerSovereign.ApduHandler
open LedgerSovereign.ApplicationState
open LedgerSovereign.BufferingInterface
open LedgerSovereign.Constants
open LedgerSovereign.CryptoOutcomes
open LedgerSovereign.DeviceProtocol
open LedgerSovereign.HostSession
open LedgerSovereign.Parser
open LedgerSovereign.PlatformInterface
open LedgerSovereign.RequestSemantics
open LedgerSovereign.SampleDevice
open LedgerSovereign.TaggedBuffer

variable {B : Buffering}

theorem decodeSign_ne_getAddr (p1 : UInt8) (payload payload' : List UInt8)
    (confirm : Bool) : decodeSign p1 payload ≠ .getAddr confirm payload' := by
  unfold decodeSign
  split
  · rintro ⟨⟩
  · split
    · rintro ⟨⟩
    · split <;> rintro ⟨⟩

theorem decode_eq_getAddr {received payload : List UInt8} {confirm : Bool}
    (hne : received ≠ []) (h : decode received = .getAddr confirm payload) :
    ∃ p1 p2 lc, received = cla :: insGetAddr :: p1 :: p2 :: lc :: payload := by
  rcases decode_cases hne with
    ⟨c, rest, rfl, -, hdecode⟩ | ⟨c, ins, p1, p2, lc, payload', rfl⟩
  · rw [hdecode] at h
    split at h <;> cases h
  · rw [decode] at h
    split at h
    · cases h
    rename_i hclass
    obtain rfl := not_not.mp hclass
    split at h
    · cases h
    split at h
    · rename_i hins
      subst hins
      cases h
      exact ⟨p1, p2, lc, rfl⟩
    split at h
    · exact absurd h (decodeSign_ne_getAddr _ _ _ _)
    · cases h

theorem decode_set_p1 {received payload : List UInt8} {confirm : Bool}
    (hne : received ≠ []) (h : decode received = .getAddr confirm payload) :
    decode (received.set offsetP1 0) = .getAddr false payload := by
  obtain ⟨p1, p2, lc, rfl⟩ := decode_eq_getAddr hne h
  rfl

structure Addressable (platform : Platform) (payload data : List UInt8) :
    Prop where
  unlocked : platform.pinIsValidated = true
  long : 12 ≤ payload.length
  path : mainnet (pathOf payload) = true
  reply : addressReplyOf platform (pathOf payload) = .ok data

/-- What an address request is answered with. -/
inductive AddressResponse (platform : Platform) (payload : List UInt8) : Response → Prop
  | silent : AddressResponse platform payload .silence
  | refused (code : UInt16) : AddressResponse platform payload (.reply [] code)
  | replied {data : List UInt8} (h : Addressable platform payload data) :
      AddressResponse platform payload (.reply data apduCodeOk)
  | shown {data : List UInt8} (h : Addressable platform payload data) :
      AddressResponse platform payload (.addressReview data)

theorem getAddr_response (platform : Platform) (s : Session B) (confirm : Bool)
    (payload : List UInt8) :
    AddressResponse platform payload
      (serve platform s (.getAddr confirm payload)).response := by
  let P : Served B → Prop := fun served =>
    AddressResponse platform payload served.response
  apply whenUnlocked_rule (P := P)
  · exact fun _ => .refused _
  intro hunlocked
  apply servePath_rule (P := P)
  · exact fun _ => .refused _
  · exact fun _ _ => .refused _
  intro hlong hpath
  apply serveAddress_rule (P := P)
  · intro failure _
    match failure with
    | none => exact .refused _
    | some (.code e) => exact .refused _
    | some .ioReset => exact .silent
  · exact fun data hreply _ => .replied ⟨hunlocked, hlong, hpath, hreply⟩
  · exact fun data hreply _ => .shown ⟨hunlocked, hlong, hpath, hreply⟩

theorem addressable_of_review {platform : Platform} {s : Session B}
    {confirm : Bool} {payload data : List UInt8}
    (h : (serve platform s (.getAddr confirm payload)).response =
      .addressReview data) : Addressable platform payload data := by
  have hresponse := getAddr_response platform s confirm payload
  rw [h] at hresponse
  cases hresponse with
  | shown haddressable => exact haddressable

theorem serve_addressable {platform : Platform} {payload data : List UInt8}
    (h : Addressable platform payload data) (s : Session B) :
    (serve platform s (.getAddr false payload)).response =
      .reply data apduCodeOk := by
  have hshort : ¬ payload.length < 12 := by
    have hlong := h.long
    omega
  have hreply : addressReplyOf platform (withPath s payload).hdPath = .ok data :=
    h.reply
  simp [serve, whenUnlocked, h.unlocked, servePath, hshort, h.path, Served.after,
    serveAddress, hreply]

theorem shownAddress_eq {s : State B} {pubkey : List UInt8}
    {text : CText addressMaxLength} (hpubkey : pubkey.length = 32)
    (h : Awaits s (.address (pubkey ++ text.chars))) :
    shownAddress s = text.chars := by
  have hfits : text.chars.length < 66 := text.fits
  have hlength : (pubkey ++ text.chars).length < ioApduBufferSize := by
    rw [List.length_append, hpubkey]
    change _ < 260
    omega
  rw [shownAddress, h.buffer _ rfl, ← Buffer.store_zeros_terminator hlength]
  rw [List.length_append, hpubkey] at hlength
  change Buffer.cString _ 32 = _
  rw [← hpubkey]
  exact Buffer.cString_store _ pubkey text.noZero (by omega)

/-- A page of the address is a page of the text in the I/O buffer. -/
theorem addrGetItem_address (platform : Platform) (s : State B)
    (outKeyLen outValLen : UInt16) (pageIdx : UInt8) (out : ItemOutput) :
    let item := addrGetItem platform s 0 outKeyLen outValLen pageIdx out
    let page := platform.pageString outValLen (s.ioApduBuffer.cString 32) pageIdx
    item.1 = .ok ∧ item.2.outKey = snprintf outKeyLen (ascii "Address") out.outKey ∧
      item.2.outVal = page.1 ∧ item.2.pageCount = page.2 :=
  ⟨rfl, rfl, rfl, rfl⟩

/-- The pages of a review show the address that its approval returns, and that the
same request without a review returns; a rejection returns no byte of it. -/
theorem address_shown_is_address_returned {s s' : System B} {platform : Platform}
    {request : Apdu} {payload : List UInt8} {o : Observation}
    (hrequest : decode request.received = .getAddr true payload)
    (hstep : HostSession.step s (.apdu platform request) = some (s', o))
    (hopened : o.opened = some addressView) :
    ∃ (pubkey : List UInt8) (text : CText addressMaxLength) (reply : List UInt8),
      publicKeyOf platform (pathOf payload) = .ok pubkey ∧ pubkey.length = 32 ∧
      addressOf platform pubkey = .ok text ∧
      reply = pubkey ++ text.chars ++ codeBytes apduCodeOk ∧
      s'.app.ioApduBuffer.cString 32 =
        (reply.take s'.app.actionAddrResponseLen.toNat).drop 32 ∧
      (∀ platform' outKeyLen outValLen pageIdx out,
        let item := addrGetItem platform' s'.app 0 outKeyLen outValLen pageIdx out
        let page := platform'.pageString outValLen (s'.app.ioApduBuffer.cString 32)
          pageIdx
        item.1 = .ok ∧ item.2.outKey = snprintf outKeyLen (ascii "Address") out.outKey ∧
          item.2.outVal = page.1 ∧ item.2.pageCount = page.2) ∧
      (∀ platform', ∃ s'' o',
        HostSession.step s' (.approve platform') = some (s'', o') ∧
          o'.replyBytes = some reply) ∧
      (∀ (t : System B) (direct : Apdu), t.pending = false →
        direct.received = request.received.set offsetP1 0 →
        ∃ t' o', HostSession.step t (.apdu platform direct) = some (t', o') ∧
          o'.replyBytes = some reply) ∧
      (∃ s'' o', HostSession.step s' .reject = some (s'', o') ∧
        o'.replyBytes = some (codeBytes apduCodeCommandNotAllowed)) := by
  obtain ⟨hidle, himplements, rfl⟩ := step_serves hstep
  rw [hrequest] at himplements hopened
  obtain ⟨data, hresponse⟩ : ∃ data,
      (serve platform s.app.toSession (.getAddr true payload)).response =
        .addressReview data := by
    revert hopened
    rw [deliver]
    cases (serve platform s.app.toSession (.getAddr true payload)).response with
    | reply data code => rintro ⟨⟩
    | addressReview data => exact fun _ => ⟨data, rfl⟩
    | messageReview => rintro ⟨⟩
    | silence => rintro ⟨⟩
  have haddressable := addressable_of_review hresponse
  obtain ⟨pubkey, text, hkey, htext, hpubkey, rfl⟩ :=
    addressReplyOf_eq_ok haddressable.reply
  have hpending : (deliver (serve platform s.app.toSession
      (.getAddr true payload))).1.pending = some (.address (pubkey ++ text.chars)) := by
    simp only [deliver, hresponse]
    rfl
  have hawaits := himplements.awaits _ hpending
  obtain ⟨-, hlength, hshort⟩ := hawaits.prepared
  have hshown := shownAddress_eq hpubkey hawaits
  refine ⟨pubkey, text, _, hkey, hpubkey, htext, rfl, ?_, ?_, ?_, ?_, ?_⟩
  · rw [hlength, UInt16.toNat_ofNat', Nat.mod_eq_of_lt (by omega),
      List.take_left' rfl, List.drop_left' hpubkey]
    exact hshown
  · intro platform' outKeyLen outValLen pageIdx out
    exact addrGetItem_address platform' s'.app outKeyLen outValLen pageIdx out
  · intro platform'
    obtain ⟨s'', hstep', -⟩ := step_approve himplements hpending platform'
    exact ⟨s'', _, hstep', replyBytes_observation _ _ _⟩
  · intro t direct hidle' hdirect
    have hserves := (answer_serves platform direct t).2
    rw [hdirect, decode_set_p1 request.nonempty hrequest] at hserves
    refine ⟨_, _, step_apdu hidle' platform direct, ?_⟩
    rw [hserves, deliver, serve_addressable haddressable]
    exact replyBytes_observation _ _ _
  · obtain ⟨s'', hstep', -⟩ := step_reject himplements hpending
    exact ⟨s'', _, hstep', replyBytes_observation _ _ _⟩

def confirmedGetAddr : Apdu :=
  .command insGetAddr 1 (coinPath 1 true ++ [0xff]) (by decide)

def afterConfirmedGetAddr : System ramFlashBuffering × Observation :=
  answer samplePlatform confirmedGetAddr started

theorem address_shown_is_address_returned_sample :
    ∃ reply, afterConfirmedGetAddr.1.app.ioApduBuffer.cString 32 =
        (reply.take afterConfirmedGetAddr.1.app.actionAddrResponseLen.toNat).drop 32 ∧
      (addrGetItem samplePlatform afterConfirmedGetAddr.1.app 0 20 18 1
        ⟨[], [], 0⟩).2.outVal = (samplePlatform.pageString 18
          (afterConfirmedGetAddr.1.app.ioApduBuffer.cString 32) 1).1 ∧
      ∃ s o, HostSession.step afterConfirmedGetAddr.1 (.approve samplePlatform) =
        some (s, o) ∧ o.replyBytes = some reply := by
  have hopened : afterConfirmedGetAddr.2.opened = some addressView := by
    decide +kernel
  have hstep : HostSession.step started (.apdu samplePlatform confirmedGetAddr) =
      some (afterConfirmedGetAddr.1, afterConfirmedGetAddr.2) :=
    step_apdu rfl samplePlatform confirmedGetAddr
  have hrequest : decode confirmedGetAddr.received =
      .getAddr true (coinPath 1 true ++ [0xff]) := rfl
  have h := address_shown_is_address_returned hrequest hstep hopened
  revert h
  generalize afterConfirmedGetAddr = after
  rintro ⟨-, -, reply, -, -, -, -, hshown, hitem, happrove, -⟩
  exact ⟨reply, hshown, (hitem samplePlatform 20 18 1 ⟨[], [], 0⟩).2.2.1,
    happrove samplePlatform⟩

end LedgerSovereign.AddressConfirmation
