import LedgerSovereign.AddressConfirmation
import LedgerSovereign.Bech32

namespace LedgerSovereign.AddressDecoding

open LedgerSovereign.AddressConfirmation
open LedgerSovereign.ApplicationState
open LedgerSovereign.Bech32 hiding decode
open LedgerSovereign.BufferingInterface
open LedgerSovereign.Constants
open LedgerSovereign.Crypto
open LedgerSovereign.CryptoOutcomes
open LedgerSovereign.DeviceProtocol
open LedgerSovereign.HostSession
open LedgerSovereign.PlatformInterface
open LedgerSovereign.RequestSemantics
open LedgerSovereign.SampleDevice
open LedgerSovereign.TaggedBuffer

def constantOf : Bech32Encoding → BitVec 30
  | .bech32 => bech32Constant
  | .bech32m => bech32mConstant

/-- zxlib's encoder, on outputs that are large enough for its overestimate of the
text, and on at most 64 bytes. -/
structure EncodesBech32 (platform : Platform) : Prop where
  encodes : ∀ (outputLen : Nat) (hrp input : List UInt8) (encoding : Bech32Encoding),
    ValidPrefix hrp → input.length ≤ 64 →
    hrp.length + 2 * input.length + 7 ≤ outputLen →
    (encodeBytes (constantOf encoding) hrp input).length ≤ 90 →
    (encodeBytes (constantOf encoding) hrp input).length < outputLen →
    ∃ text, platform.bech32EncodeFromBytes outputLen hrp input true encoding =
        .ok text ∧
      text.chars = encodeBytes (constantOf encoding) hrp input

/-- The part of a key's digest that the address carries. -/
def keyHash (platform : Platform) (key : List UInt8) : List UInt8 :=
  (platform.cxHashSha256 key).toList.take pubkeyShaLen

structure IsAddress (platform : Platform) (key text : List UInt8) : Prop where
  length : text.length = 55
  starts : ascii "sov1" <+: text
  decodes : decodeBytes bech32mConstant text = some (hrp, keyHash platform key)

theorem length_keyHash (platform : Platform) (key : List UInt8) :
    (keyHash platform key).length = 28 := by
  simp [keyHash, pubkeyShaLen]

theorem validPrefix_hrp : ValidPrefix hrp where
  nonempty := List.cons_ne_nil _ _
  printable := by decide +kernel

theorem isAddress_encodeBytes (platform : Platform) (key : List UInt8) :
    IsAddress platform key (encodeBytes bech32mConstant hrp (keyHash platform key)) := by
  have hlength : (encodeBytes bech32mConstant hrp (keyHash platform key)).length = 55 := by
    rw [length_encodeBytes, length_keyHash]
    rfl
  refine ⟨hlength, ⟨_, (List.append_cons hrp separator _).symm⟩,
    decodeBytes_encodeBytes _ validPrefix_hrp (by omega)⟩

variable {platform : Platform}

/-- On every key, the encoder succeeds in the 66 bytes that it is given. -/
theorem addressOf_eq (h : EncodesBech32 platform) (key : List UInt8) :
    ∃ text, addressOf platform key = .ok text ∧
      text.chars = encodeBytes bech32mConstant hrp (keyHash platform key) := by
  have hlength := (isAddress_encodeBytes platform key).length
  have hhash := length_keyHash platform key
  obtain ⟨text, hok, hchars⟩ := h.encodes addressMaxLength hrp (keyHash platform key)
    .bech32m validPrefix_hrp (by omega) (by rw [hhash]; decide)
    (by rw [constantOf]; omega) (by rw [constantOf, hlength]; decide)
  have hok' : platform.bech32EncodeFromBytes addressMaxLength hrp
      ((platform.cxHashSha256 key).toList.take pubkeyShaLen) true .bech32m =
        .ok text := hok
  refine ⟨text, ?_, hchars⟩
  rw [addressOf, hok']

/-- A call of `crypto_computeAddress` with room for an address.  Something may lie
behind the key. -/
structure AddressCall where
  key : Vector UInt8 32
  behind : List UInt8
  addressLen : UInt16
  n : Nat
  out : Buffer n
  room : 66 ≤ addressLen.toNat
  fits : addressLen.toNat ≤ n

def AddressCall.result (platform : Platform) (call : AddressCall) :
    ZxErr × Buffer call.n :=
  cryptoComputeAddress platform .object call.addressLen
    (some (call.key.toList ++ call.behind)) call.out

def AddressCall.address (platform : Platform) (call : AddressCall) : List UInt8 :=
  (call.result platform).2.cString 0

theorem AddressCall.result_eq (h : EncodesBech32 platform) (call : AddressCall) :
    (call.result platform).1 = .ok ∧
      call.address platform =
        encodeBytes bech32mConstant hrp (keyHash platform call.key.toList) ∧
      (call.result platform).2.load 0 call.addressLen.toNat = call.address platform ++
        List.replicate (call.addressLen.toNat - (call.address platform).length) 0 := by
  obtain ⟨text, hok, hchars⟩ := addressOf_eq h call.key.toList
  have hroom := call.room
  have hfits := call.fits
  have htext : text.chars.length < 66 := text.fits
  have hstores := cryptoComputeAddress_stores platform (call.key.toList ++ call.behind)
    call.room call.out
  rw [List.take_left' Vector.length_toList, hok] at hstores
  change call.result platform = _ at hstores
  have hend : ([] : List UInt8).length + text.chars.length < call.n := by
    rw [List.length_nil]
    omega
  have haddress : call.address platform = text.chars := by
    rw [AddressCall.address, hstores]
    exact Buffer.cString_store _ [] text.noZero hend
  refine ⟨by rw [hstores], haddress.trans hchars, ?_⟩
  have hlength : (text.chars ++ [0]).length = text.chars.length + 1 := List.length_append
  have hzeros : call.addressLen.toNat - text.chars.length =
      call.addressLen.toNat - (text.chars.length + 1) + 1 := by omega
  rw [haddress, hstores, Buffer.load_store_zero _ (by omega) hfits, hlength, hzeros,
    List.replicate_succ, List.append_assoc, List.singleton_append]

/-- The reply to an address request, or to what the user decides about the review
that it opens. -/
def RepliesToGetAddr (B : Buffering) (platform : Platform) (payload reply : List UInt8) :
    Prop :=
  ∃ (s s' : System B) (request : Apdu) (confirm : Bool) (o : Observation),
    decode request.received = .getAddr confirm payload ∧
    HostSession.step s (.apdu platform request) = some (s', o) ∧
    (o.replyBytes = some reply ∨
      ∃ event s'' o', s'.pending = true ∧
        HostSession.step s' event = some (s'', o') ∧ o'.replyBytes = some reply)

structure AddressReply where
  key : Vector UInt8 32
  address : List UInt8
  status : UInt16

def AddressReply.bytes (r : AddressReply) : List UInt8 :=
  r.key.toList ++ r.address ++ codeBytes r.status

theorem AddressReply.bytes_inj {r r' : AddressReply} (h : r.bytes = r'.bytes) :
    r = r' := by
  obtain ⟨key, address, status⟩ := r
  obtain ⟨key', address', status'⟩ := r'
  obtain ⟨hdata, hstatus⟩ := List.append_inj' h rfl
  obtain ⟨hkey, rfl⟩ := List.append_inj hdata (by simp)
  obtain rfl := Vector.toList_inj.mp hkey
  obtain rfl := codeBytes_inj hstatus
  rfl

/-- The reply of an approved request, or of one that needs no approval. -/
theorem reply_splits (h : EncodesBech32 platform) {payload data : List UInt8}
    (haddressable : Addressable platform payload data) :
    (data ++ codeBytes apduCodeOk).length = 89 ∧
      ∃ r : AddressReply, r.bytes = data ++ codeBytes apduCodeOk ∧
        r.status = apduCodeOk ∧
        publicKeyOf platform (pathOf payload) = .ok r.key.toList ∧
        IsAddress platform r.key.toList r.address := by
  obtain ⟨pubkey, text, hkey, htext, hpubkey, rfl⟩ :=
    addressReplyOf_eq_ok haddressable.reply
  obtain ⟨text', htext', hchars⟩ := addressOf_eq h pubkey
  rw [htext] at htext'
  cases htext'
  have haddress := isAddress_encodeBytes platform pubkey
  rw [← hchars] at haddress
  have hlist : (Vector.mk pubkey.toArray hpubkey).toList = pubkey := by simp
  refine ⟨?_, ⟨⟨pubkey.toArray, hpubkey⟩, text.chars, apduCodeOk⟩, ?_, rfl, ?_, ?_⟩
  · simp [hpubkey, haddress.length, codeBytes]
  · simp [AddressReply.bytes]
  · simpa using hkey
  · simpa using haddress

/-- What can follow an address review: its approval, or its rejection. -/
theorem reply_of_review {B : Buffering} {s s' : System B} {session : Session B}
    {data reply : List UInt8} {event : Event} {o : Observation}
    (himplements : Implements s ⟨session, some (.address data)⟩)
    (hstep : HostSession.step s event = some (s', o)) (hreply : o.replyBytes = some reply) :
    reply = data ++ codeBytes apduCodeOk ∨
      reply = codeBytes apduCodeCommandNotAllowed := by
  rcases step_corresponds himplements event with
    ⟨hnone, -⟩ | ⟨s₁, d₁, o₁, hstep₁, hdevice, -⟩
  · rw [hstep] at hnone
    cases hnone
  rw [hstep, Option.some.injEq, Prod.mk.injEq] at hstep₁
  obtain ⟨rfl, rfl⟩ := hstep₁
  rcases Device.step_cases hdevice with
    ⟨_, _, -, hidle, -⟩ | ⟨platform, p, -, hp, hdeliver⟩ | ⟨p, -, hp, hdeliver⟩
  · cases hidle
  · cases hp
    obtain ⟨-, rfl⟩ := Prod.ext_iff.mp hdeliver
    left
    simpa [deliver, serveApproval] using hreply.symm
  · obtain ⟨-, rfl⟩ := Prod.ext_iff.mp hdeliver
    right
    simpa [deliver, refuse] using hreply.symm

theorem reply_cases {B : Buffering} {payload reply : List UInt8}
    (h : RepliesToGetAddr B platform payload reply) :
    reply.length = 2 ∨ ∃ data, Addressable platform payload data ∧
      reply = data ++ codeBytes apduCodeOk := by
  obtain ⟨s, s', request, confirm, o, hrequest, hstep, hreply⟩ := h
  obtain ⟨-, himplements, rfl⟩ := step_serves hstep
  rw [hrequest] at himplements hreply
  have hresponse := getAddr_response platform s.app.toSession confirm payload
  have hpending := himplements.pending
  simp only [deliver] at himplements hreply hpending
  generalize (serve platform s.app.toSession (.getAddr confirm payload)).response =
    response at hresponse himplements hreply hpending
  rcases hreply with hnow | ⟨event, s'', o', hwaits, hstep', hlater⟩
  · cases hresponse with
    | silent => cases hnow
    | refused code =>
        rw [replyBytes_observation, Option.some.injEq] at hnow
        exact .inl (by rw [← hnow]; rfl)
    | replied haddressable =>
        rw [replyBytes_observation, Option.some.injEq] at hnow
        exact .inr ⟨_, haddressable, hnow.symm⟩
    | shown haddressable => cases hnow
  · rw [hpending] at hwaits
    cases hresponse with
    | silent => cases hwaits
    | refused code => cases hwaits
    | replied haddressable => cases hwaits
    | shown haddressable =>
        rcases reply_of_review himplements hstep' hlater with happroved | hrejected
        · exact .inr ⟨_, haddressable, happroved⟩
        · exact .inl (by rw [hrejected]; rfl)

/-- Every call with room for an address leaves one of 55 characters, which decodes to
the hash of the key.  Two keys have one address exactly when they have one hash.  A
reply to an address request is a status word, or it is 89 bytes long and splits in
one way: into a key, an address that decodes to the hash of that key, and 0x9000. -/
theorem address_decodes_to_key_hash (h : EncodesBech32 platform) :
    (∀ call : AddressCall, (call.result platform).1 = .ok ∧
      IsAddress platform call.key.toList (call.address platform) ∧
      (call.result platform).2.load 0 call.addressLen.toNat =
        call.address platform ++ List.replicate (call.addressLen.toNat - 55) 0) ∧
    (∀ a b : AddressCall, a.address platform = b.address platform ↔
      keyHash platform a.key.toList = keyHash platform b.key.toList) ∧
    ∀ (B : Buffering) (payload reply : List UInt8),
      RepliesToGetAddr B platform payload reply → reply.length ≠ 2 →
      reply.length = 89 ∧ ∃ r : AddressReply, r.bytes = reply ∧
        r.status = apduCodeOk ∧
        publicKeyOf platform (pathOf payload) = .ok r.key.toList ∧
        IsAddress platform r.key.toList r.address ∧
        ∀ r' : AddressReply, r'.bytes = reply → r' = r := by
  have hcall : ∀ call : AddressCall,
      IsAddress platform call.key.toList (call.address platform) := by
    intro call
    rw [(call.result_eq h).2.1]
    exact isAddress_encodeBytes platform _
  refine ⟨?_, ?_, ?_⟩
  · intro call
    obtain ⟨hok, -, hload⟩ := call.result_eq h
    rw [(hcall call).length] at hload
    exact ⟨hok, hcall call, hload⟩
  · intro a b
    constructor
    · intro hsame
      have hdecodes := (hcall a).decodes
      rw [hsame, (hcall b).decodes] at hdecodes
      exact (Prod.ext_iff.mp (Option.some.inj hdecodes)).2.symm
    · intro hsame
      rw [(a.result_eq h).2.1, (b.result_eq h).2.1, hsame]
  · intro B payload reply hreply hlength
    obtain hshort | ⟨data, haddressable, rfl⟩ := reply_cases hreply
    · exact absurd hshort hlength
    · obtain ⟨hlength, r, hbytes, hstatus, hkey, haddress⟩ := reply_splits h haddressable
      exact ⟨hlength, r, hbytes, hstatus, hkey, haddress,
        fun r' hr' => AddressReply.bytes_inj (hr'.trans hbytes.symm)⟩

theorem bufferTooSmall_ne_ok : ZxErr.bufferTooSmall ≠ .ok := by
  decide

/-- A device with zxlib's encoder. -/
def encodingPlatform : Platform :=
  { samplePlatform with
    bech32EncodeFromBytes := fun outputLen hrp input _ encoding =>
      let chars := encodeBytes (constantOf encoding) hrp input
      if 64 < input.length ∨ outputLen < hrp.length + 2 * input.length + 7 then
        .failed .bufferTooSmall bufferTooSmall_ne_ok []
      else if h : chars.length < outputLen ∧ (0 : UInt8) ∉ chars then
        .ok ⟨chars, h.1, h.2⟩
      else .failed .bufferTooSmall bufferTooSmall_ne_ok [] }

theorem encodingPlatform_encodes : EncodesBech32 encodingPlatform where
  encodes := by
    intro outputLen hrp input encoding hprefix hinput hroom hlength hfits
    have hzero : (0 : UInt8) ∉ encodeBytes (constantOf encoding) hrp input := by
      intro hmem
      exact absurd (printable_encode hprefix hmem).1 (by decide)
    refine ⟨⟨_, hfits, hzero⟩, ?_, rfl⟩
    simp only [encodingPlatform]
    rw [if_neg (by omega), dif_pos ⟨hfits, hzero⟩]

def sampleCall (b : UInt8) : AddressCall where
  key := Vector.replicate 32 b
  behind := []
  addressLen := 66
  n := 66
  out := Buffer.zeros 66
  room := by decide
  fits := by decide

theorem addressable_sample :
    ∃ data, Addressable encodingPlatform (coinPath 2 true) data := by
  obtain ⟨pubkey, hkey⟩ : ∃ pubkey,
      publicKeyOf encodingPlatform (pathOf (coinPath 2 true)) = .ok pubkey := ⟨_, rfl⟩
  obtain ⟨text, htext, -⟩ := addressOf_eq encodingPlatform_encodes pubkey
  refine ⟨pubkey ++ text.chars, rfl, by decide, by decide, ?_⟩
  rw [addressReplyOf, hkey]
  change addressOf encodingPlatform pubkey >>= _ = _
  rw [htext]
  rfl

theorem repliesToGetAddr_sample {data : List UInt8}
    (h : Addressable encodingPlatform (coinPath 2 true) data) :
    RepliesToGetAddr ramFlashBuffering encodingPlatform (coinPath 2 true)
      (data ++ codeBytes apduCodeOk) := by
  have hrequest : decode (addressRequest 0 2).received = .getAddr false (coinPath 2 true) := rfl
  have hserves := (answer_serves encodingPlatform (addressRequest 0 2) started).2
  rw [hrequest, deliver, serve_addressable h] at hserves
  refine ⟨started, _, addressRequest 0 2, false, _, hrequest,
    step_apdu starts_started.1 encodingPlatform (addressRequest 0 2), .inl ?_⟩
  rw [hserves]
  exact replyBytes_observation _ _ _

theorem address_decodes_to_key_hash_encodingPlatform :
    (sampleCall 7).address encodingPlatform ≠ (sampleCall 8).address encodingPlatform ∧
      decodeBytes bech32mConstant ((sampleCall 7).address encodingPlatform) =
        some (ascii "sov", List.replicate 28 7) ∧
      ∃ (reply : List UInt8) (r : AddressReply), r.bytes = reply ∧
        RepliesToGetAddr ramFlashBuffering encodingPlatform (coinPath 2 true) reply ∧
        reply.length = 89 ∧ IsAddress encodingPlatform r.key.toList r.address := by
  obtain ⟨hcalls, hsame, hreplies⟩ := address_decodes_to_key_hash encodingPlatform_encodes
  refine ⟨?_, (hcalls (sampleCall 7)).2.1.decodes, ?_⟩
  · intro heq
    exact absurd ((hsame _ _).mp heq) (by decide)
  · obtain ⟨data, haddressable⟩ := addressable_sample
    have hreply := repliesToGetAddr_sample haddressable
    have hlength : (data ++ codeBytes apduCodeOk).length ≠ 2 := by
      have hdata := (length_of_addressReplyOf haddressable.reply).1
      rw [List.length_append]
      omega
    obtain ⟨hlength, r, hbytes, -, -, haddress, -⟩ := hreplies _ _ _ hreply hlength
    exact ⟨_, r, hbytes, hreply, hlength, haddress⟩

end LedgerSovereign.AddressDecoding
