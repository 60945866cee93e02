import LedgerSovereign.AddressDecoding
import LedgerSovereign.Bech32Distance

namespace LedgerSovereign.AddressTypos

open LedgerSovereign.AddressConfirmation
open LedgerSovereign.AddressDecoding
open LedgerSovereign.ApplicationState
open LedgerSovereign.Bech32 hiding decode
open LedgerSovereign.BufferingInterface
open LedgerSovereign.Constants
open LedgerSovereign.Crypto
open LedgerSovereign.CryptoOutcomes
open LedgerSovereign.DeviceProtocol
open LedgerSovereign.PlatformInterface
open LedgerSovereign.RequestSemantics

theorem decode_of_decodeBytes {constant : BitVec 30} {text hrp bytes : List UInt8}
    (h : decodeBytes constant text = some (hrp, bytes)) :
    ∃ data, Bech32.decode constant text = some (hrp, data) ∧
      (BitGroups.ungroup 8 data).map (·.map UInt8.ofBitVec) = some bytes := by
  rw [decodeBytes, Option.bind_eq_some_iff] at h
  obtain ⟨⟨hrp', data⟩, hdecode, hungroup⟩ := h
  rw [Option.map_eq_some_iff] at hungroup
  obtain ⟨values, hvalues, hpair⟩ := hungroup
  cases hpair
  exact ⟨data, hdecode, by rw [hvalues]; rfl⟩

theorem decodeBytes_of_close {constant : BitVec 30} {text text' hrp bytes bytes' : List UInt8}
    (h : decodeBytes constant text = some (hrp, bytes))
    (h' : decodeBytes constant text' = some (hrp, bytes'))
    (hlength : text.length = text'.length) (hclose : mismatches text text' ≤ 3) :
    text.map toLower = text'.map toLower ∧ bytes = bytes' := by
  obtain ⟨data, hdecode, hbytes⟩ := decode_of_decodeBytes h
  obtain ⟨data', hdecode', hbytes'⟩ := decode_of_decodeBytes h'
  obtain ⟨hlower, rfl⟩ := lower_eq_of_close hdecode hdecode' hlength hclose
  rw [hbytes, Option.some.injEq] at hbytes'
  exact ⟨hlower, hbytes'⟩

/-- A text that is accepted in the place of the address is the address, but for the
case of its letters. -/
structure ShowsTypos (platform : Platform) (key address : List UInt8) : Prop where
  accepted : ∀ text bytes, text.length = address.length → mismatches text address ≤ 3 →
    decodeBytes bech32mConstant text = some (hrp, bytes) →
    text.map toLower = address ∧ bytes = keyHash platform key

theorem not_mixed_of_decode {constant : BitVec 30} {text hrp : List UInt8}
    {data : List (BitVec 5)} (h : Bech32.decode constant text = some (hrp, data)) :
    ¬ (text.any isUpper ∧ text.any isLower) := by
  rw [Bech32.decode] at h
  split at h
  case isFalse => cases h
  case isTrue haccepted => exact haccepted.2.2

variable {platform : Platform}

/-- The prefix is in lower case, and so is what is accepted with it. -/
theorem lower_isAddress {key address : List UInt8} (h : IsAddress platform key address) :
    address.map toLower = address := by
  obtain ⟨data, hdecode, -⟩ := decode_of_decodeBytes h.decodes
  have hlower : address.any isLower = true := by
    obtain ⟨rest, hrest⟩ := h.starts
    rw [← hrest, List.any_append]
    rfl
  have hkept : ∀ c ∈ address, toLower c = id c := by
    intro c hc
    apply if_neg
    intro hupper
    exact not_mixed_of_decode hdecode ⟨List.any_eq_true.mpr ⟨c, hc, hupper⟩, hlower⟩
  rw [List.map_congr_left hkept, List.map_id]

theorem showsTypos_of_isAddress {key address : List UInt8}
    (h : IsAddress platform key address) : ShowsTypos platform key address where
  accepted := by
    intro text bytes hlength hclose hdecodes
    obtain ⟨hlower, hbytes⟩ := decodeBytes_of_close hdecodes h.decodes hlength hclose
    exact ⟨hlower.trans (lower_isAddress h), hbytes⟩

/-- Up to three characters of an address may be mistaken: what a call computed, or a
reply said, is not taken for the address of another key, and addresses of keys with
different hashes differ in four characters or more. -/
theorem mistaken_address_is_refused (h : EncodesBech32 platform) :
    (∀ call : AddressCall,
      ShowsTypos platform call.key.toList (call.address platform)) ∧
    (∀ a b : AddressCall, keyHash platform a.key.toList ≠ keyHash platform b.key.toList →
      4 ≤ mismatches (a.address platform) (b.address platform)) ∧
    ∀ (B : Buffering) (payload reply : List UInt8),
      RepliesToGetAddr B platform payload reply → reply.length ≠ 2 →
      ∃ r : AddressReply, r.bytes = reply ∧
        publicKeyOf platform (pathOf payload) = .ok r.key.toList ∧
        ShowsTypos platform r.key.toList r.address := by
  have hcall : ∀ call : AddressCall,
      IsAddress platform call.key.toList (call.address platform) := by
    intro call
    rw [(call.result_eq h).2.1]
    exact isAddress_encodeBytes platform _
  refine ⟨fun call => showsTypos_of_isAddress (hcall call), ?_, ?_⟩
  · intro a b hdiffer
    by_contra hclose
    apply hdiffer
    exact ((showsTypos_of_isAddress (hcall b)).accepted _ _
      ((hcall a).length.trans (hcall b).length.symm) (by omega) (hcall a).decodes).2
  · intro B payload reply hreply hlength
    obtain hshort | ⟨data, haddressable, rfl⟩ := reply_cases hreply
    · exact absurd hshort hlength
    · obtain ⟨-, r, hbytes, -, hkey, haddress⟩ := reply_splits h haddressable
      exact ⟨r, hbytes, hkey, showsTypos_of_isAddress haddress⟩

theorem keyHash_sample_ne :
    keyHash encodingPlatform (sampleCall 7).key.toList ≠
      keyHash encodingPlatform (sampleCall 8).key.toList := by
  decide +kernel

theorem mistaken_address_is_refused_encodingPlatform :
    4 ≤ mismatches ((sampleCall 7).address encodingPlatform)
        ((sampleCall 8).address encodingPlatform) ∧
      ∃ r : AddressReply,
        RepliesToGetAddr ramFlashBuffering encodingPlatform (coinPath 2 true) r.bytes ∧
        ShowsTypos encodingPlatform r.key.toList r.address := by
  obtain ⟨-, hcalls, hreplies⟩ := mistaken_address_is_refused encodingPlatform_encodes
  refine ⟨hcalls _ _ keyHash_sample_ne, ?_⟩
  obtain ⟨data, haddressable⟩ := addressable_sample
  have hreply := repliesToGetAddr_sample haddressable
  have hlength : (data ++ codeBytes apduCodeOk).length ≠ 2 := by
    have hdata := (length_of_addressReplyOf haddressable.reply).1
    rw [List.length_append]
    omega
  obtain ⟨r, hbytes, -, hshows⟩ := hreplies _ _ _ hreply hlength
  rw [← hbytes] at hreply
  exact ⟨r, hreply, hshows⟩

end LedgerSovereign.AddressTypos
