import LedgerSovereign.KeyEncoding

namespace LedgerSovereign.AddressFilling

open LedgerSovereign.Constants
open LedgerSovereign.Crypto
open LedgerSovereign.CryptoOutcomes
open LedgerSovereign.KeyEncoding
open LedgerSovereign.PlatformInterface
open LedgerSovereign.SampleDevice
open LedgerSovereign.TaggedBuffer
open LedgerSovereign.ThrowingPrograms

variable {n : Nat}

/-- The arguments that are refused before the buffer is touched. -/
def Refused (buffer addrResponseLen : Pointer) (bufferLen : UInt16) : Prop :=
  buffer = .null ∨ addrResponseLen = .null ∨
    bufferLen.toNat < pkLen25519 + addressMaxLength

/-- The key and its address fill the buffer, and zeros the rest of it. -/
def Filled (platform : Platform) (path : HdPath) (bufferLen : UInt16)
    (f : Frame n) : Prop :=
  ∃ pubkey text, publicKeyOf platform path = .ok pubkey ∧
    addressOf platform pubkey = .ok text ∧ pubkey.length = 32 ∧
    f.addrResponseLen.toNat = 32 + text.chars.length ∧
    32 + text.chars.length ≤ bufferLen.toNat ∧
    f.out.load 0 bufferLen.toNat = pubkey ++ text.chars ++
      List.replicate (bufferLen.toNat - (32 + text.chars.length)) 0

/-- The length is what it was, and so is the buffer unless it was zeroed. -/
def Unfilled (buffer addrResponseLen : Pointer) (bufferLen : UInt16)
    (f f' : Frame n) : Prop :=
  f'.addrResponseLen = f.addrResponseLen ∧
    (Refused buffer addrResponseLen bufferLen ∧ f'.out = f.out ∨
      ¬ Refused buffer addrResponseLen bufferLen ∧
        f'.out.load 0 bufferLen.toNat = List.replicate bufferLen.toNat 0)

/-- A call that derives the key fails, or the encoder fails on the hash of the key;
`none` is a returned error. -/
def AddressFails (platform : Platform) (path : HdPath) (failure : Option Thrown) :
    Prop :=
  publicKeyOf platform path = .error failure ∨
    ∃ pubkey, publicKeyOf platform path = .ok pubkey ∧
      addressOf platform pubkey = .error failure

theorem addressFails_of_error {platform : Platform} {path : HdPath}
    {failure : Option Thrown} (h : addressReplyOf platform path = .error failure) :
    AddressFails platform path failure := by
  simp only [addressReplyOf, except_bind_eq_error] at h
  rcases h with hkey | ⟨pubkey, hkey, htext | ⟨text, -, hpure⟩⟩
  · exact .inl hkey
  · exact .inr ⟨pubkey, hkey, htext⟩
  · cases hpure

theorem cryptoFillAddress_refused {buffer addrResponseLen : Pointer}
    {bufferLen : UInt16} (h : Refused buffer addrResponseLen bufferLen)
    (platform : Platform) (path : HdPath) (f : Frame n) :
    ∃ err, err ≠ ZxErr.ok ∧
      (cryptoFillAddress platform path buffer bufferLen addrResponseLen).run f =
        .ok err f := by
  rw [cryptoFillAddress]
  by_cases hnull : buffer = .null ∨ addrResponseLen = .null
  · rw [if_pos hnull]
    exact ⟨_, by decide, rfl⟩
  · have hsmall : bufferLen.toNat < pkLen25519 + addressMaxLength := by
      rcases h with hbuffer | hlength | hsmall
      · exact absurd (.inl hbuffer) hnull
      · exact absurd (.inr hlength) hnull
      · exact hsmall
    rw [if_neg hnull, if_pos hsmall]
    exact ⟨_, by decide, rfl⟩

theorem accepted_of_not_refused {buffer addrResponseLen : Pointer}
    {bufferLen : UInt16} (h : ¬ Refused buffer addrResponseLen bufferLen) :
    buffer = .object ∧ addrResponseLen = .object ∧ 98 ≤ bufferLen.toNat := by
  simp only [Refused, not_or, Nat.not_lt] at h
  obtain ⟨hbuffer, hlength, hlen⟩ := h
  refine ⟨?_, ?_, hlen⟩
  · cases buffer with
    | null => exact absurd rfl hbuffer
    | object => rfl
  · cases addrResponseLen with
    | null => exact absurd rfl hlength
    | object => rfl

theorem filled_of_store {platform : Platform} {path : HdPath} {bufferLen : UInt16}
    {f f' : Frame n} {data : List UInt8} (hlen : 98 ≤ bufferLen.toNat)
    (hn : bufferLen.toNat ≤ n) (hdata : addressReplyOf platform path = .ok data)
    (hout : f'.out = (f.out.zero bufferLen.toNat).store 0 data)
    (haddrResponseLen : f'.addrResponseLen = UInt16.ofNat data.length) :
    Filled platform path bufferLen f' := by
  obtain ⟨pubkey, text, hkey, htext, hpubkey, rfl⟩ := addressReplyOf_eq_ok hdata
  have hchars : text.chars.length < 66 := text.fits
  have hlength : (pubkey ++ text.chars).length = 32 + text.chars.length := by
    rw [List.length_append, hpubkey]
  refine ⟨pubkey, text, hkey, htext, hpubkey, ?_, by omega, ?_⟩
  · rw [haddrResponseLen, hlength, UInt16.toNat_ofNat', Nat.mod_eq_of_lt (by omega)]
  · rw [hout, Buffer.load_store_zero _ (by omega) hn, hlength]

/-- On a text that an encoder leaves in the 66 bytes, the check never refuses, and
its difference does not wrap. -/
theorem not_addressTooLong {bufferLen : UInt16} (hlen : 98 ≤ bufferLen.toNat)
    {platform : Platform} {memory : List UInt8} {encoded : Buffer addressMaxLength}
    (h : cryptoComputeAddress platform .object 66 (some memory)
      (Buffer.zeros addressMaxLength) = (.ok, encoded)) :
    ¬ AddressTooLong (encoded.cString 0).length bufferLen := by
  have haddress := cryptoComputeAddress_eq platform memory
  cases htext : addressOf platform (memory.take 32) with
  | error d =>
      rw [htext] at haddress
      obtain ⟨-, err, out, herr, haddress⟩ := haddress
      rw [h] at haddress
      exact absurd (Prod.ext_iff.mp haddress).1.symm herr
  | ok text =>
      rw [htext, h] at haddress
      obtain rfl : encoded = _ := (Prod.ext_iff.mp haddress).2
      rw [cString_storedText]
      exact room_for_address hlen text

/-- A device whose encoder fails, on a buffer that is full of old bytes. -/
def failingEncoder : Platform :=
  { basePointPlatform with
    bech32EncodeFromBytes := fun _ _ _ _ _ =>
      .failed .encodingFailed (by decide) [1, 2, 3] }

end LedgerSovereign.AddressFilling
