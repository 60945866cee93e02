import LedgerSovereign.CryptoOutcomes
import LedgerSovereign.LittleEndian
import LedgerSovereign.SampleDevice
import Mathlib.Data.List.GetD
import Mathlib.Tactic.NormNum

namespace LedgerSovereign.KeyEncoding

open LedgerSovereign.Constants
open LedgerSovereign.Crypto
open LedgerSovereign.CryptoOutcomes
open LedgerSovereign.LittleEndian
open LedgerSovereign.PlatformInterface
open LedgerSovereign.SampleDevice
open LedgerSovereign.TaggedBuffer
open LedgerSovereign.ThrowingPrograms

/-- `cx_publicKey.W` of a point: 0x04 and the coordinates, highest byte first. -/
def uncompressed (x y : Nat) : Vector UInt8 65 :=
  ⟨(4 :: ((bytesOf 32 x).reverse ++ (bytesOf 32 y).reverse)).toArray, by simp⟩

theorem toList_uncompressed (x y : Nat) :
    (uncompressed x y).toList =
      4 :: ((bytesOf 32 x).reverse ++ (bytesOf 32 y).reverse) := rfl

theorem reversedY_uncompressed (x y : Nat) :
    reversedY (uncompressed x y) = bytesOf 32 y := by
  apply List.ext_getElem
  · simp
  · intro i hi hi'
    have hlt : i < 32 := by simpa using hi'
    have hindex : 64 - i = (32 + (31 - i)) + 1 := by omega
    simp only [reversedY, List.getElem_map, List.getElem_range, toList_uncompressed]
    rw [hindex, List.getD_cons_succ, List.getD_append_right _ _ _ _ (by simp),
      List.getD_eq_getElem _ _ (by simp; omega), List.getElem_reverse]
    congr 1
    simp only [List.length_reverse, length_bytesOf]
    omega

theorem signByte_uncompressed (x y : Nat) :
    (uncompressed x y).toList.getD pkLen25519 0 = UInt8.ofNat x := by
  have hfirst : (bytesOf 32 x).reverse.getD 31 0 = UInt8.ofNat x := by
    rw [List.getD_eq_getElem _ _ (by simp), List.getElem_reverse]
    rfl
  rw [toList_uncompressed, pkLen25519, List.getD_cons_succ,
    List.getD_append _ _ _ _ (by simp), hfirst]

theorem ofNat_and_one_ne_zero_iff (x : Nat) : UInt8.ofNat x &&& 1 ≠ 0 ↔ x % 2 = 1 := by
  rw [ne_eq, ← UInt8.toNat_inj, UInt8.toNat_and, UInt8.toNat_ofNat']
  change ¬ x % 256 &&& 1 = 0 ↔ _
  rw [Nat.and_one_is_mod]
  omega

theorem or_signBit {v : Nat} (h : v < 128) :
    UInt8.ofNat v ||| 0x80 = UInt8.ofNat (v + 128) := by
  have hall : ∀ v : Fin 128, UInt8.ofNat v ||| 0x80 = UInt8.ofNat (v + 128) := by
    decide
  exact hall ⟨v, h⟩

/-- The highest bit of the encoding is the parity of `x`. -/
theorem encodePoint_uncompressed (x : Nat) {y : Nat} (hy : y < 2 ^ 255) :
    encodePoint (uncompressed x y) = bytesOf 32 (y + 2 ^ 255 * (x % 2)) := by
  have hpow : 2 ^ 255 = 256 ^ 31 * 128 := by norm_num
  have htop : y / 256 ^ 31 < 128 := Nat.div_lt_of_lt_mul (hpow ▸ hy)
  have hlow : bytesOf 31 (y + 2 ^ 255 * (x % 2)) = bytesOf 31 y := by
    rw [hpow, Nat.mul_assoc, bytesOf_add_mul]
  rw [encodePoint, signByte_uncompressed, reversedY_uncompressed]
  split
  · rename_i hodd
    rw [ofNat_and_one_ne_zero_iff] at hodd
    have hdiv : (y + 2 ^ 255 * 1) / 256 ^ 31 = y / 256 ^ 31 + 128 := by
      rw [Nat.mul_one, hpow, Nat.add_mul_div_left _ _ (by norm_num)]
    have hlength : (bytesOf 31 y).length = 31 := length_bytesOf 31 y
    rw [hodd] at hlow ⊢
    rw [bytesOf_succ_last 31 y, bytesOf_succ_last 31 (y + _), hlow, hdiv,
      List.take_left' hlength, ← or_signBit htop]
    rfl
  · rename_i heven
    rw [ofNat_and_one_ne_zero_iff] at heven
    have hzero : x % 2 = 0 := by omega
    rw [hzero, Nat.mul_zero, Nat.add_zero]

/-- The device derives the point `(x, y)` for the path. -/
def DerivesPoint (platform : Platform) (path : HdPath) (x y : Nat) : Prop :=
  ∃ key w key', privateKeyOf platform path = .ok key ∧
    platform.cxEcfpInitPublicKeyNoThrow = .ok w ∧
    platform.cxEcfpGeneratePairNoThrow w key = .ok (uncompressed x y, key')

theorem publicKeyOf_eq {platform : Platform} {path : HdPath} {x y : Nat}
    (hy : y < 2 ^ 255) (h : DerivesPoint platform path x y) :
    publicKeyOf platform path = .ok (bytesOf 32 (y + 2 ^ 255 * (x % 2))) := by
  obtain ⟨key, w, key', hkey, hw, hpair⟩ := h
  rw [publicKeyOf, hkey, hw, ← encodePoint_uncompressed x hy]
  simp only [outcome, hpair, bind, Except.bind, pure, Except.pure]

variable {n m : Nat}

theorem cryptoExtractPublicKey_run {platform : Platform} {path : HdPath} {x y : Nat}
    (hy : y < 2 ^ 255) (h : DerivesPoint platform path x y) {len : UInt16}
    (hlen : 32 ≤ len.toNat) (hn : 32 ≤ n) (f : Frame n) :
    ∃ f', (cryptoExtractPublicKey platform path .object len).run f = .ok .ok f' ∧
      f'.out.load 0 32 = bytesOf 32 (y + 2 ^ 255 * (x % 2)) := by
  have hreports := cryptoExtractPublicKey_reports platform path f hlen hn
  rw [publicKeyOf_eq hy h] at hreports
  obtain ⟨f', hrun, -, hout⟩ := hreports
  refine ⟨f', hrun, ?_⟩
  rw [hout, Buffer.load_store_self _ (by simp) (by simpa using hn),
    List.take_of_length_le (by simp)]

theorem encoding_lt {x y : Nat} (hy : y < 2 ^ 255) :
    y + 2 ^ 255 * (x % 2) < 256 ^ 32 := by
  have hpow : (256 : Nat) ^ 32 = 2 ^ 255 * 2 := by norm_num
  omega

/-- The key of a point `(x, y)`, as a number, is `y` with the parity of `x` in bit
255, whatever the buffer held.  Two points have one key exactly when they agree in
`y` and in the parity of `x`. -/
theorem extracted_key_encodes_point {platform : Platform} {path : HdPath} {x y : Nat}
    (hy : y < 2 ^ 255) (h : DerivesPoint platform path x y)
    {len : UInt16} (hlen : 32 ≤ len.toNat) (hn : len.toNat ≤ n) (f : Frame n) :
    ∃ f', (cryptoExtractPublicKey platform path .object len).run f = .ok .ok f' ∧
      (f'.out.load 0 32).length = 32 ∧
      littleEndian (f'.out.load 0 32) = y + 2 ^ 255 * (x % 2) ∧
      littleEndian (f'.out.load 0 32) % 2 ^ 255 = y ∧
      littleEndian (f'.out.load 0 32) / 2 ^ 255 = x % 2 ∧
      ∀ (platform₂ : Platform) (path₂ : HdPath) (x₂ y₂ : Nat) (len₂ : UInt16)
        (g g' : Frame m), y₂ < 2 ^ 255 → DerivesPoint platform₂ path₂ x₂ y₂ →
        32 ≤ len₂.toNat → len₂.toNat ≤ m →
        (cryptoExtractPublicKey platform₂ path₂ .object len₂).run g = .ok .ok g' →
        (g'.out.load 0 32 = f'.out.load 0 32 ↔ y₂ = y ∧ x₂ % 2 = x % 2) := by
  obtain ⟨f', hrun, hkey⟩ := cryptoExtractPublicKey_run hy h hlen (by omega) f
  have hvalue : littleEndian (f'.out.load 0 32) = y + 2 ^ 255 * (x % 2) := by
    rw [hkey, littleEndian_bytesOf (encoding_lt hy)]
  refine ⟨f', hrun, by rw [hkey, length_bytesOf], hvalue, by omega, by omega, ?_⟩
  intro platform₂ path₂ x₂ y₂ len₂ g g' hy₂ h₂ hlen₂ hm hrun₂
  obtain ⟨g'', hrun₂', hkey₂⟩ := cryptoExtractPublicKey_run hy₂ h₂ hlen₂ (by omega) g
  obtain rfl : g' = g'' := by
    rw [hrun₂] at hrun₂'
    exact (EStateM.Result.ok.inj hrun₂').2
  constructor
  · intro hsame
    have hvalue₂ : littleEndian (g'.out.load 0 32) = y₂ + 2 ^ 255 * (x₂ % 2) := by
      rw [hkey₂, littleEndian_bytesOf (encoding_lt hy₂)]
    rw [hsame, hvalue] at hvalue₂
    omega
  · rintro ⟨rfl, hparity⟩
    rw [hkey₂, hkey, hparity]

/-- The base point of the curve. -/
def basePointX : Nat :=
  15112221349535400772501151409588531511454012693041857206046113283949847762202

def basePointY : Nat :=
  46316835694926478169428394003475163141307993866256225615783033603165251855960

def basePointPlatform : Platform :=
  { samplePlatform with
    cxEcfpGeneratePairNoThrow := fun _ key =>
      .ok (uncompressed basePointX basePointY, key) }

def sampleFrame (bytes : List UInt8) : Frame 98 where
  out := (Buffer.zeros 98).store 0 bytes
  addrResponseLen := 7
  cxPrivateKey := []
  cxPublicKey := Vector.replicate 65 0
  privateKeyData := Vector.replicate 64 0
  addressEncoded := Buffer.zeros addressMaxLength
  calls := []

theorem extracted_key_encodes_point_basePoint :
    ∃ f', (cryptoExtractPublicKey basePointPlatform (Vector.replicate 3 0) .object
        98).run (sampleFrame [1, 2, 3]) = .ok .ok f' ∧
      littleEndian (f'.out.load 0 32) = basePointY := by
  have hderives : DerivesPoint basePointPlatform (Vector.replicate 3 0) basePointX
      basePointY := ⟨_, _, _, rfl, rfl, rfl⟩
  have hlen : 32 ≤ (98 : UInt16).toNat := by decide
  have hn : (98 : UInt16).toNat ≤ 98 := by decide
  have hy : basePointY < 2 ^ 255 := by decide
  have heven : basePointX % 2 = 0 := by decide
  obtain ⟨f', hrun, -, hvalue, -⟩ := extracted_key_encodes_point (m := 98) hy hderives
    hlen hn (sampleFrame [1, 2, 3])
  refine ⟨f', hrun, ?_⟩
  rw [hvalue, heven, Nat.mul_zero, Nat.add_zero]

end LedgerSovereign.KeyEncoding
