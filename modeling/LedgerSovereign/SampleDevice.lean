import LedgerSovereign.PlatformInterface

/-!
A device to run the application on.  It encodes and pages texts as zxlib does;
its keys, signatures and digests are those of no real device.
-/

namespace LedgerSovereign.SampleDevice

open LedgerSovereign.Constants
open LedgerSovereign.PlatformInterface

def bits (k v : Nat) : List Bool :=
  (List.range k).map fun i => v.testBit (k - 1 - i)

/-- Groups of five bits, the last one filled up with zeros. -/
def fiveBitGroups (bytes : List UInt8) : List Nat :=
  let stream := bytes.flatMap fun b => bits 8 b.toNat
  (List.range ((stream.length + 4) / 5)).map fun i =>
    (List.range 5).foldl
      (fun v j => 2 * v + ((stream.getD (5 * i + j) false).toNat)) 0

def polymod (values : List Nat) : Nat :=
  values.foldl
    (fun check v =>
      let top := check >>> 25
      let shifted := ((check &&& 0x1ffffff) <<< 5) ^^^ v
      [0x3b6a57b2, 0x26508e6d, 0x1ea119fa, 0x3d4233dd, 0x2a1462b3].zipIdx.foldl
        (fun check (g, i) => if top.testBit i then check ^^^ g else check)
        shifted)
    1

def bech32m (hrp input : List UInt8) : List UInt8 :=
  let expanded := hrp.map (fun b => b.toNat >>> 5) ++ [0] ++
    hrp.map (fun b => b.toNat &&& 31)
  let groups := fiveBitGroups input
  let check := polymod (expanded ++ groups ++ [0, 0, 0, 0, 0, 0]) ^^^ 0x2bc830a3
  let checksum := (List.range 6).map fun i => (check >>> (5 * (5 - i))) &&& 31
  hrp ++ ascii "1" ++ (groups ++ checksum).map fun v =>
    (ascii "qpzry9x8gf2tvdw0s3jn54khce6mua7l").getD v 0

example : bech32m (ascii "a") [] = ascii "a1lqfn3a" := by decide

/-- One page of a text cut into pages of `width` characters, and the number of
pages. -/
def page (width : Nat) (text : List UInt8) (pageIdx : UInt8) :
    List UInt8 × UInt8 :=
  ((text.drop (width * pageIdx.toNat)).take width,
    UInt8.ofNat ((text.length + width - 1) / width))

def samplePlatform : Platform where
  pinIsValidated := true
  isUxAllowed := true
  appModeExpert := false
  targetId := 0x33100004
  uninitPrivateKey := []
  uninitPublicKey := Vector.replicate 65 0
  osDeriveBip32WithSeedNoThrow path := .ok (Vector.replicate 64 path[2].toUInt8)
  cxEcfpInitPrivateKeyNoThrow data := .ok data
  cxEcfpInitPublicKeyNoThrow := .ok (Vector.replicate 65 0)
  cxEcfpGeneratePairNoThrow _ key :=
    .ok (Vector.replicate 65 (key.getD 0 0), key)
  cxEddsaSignNoThrow key _ := .ok (Vector.replicate 64 (key.getD 0 0))
  cxHashSha256 input := Vector.replicate 32 (input.getD 0 0)
  bech32EncodeFromBytes outputLen hrp input _ _ :=
    let chars := bech32m hrp input
    if h : chars.length < outputLen ∧ (0 : UInt8) ∉ chars then
      .ok ⟨chars, h.1, h.2⟩
    else .failed .bufferTooSmall (by decide) []
  bip32ToStr _ := ascii "m/44'/1551'/0'"
  pageString outValueLen text pageIdx :=
    page (outValueLen.toNat - 1) text pageIdx
  pageStringHex outValueLen bytes pageIdx :=
    page (2 * ((outValueLen.toNat - 1) / 2)) (hexText bytes) pageIdx

end LedgerSovereign.SampleDevice
