import LedgerSovereign.BitGroups
import Mathlib.Algebra.Group.Nat.Defs

/-!
Texts of BIP-173 and BIP-350: a prefix, a separator, groups of five bits as
characters, and six more characters that bring a checksum to a constant.
-/

namespace LedgerSovereign.Bech32

open LedgerSovereign.BitGroups

def charset : List UInt8 :=
  "qpzry9x8gf2tvdw0s3jn54khce6mua7l".toList.map fun c => UInt8.ofNat c.toNat

def charOf (g : BitVec 5) : UInt8 :=
  charset.getD g.toNat 0

def groupOf (c : UInt8) : Option (BitVec 5) :=
  (charset.idxOf? c).map (BitVec.ofNat 5)

def bech32Constant : BitVec 30 := 1#30

def bech32mConstant : BitVec 30 := 0x2bc830a3

section Checksum

def pick (bit : Bool) (g : BitVec 30) : BitVec 30 :=
  if bit then g else 0#30

/-- What the five bits that leave the checksum put back into it. -/
def reduction (c : BitVec 30) : BitVec 30 :=
  pick (c.getLsbD 25) 0x3b6a57b2 ^^^ pick (c.getLsbD 26) 0x26508e6d ^^^
    pick (c.getLsbD 27) 0x1ea119fa ^^^ pick (c.getLsbD 28) 0x3d4233dd ^^^
    pick (c.getLsbD 29) 0x2a1462b3

def polymodStep (c : BitVec 30) (g : BitVec 5) : BitVec 30 :=
  (c <<< 5) ^^^ g.setWidth 30 ^^^ reduction c

def polymod (c : BitVec 30) (gs : List (BitVec 5)) : BitVec 30 :=
  gs.foldl polymodStep c

theorem pick_xor (a b : Bool) (g : BitVec 30) :
    pick (a ^^ b) g = pick a g ^^^ pick b g := by
  cases a <;> cases b <;> simp [pick]

theorem reduction_xor (a b : BitVec 30) :
    reduction (a ^^^ b) = reduction a ^^^ reduction b := by
  simp only [reduction, BitVec.getLsbD_xor, pick_xor]
  ac_rfl

theorem polymodStep_xor (a b : BitVec 30) (g h : BitVec 5) :
    polymodStep (a ^^^ b) (g ^^^ h) = polymodStep a g ^^^ polymodStep b h := by
  rw [polymodStep, BitVec.shiftLeft_xor_distrib, BitVec.setWidth_xor, reduction_xor]
  simp only [polymodStep]
  ac_rfl

/-- The checksum is linear: what it starts from and what it runs over add up. -/
theorem polymod_xor (a b : BitVec 30) (gs : List (BitVec 5)) :
    polymod (a ^^^ b) gs =
      polymod a (List.replicate gs.length 0#5) ^^^ polymod b gs := by
  induction gs generalizing a b with
  | nil => rfl
  | cons g gs ih =>
      have hstep := polymodStep_xor a b 0#5 g
      rw [BitVec.zero_xor] at hstep
      simp only [polymod, List.foldl_cons, List.length_cons, List.replicate_succ] at ih ⊢
      rw [hstep, ih]

theorem polymod_append (c : BitVec 30) (gs hs : List (BitVec 5)) :
    polymod c (gs ++ hs) = polymod (polymod c gs) hs :=
  List.foldl_append

/-- The lowest `k` groups of a checksum, the highest of them first. -/
def digits : Nat → BitVec 30 → List (BitVec 5)
  | 0, _ => []
  | k + 1, p => digits k (p >>> 5) ++ [p.setWidth 5]

@[simp] theorem length_digits (k : Nat) (p : BitVec 30) : (digits k p).length = k := by
  induction k generalizing p with
  | zero => rfl
  | succ k ih => rw [digits, List.length_append, ih, List.length_singleton]

theorem reduction_shiftRight (p : BitVec 30) : reduction (p >>> 5) = 0#30 := by
  simp [reduction, pick]

/-- No bit leaves the checksum while the place of the last group is free. -/
theorem polymodStep_shiftRight (p : BitVec 30) :
    polymodStep (p >>> 5) (p.setWidth 5) = p := by
  rw [polymodStep, reduction_shiftRight, BitVec.xor_zero]
  apply BitVec.eq_of_getLsbD_eq
  intro i hi
  rw [BitVec.getLsbD_xor, BitVec.getLsbD_shiftLeft, BitVec.getLsbD_ushiftRight,
    BitVec.getLsbD_setWidth, BitVec.getLsbD_setWidth]
  rcases Nat.lt_or_ge i 5 with hlt | hge
  · simp [hi, hlt]
  · simp [hi, Nat.not_lt.mpr hge, Nat.add_sub_cancel' hge]

theorem polymod_digits {k : Nat} {p : BitVec 30} (h : p.toNat < 32 ^ k) :
    polymod 0#30 (digits k p) = p := by
  induction k generalizing p with
  | zero =>
      apply BitVec.eq_of_toNat_eq
      change 0 = p.toNat
      omega
  | succ k ih =>
      have hshift : (p >>> 5).toNat < 32 ^ k := by
        rw [BitVec.toNat_ushiftRight, Nat.shiftRight_eq_div_pow]
        exact Nat.div_lt_of_lt_mul (by omega)
      rw [digits, polymod_append, ih hshift]
      exact polymodStep_shiftRight p

def checksum (constant : BitVec 30) (gs : List (BitVec 5)) : List (BitVec 5) :=
  digits 6 (polymod 1#30 (gs ++ List.replicate 6 0#5) ^^^ constant)

theorem polymod_checksum (constant : BitVec 30) (gs : List (BitVec 5)) :
    polymod 1#30 (gs ++ checksum constant gs) = constant := by
  have hdigits : polymod 0#30 (checksum constant gs) =
      polymod 1#30 (gs ++ List.replicate 6 0#5) ^^^ constant :=
    polymod_digits (BitVec.isLt _)
  have hlength : (checksum constant gs).length = 6 := length_digits 6 _
  calc polymod 1#30 (gs ++ checksum constant gs)
      = polymod (polymod 1#30 gs ^^^ 0#30) (checksum constant gs) := by
        rw [polymod_append, BitVec.xor_zero]
    _ = polymod 1#30 (gs ++ List.replicate 6 0#5) ^^^
          (polymod 1#30 (gs ++ List.replicate 6 0#5) ^^^ constant) := by
        rw [polymod_xor, hdigits, hlength, ← polymod_append]
    _ = constant := by
        rw [← BitVec.xor_assoc, BitVec.xor_self, BitVec.zero_xor]

end Checksum

/-- The checksum covers the prefix: the high bits of its characters, a zero, and the
low ones. -/
def expand (hrp : List UInt8) : List (BitVec 5) :=
  hrp.map (fun c : UInt8 => (c >>> 5).toBitVec.setWidth 5) ++
    0#5 :: hrp.map fun c => c.toBitVec.setWidth 5

def separator : UInt8 := 0x31

def encode (constant : BitVec 30) (hrp : List UInt8) (data : List (BitVec 5)) :
    List UInt8 :=
  hrp ++ separator :: (data ++ checksum constant (expand hrp ++ data)).map charOf

def printable (c : UInt8) : Bool :=
  33 ≤ c && c ≤ 126

def isUpper (c : UInt8) : Bool :=
  0x41 ≤ c && c ≤ 0x5a

def isLower (c : UInt8) : Bool :=
  0x61 ≤ c && c ≤ 0x7a

def toLower (c : UInt8) : UInt8 :=
  if isUpper c then c + 32 else c

/-- What stands behind the last separator. -/
def dataPart (text : List UInt8) : List UInt8 :=
  (text.reverse.takeWhile (· ≠ separator)).reverse

/-- A text is accepted when it is short, printable and of one case, and when the
checksum over its prefix and its data is the constant. -/
def decode (constant : BitVec 30) (text : List UInt8) :
    Option (List UInt8 × List (BitVec 5)) :=
  if text.length ≤ 90 ∧ text.all printable ∧ ¬ (text.any isUpper ∧ text.any isLower) then
    let text := text.map toLower
    let chars := dataPart text
    let hrp := text.take (text.length - chars.length - 1)
    match chars.mapM groupOf with
    | some gs =>
        if hrp ≠ [] ∧ 6 ≤ gs.length ∧ polymod 1#30 (expand hrp ++ gs) = constant then
          some (hrp, gs.take (gs.length - 6))
        else none
    | none => none
  else none

theorem groupOf_charOf : ∀ g, groupOf (charOf g) = some g := by
  decide

theorem charOf_ne_separator : ∀ g, charOf g ≠ separator := by
  decide

theorem printable_charOf : ∀ g, printable (charOf g) ∧ ¬ isUpper (charOf g) := by
  decide

theorem mapM_groupOf (gs : List (BitVec 5)) :
    (gs.map charOf).mapM groupOf = some gs := by
  induction gs with
  | nil => rfl
  | cons g gs ih => simp [List.mapM_cons, groupOf_charOf, ih]

/-- A prefix that is not empty, is printable and has no upper-case letter. -/
structure ValidPrefix (hrp : List UInt8) : Prop where
  nonempty : hrp ≠ []
  printable : ∀ c ∈ hrp, printable c ∧ ¬ isUpper c

theorem length_encode (constant : BitVec 30) (hrp : List UInt8)
    (data : List (BitVec 5)) :
    (encode constant hrp data).length = hrp.length + data.length + 7 := by
  simp only [encode, List.length_append, List.length_cons, List.length_map, checksum,
    length_digits]
  omega

theorem printable_encode {hrp : List UInt8} (h : ValidPrefix hrp)
    {constant : BitVec 30} {data : List (BitVec 5)} {c : UInt8}
    (hc : c ∈ encode constant hrp data) : printable c ∧ ¬ isUpper c := by
  rw [encode, List.mem_append, List.mem_cons, List.mem_map] at hc
  rcases hc with hprefix | rfl | ⟨g, -, rfl⟩
  · exact h.printable c hprefix
  · decide
  · exact printable_charOf g

theorem dataPart_append (hrp : List UInt8) (gs : List (BitVec 5)) :
    dataPart (hrp ++ separator :: gs.map charOf) = gs.map charOf := by
  have hchars : ∀ c ∈ (gs.map charOf).reverse, decide (c ≠ separator) = true := by
    intro c hc
    obtain ⟨g, -, rfl⟩ := List.mem_map.mp (List.mem_reverse.mp hc)
    exact decide_eq_true (charOf_ne_separator g)
  rw [dataPart, List.reverse_append, List.reverse_cons, List.append_assoc,
    List.takeWhile_append_of_pos hchars]
  simp

/-- What is encoded is what is decoded. -/
theorem decode_encode (constant : BitVec 30) {hrp : List UInt8} (h : ValidPrefix hrp)
    {data : List (BitVec 5)} (hlength : hrp.length + data.length + 7 ≤ 90) :
    decode constant (encode constant hrp data) = some (hrp, data) := by
  have hprintable : ∀ c ∈ encode constant hrp data, printable c = true :=
    fun _ hc => (printable_encode h hc).1
  have hupper : ∀ c ∈ encode constant hrp data, ¬ isUpper c = true :=
    fun _ hc => (printable_encode h hc).2
  have haccepted : (encode constant hrp data).length ≤ 90 ∧
      (encode constant hrp data).all printable ∧
      ¬ ((encode constant hrp data).any isUpper ∧
        (encode constant hrp data).any isLower) := by
    refine ⟨?_, List.all_eq_true.mpr hprintable, ?_⟩
    · rw [length_encode]
      exact hlength
    · rintro ⟨hany, -⟩
      obtain ⟨c, hc, hc'⟩ := List.any_eq_true.mp hany
      exact hupper c hc hc'
  have hlower : (encode constant hrp data).map toLower = encode constant hrp data := by
    have hsame : ∀ c ∈ encode constant hrp data, toLower c = id c :=
      fun c hc => if_neg (hupper c hc)
    rw [List.map_congr_left hsame, List.map_id]
  have hdata : dataPart (encode constant hrp data) =
      (data ++ checksum constant (expand hrp ++ data)).map charOf :=
    dataPart_append _ _
  have hcheck : (checksum constant (expand hrp ++ data)).length = 6 := length_digits 6 _
  have hprefix : (encode constant hrp data).take ((encode constant hrp data).length -
      (data ++ checksum constant (expand hrp ++ data)).length - 1) = hrp := by
    apply List.take_left'
    rw [length_encode, List.length_append, hcheck]
    omega
  have hvalid : hrp ≠ [] ∧
      6 ≤ (data ++ checksum constant (expand hrp ++ data)).length ∧
      polymod 1#30 (expand hrp ++ (data ++ checksum constant (expand hrp ++ data))) =
        constant := by
    refine ⟨h.nonempty, ?_, ?_⟩
    · rw [List.length_append, hcheck]
      omega
    · rw [← List.append_assoc]
      exact polymod_checksum constant _
  have htake : (data ++ checksum constant (expand hrp ++ data)).take
      ((data ++ checksum constant (expand hrp ++ data)).length - 6) = data := by
    apply List.take_left'
    rw [List.length_append, hcheck]
    omega
  rw [decode, if_pos haccepted]
  simp only [hlower, hdata, mapM_groupOf, List.length_map, hprefix]
  rw [if_pos hvalid, htake]

section Bytes

def encodeBytes (constant : BitVec 30) (hrp bytes : List UInt8) : List UInt8 :=
  encode constant hrp (regroup 5 (bytes.map UInt8.toBitVec))

def decodeBytes (constant : BitVec 30) (text : List UInt8) :
    Option (List UInt8 × List UInt8) :=
  (decode constant text).bind fun decoded =>
    (ungroup 8 decoded.2).map fun values => (decoded.1, values.map UInt8.ofBitVec)

example : encodeBytes bech32mConstant [0x61] [] =
    "a1lqfn3a".toList.map fun c => UInt8.ofNat c.toNat := by decide

theorem length_encodeBytes (constant : BitVec 30) (hrp bytes : List UInt8) :
    (encodeBytes constant hrp bytes).length =
      hrp.length + (8 * bytes.length + 4) / 5 + 7 := by
  have hgroups := length_regroup (w := 5) (by decide) (bytes.map UInt8.toBitVec)
  have hmissing := missing_lt (w := 5) (by decide) (8 * bytes.length)
  rw [List.length_map] at hgroups
  rw [encodeBytes, length_encode]
  omega

theorem decodeBytes_encodeBytes (constant : BitVec 30) {hrp : List UInt8}
    (h : ValidPrefix hrp) {bytes : List UInt8}
    (hlength : (encodeBytes constant hrp bytes).length ≤ 90) :
    decodeBytes constant (encodeBytes constant hrp bytes) = some (hrp, bytes) := by
  rw [encodeBytes, length_encode] at hlength
  have hbytes : (bytes.map UInt8.toBitVec).map UInt8.ofBitVec = bytes := by
    rw [List.map_map]
    exact List.map_id'' (fun _ => rfl) bytes
  rw [decodeBytes, encodeBytes, decode_encode constant h hlength, Option.bind_some,
    ungroup_regroup (by decide) (by decide), Option.map_some, hbytes]

end Bytes

end LedgerSovereign.Bech32
