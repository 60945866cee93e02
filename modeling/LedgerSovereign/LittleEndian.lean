import Mathlib.Data.Nat.Digits.Lemmas

namespace LedgerSovereign.LittleEndian

def littleEndian (bytes : List UInt8) : Nat :=
  Nat.ofDigits 256 (bytes.map UInt8.toNat)

theorem littleEndian_cons (b : UInt8) (bytes : List UInt8) :
    littleEndian (b :: bytes) = b.toNat + 256 * littleEndian bytes := by
  rw [littleEndian, List.map_cons, Nat.ofDigits_cons]
  rfl

theorem littleEndian_snoc (bytes : List UInt8) (b : UInt8) :
    littleEndian (bytes ++ [b]) =
      littleEndian bytes + 256 ^ bytes.length * b.toNat := by
  rw [littleEndian, List.map_append, Nat.ofDigits_append, List.length_map]
  simp [littleEndian]

def bytesOf : (len : Nat) → Nat → List UInt8
  | 0, _ => []
  | len + 1, n => UInt8.ofNat n :: bytesOf len (n / 256)

@[simp] theorem length_bytesOf (len n : Nat) : (bytesOf len n).length = len := by
  induction len generalizing n with
  | zero => rfl
  | succ len ih => rw [bytesOf, List.length_cons, ih]

theorem littleEndian_bytesOf {len n : Nat} (h : n < 256 ^ len) :
    littleEndian (bytesOf len n) = n := by
  induction len generalizing n with
  | zero =>
      rw [Nat.pow_zero, Nat.lt_one_iff] at h
      rw [h]
      rfl
  | succ len ih =>
      rw [Nat.pow_succ] at h
      rw [bytesOf, littleEndian_cons, ih (by omega), UInt8.toNat_ofNat']
      omega

theorem bytesOf_succ_last (len n : Nat) :
    bytesOf (len + 1) n = bytesOf len n ++ [UInt8.ofNat (n / 256 ^ len)] := by
  induction len generalizing n with
  | zero => simp [bytesOf]
  | succ len ih =>
      rw [bytesOf, ih, Nat.div_div_eq_div_mul, ← Nat.pow_succ', bytesOf, List.cons_append]

theorem bytesOf_add_mul (len n k : Nat) :
    bytesOf len (n + 256 ^ len * k) = bytesOf len n := by
  induction len generalizing n with
  | zero => rfl
  | succ len ih =>
      have hsplit : n + 256 ^ (len + 1) * k = n + 256 * (256 ^ len * k) := by
        rw [Nat.pow_succ', Nat.mul_assoc]
      have hbyte : UInt8.ofNat (n + 256 * (256 ^ len * k)) = UInt8.ofNat n := by
        rw [← UInt8.toNat_inj, UInt8.toNat_ofNat', UInt8.toNat_ofNat',
          Nat.add_mul_mod_self_left]
      rw [bytesOf, bytesOf, hsplit, hbyte, Nat.add_mul_div_left _ _ (by decide), ih]

def vectorOf (len n : Nat) : Vector UInt8 len :=
  ⟨(bytesOf len n).toArray, by simp⟩

theorem littleEndian_vectorOf {len n : Nat} (h : n < 256 ^ len) :
    littleEndian (vectorOf len n).toList = n :=
  littleEndian_bytesOf h

/-- A number below `2 ^ 255` leaves the highest bit of its 32 bytes clear. -/
theorem last_lt_of_littleEndian_lt {v : Vector UInt8 32}
    (h : littleEndian v.toList < 2 ^ 255) : v[31].toNat < 128 := by
  have hlength : v.toList.length = 32 := Vector.length_toList
  have hsplit : v.toList = v.toList.take 31 ++ [v[31]] := by
    conv_lhs => rw [← List.take_append_drop 31 v.toList]
    rw [List.drop_eq_getElem_cons (by omega), List.drop_of_length_le (by omega)]
    simp
  have htake : (v.toList.take 31).length = 31 := by
    rw [List.length_take, hlength]
    rfl
  rw [hsplit, littleEndian_snoc, htake] at h
  omega

def mark (v : Vector UInt8 32) : Vector UInt8 32 :=
  v.set 31 (v[31] ||| 128)

def unmark (v : Vector UInt8 32) : Vector UInt8 32 :=
  v.set 31 (v[31] &&& 127)

theorem or_and_marker {b : UInt8} (h : b.toNat < 128) :
    (b ||| 128) &&& 127 = b ∧ (b ||| 128) &&& 128 = 128 := by
  have hall : ∀ n : Fin 128, (UInt8.ofNat n ||| 128) &&& 127 = UInt8.ofNat n ∧
      (UInt8.ofNat n ||| 128) &&& 128 = 128 := by
    decide
  have hb := hall ⟨b.toNat, h⟩
  rw [UInt8.ofNat_toNat] at hb
  exact hb

theorem unmark_mark {v : Vector UInt8 32} (h : v[31].toNat < 128) :
    unmark (mark v) = v := by
  have hbyte := (or_and_marker h).1
  rw [unmark, mark, Vector.getElem_set_self, hbyte, Vector.set_set]
  exact Vector.set_getElem_self _

end LedgerSovereign.LittleEndian
