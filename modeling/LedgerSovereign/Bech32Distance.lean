import LedgerSovereign.Bech32
import Mathlib.Data.List.Dedup
import Mathlib.Data.List.ProdSigma

namespace LedgerSovereign.Bech32

section Distinct

/-- Split a list by its bits, the highest of `d` bits first, until nothing is left
to tell apart. -/
def distinctBits : Nat → List Nat → Bool
  | _, [] => true
  | _, [_] => true
  | 0, _ => false
  | d + 1, xs =>
      distinctBits d (xs.filter fun x => Nat.beq ((x >>> d) % 2) 1) &&
        distinctBits d (xs.filter fun x => Nat.beq ((x >>> d) % 2) 0)

theorem nodup_of_filters {α : Type*} [DecidableEq α] {p q : α → Bool} {xs : List α}
    (hcover : ∀ x, p x = true ∨ q x = true) (hp : (xs.filter p).Nodup)
    (hq : (xs.filter q).Nodup) : xs.Nodup := by
  rw [List.nodup_iff_count_le_one] at hp hq ⊢
  intro x
  rcases hcover x with h | h
  · rw [← List.count_filter h]
    exact hp x
  · rw [← List.count_filter h]
    exact hq x

theorem nodup_of_distinctBits {d : Nat} {xs : List Nat}
    (h : distinctBits d xs = true) : xs.Nodup := by
  induction d, xs using distinctBits.induct with
  | case1 => exact List.nodup_nil
  | case2 => exact List.nodup_singleton _
  | case3 => simp [distinctBits] at h
  | case4 d xs _ _ ihOne ihZero =>
      rw [distinctBits, Bool.and_eq_true] at h
      · refine nodup_of_filters ?_ (ihOne h.1) (ihZero h.2)
        intro x
        rcases Nat.mod_two_eq_zero_or_one (x >>> d) with hx | hx
        · exact .inr (by rw [hx]; rfl)
        · exact .inl (by rw [hx]; rfl)
      · assumption
      · assumption

end Distinct

section Shifts

/-- The checksum after `k` zeros. -/
def shifted (k : Nat) (c : BitVec 30) : BitVec 30 :=
  polymod c (List.replicate k 0#5)

theorem shifted_xor (k : Nat) (a b : BitVec 30) :
    shifted k (a ^^^ b) = shifted k a ^^^ shifted k b := by
  have h := polymod_xor a b (List.replicate k 0#5)
  rwa [List.length_replicate] at h

theorem shifted_add (j k : Nat) (c : BitVec 30) :
    shifted (j + k) c = shifted k (shifted j c) := by
  rw [shifted, List.replicate_add, polymod_append]
  rfl

theorem shifted_zero (k : Nat) : shifted k 0#30 = 0#30 := by
  have h := shifted_xor k 0#30 0#30
  rwa [BitVec.xor_self, BitVec.xor_self] at h

/-- The low five bits show which bits left the checksum. -/
theorem reduction_low (c : BitVec 30) (h : (reduction c).setWidth 5 = 0#5) :
    c >>> 25 = 0#30 := by
  have hbits : ∀ b₀ b₁ b₂ b₃ b₄ : Bool,
      (pick b₀ 0x3b6a57b2 ^^^ pick b₁ 0x26508e6d ^^^ pick b₂ 0x1ea119fa ^^^
        pick b₃ 0x3d4233dd ^^^ pick b₄ 0x2a1462b3).setWidth 5 = 0#5 →
      b₀ = false ∧ b₁ = false ∧ b₂ = false ∧ b₃ = false ∧ b₄ = false := by
    decide
  obtain ⟨h₀, h₁, h₂, h₃, h₄⟩ := hbits _ _ _ _ _ h
  apply BitVec.eq_of_getLsbD_eq
  intro i hi
  rw [BitVec.getLsbD_ushiftRight, BitVec.getLsbD_zero]
  match i with
  | 0 => exact h₀
  | 1 => exact h₁
  | 2 => exact h₂
  | 3 => exact h₃
  | 4 => exact h₄
  | i + 5 => exact BitVec.getLsbD_of_ge c _ (by omega)

theorem polymodStep_eq (c : BitVec 30) (v : BitVec 5) :
    polymodStep c v = shifted 1 c ^^^ v.setWidth 30 := by
  change (c <<< 5) ^^^ v.setWidth 30 ^^^ reduction c =
    (c <<< 5) ^^^ (0#5).setWidth 30 ^^^ reduction c ^^^ v.setWidth 30
  rw [BitVec.setWidth_zero, BitVec.xor_zero]
  ac_rfl

/-- No step of the checksum loses anything: a zero may be taken back. -/
theorem eq_zero_of_shifted_one {c : BitVec 30} (h : shifted 1 c = 0#30) : c = 0#30 := by
  have hsame : c <<< 5 = reduction c := by
    rw [← BitVec.xor_eq_zero_iff]
    change (c <<< 5) ^^^ (0#5).setWidth 30 ^^^ reduction c = 0#30 at h
    rwa [BitVec.setWidth_zero, BitVec.xor_zero] at h
  have hlow : (reduction c).setWidth 5 = 0#5 := by
    rw [← hsame]
    apply BitVec.eq_of_getLsbD_eq
    intro i hi
    simp [hi]
  have hhigh := reduction_low c hlow
  have hbit (i : Nat) : c.getLsbD (25 + i) = false := by
    rw [← BitVec.getLsbD_ushiftRight, hhigh, BitVec.getLsbD_zero]
  have hshift : c <<< 5 = 0#30 := by
    rw [hsame, reduction, show c.getLsbD 25 = false from hbit 0,
      show c.getLsbD 26 = false from hbit 1, show c.getLsbD 27 = false from hbit 2,
      show c.getLsbD 28 = false from hbit 3, show c.getLsbD 29 = false from hbit 4]
    rfl
  apply BitVec.eq_of_getLsbD_eq
  intro i hi
  rw [BitVec.getLsbD_zero]
  rcases Nat.lt_or_ge i 25 with hlt | hge
  · have hmoved : (c <<< 5).getLsbD (i + 5) = false := by
      rw [hshift, BitVec.getLsbD_zero]
    rw [BitVec.getLsbD_shiftLeft] at hmoved
    simpa [show i + 5 < 30 by omega] using hmoved
  · rw [← Nat.add_sub_cancel' hge]
    exact hbit (i - 25)

theorem eq_zero_of_shifted {k : Nat} {c : BitVec 30} (h : shifted k c = 0#30) :
    c = 0#30 := by
  induction k with
  | zero => exact h
  | succ k ih =>
      rw [shifted_add] at h
      exact ih (eq_zero_of_shifted_one h)

end Shifts

section Columns

/-- A symbol at the end of what the checksum ran over. -/
def single (v : BitVec 5) : BitVec 30 :=
  v.setWidth 30

/-- What is left of a checksum when a symbol behind it may be anything. -/
def top (c : BitVec 30) : Nat :=
  (c >>> 5).toNat

def symbols : List (BitVec 5) :=
  (List.range 31).map fun v => BitVec.ofNat 5 (v + 1)

def columns : Nat → List (BitVec 30) → List (BitVec 30)
  | 0, _ => []
  | n + 1, col => col ++ columns n (col.map (shifted 1))

theorem mem_symbols : ∀ v : BitVec 5, v ≠ 0#5 → v ∈ symbols := by
  decide

theorem columns_eq (n k : Nat) (values : List (BitVec 5)) :
    columns n (values.map fun v => shifted k (single v)) =
      ((List.range n).map (k + ·) ×ˢ values).map
        fun place => shifted place.1 (single place.2) := by
  induction n generalizing k with
  | zero => rfl
  | succ n ih =>
      have hnext : (values.map fun v => shifted k (single v)).map (shifted 1) =
          values.map fun v => shifted (k + 1) (single v) := by
        rw [List.map_map]
        exact List.map_congr_left fun v _ => (shifted_add k 1 _).symm
      have hrange : (List.range (n + 1)).map (k + ·) =
          k :: (List.range n).map (k + 1 + ·) := by
        rw [List.range_succ_eq_map, List.map_cons, List.map_map]
        refine congrArg _ (List.map_congr_left fun i _ => ?_)
        change k + (i + 1) = k + 1 + i
        omega
      rw [columns, hnext, ih, hrange, List.product_cons, List.map_append, List.map_map]
      rfl

/-- In texts of up to ninety characters two symbols at two places differ in more than
the last group, and each differs so from none. -/
theorem distinct_columns :
    distinctBits 25 ((0#30 :: columns 88 (symbols.map fun v => shifted 1 (single v))).map
      top) = true := by
  decide +kernel

/-- How far from the end a symbol may stand, and the symbol. -/
def places : List (Nat × BitVec 5) :=
  (List.range 88).map (1 + ·) ×ˢ symbols

def topAt (place : Nat × BitVec 5) : Nat :=
  top (shifted place.1 (single place.2))

theorem mem_places {j : Nat} {v : BitVec 5} (hj : 0 < j) (hbound : j ≤ 88)
    (hv : v ≠ 0#5) : (j, v) ∈ places := by
  refine List.pair_mem_product.mpr ⟨List.mem_map.mpr ⟨j - 1, ?_, ?_⟩, mem_symbols v hv⟩
  · rw [List.mem_range]
    omega
  · omega

theorem map_top (ps : List (Nat × BitVec 5)) :
    (ps.map fun place => shifted place.1 (single place.2)).map top = ps.map topAt :=
  List.map_map

theorem nodup_tops : (top 0#30 :: places.map topAt).Nodup := by
  have h := nodup_of_distinctBits distinct_columns
  rwa [columns_eq, List.map_cons, map_top] at h

theorem top_shifted_ne {j : Nat} {v : BitVec 5} (hj : 0 < j) (hbound : j ≤ 88)
    (hv : v ≠ 0#5) : top (shifted j (single v)) ≠ top 0#30 := by
  intro h
  have hmem : topAt (j, v) ∈ places.map topAt :=
    List.mem_map_of_mem (mem_places hj hbound hv)
  apply (List.nodup_cons.mp nodup_tops).1
  rwa [topAt, h] at hmem

theorem top_shifted_inj {i j : Nat} {u v : BitVec 5} (hi : 0 < i) (hi' : i ≤ 88)
    (hj : 0 < j) (hj' : j ≤ 88) (hu : u ≠ 0#5) (hv : v ≠ 0#5)
    (h : top (shifted i (single u)) = top (shifted j (single v))) : i = j :=
  congrArg Prod.fst <|
    List.inj_on_of_nodup_map (List.nodup_cons.mp nodup_tops).2 (mem_places hi hi' hu)
      (mem_places hj hj' hv) h

theorem top_xor (a b : BitVec 30) : top (a ^^^ b) = top a ^^^ top b := by
  rw [top, BitVec.ushiftRight_xor_distrib, BitVec.toNat_xor]
  rfl

theorem top_single (v : BitVec 5) : top (single v) = top 0#30 := by
  revert v
  decide

/-- Equal but for a last symbol. -/
theorem top_eq_of_xor {a b : BitVec 30} {v : BitVec 5}
    (h : a ^^^ b ^^^ single v = 0#30) : top a = top b := by
  have hsame : a = b ^^^ single v := by
    rwa [BitVec.xor_assoc, BitVec.xor_eq_zero_iff] at h
  rw [hsame, top_xor, top_single]
  exact Nat.xor_zero _

end Columns

section Weight

theorem zeros_or_split (gs : List (BitVec 5)) :
    gs = List.replicate gs.length 0#5 ∨
      ∃ k v rest, gs = List.replicate k 0#5 ++ v :: rest ∧ v ≠ 0#5 := by
  induction gs with
  | nil => exact .inl rfl
  | cons g gs ih =>
      by_cases hg : g = 0#5
      · rcases ih with hzeros | ⟨k, v, rest, hsplit, hv⟩
        · left
          rw [hg, List.length_cons, List.replicate_succ, ← hzeros]
        · right
          exact ⟨k + 1, v, rest, by rw [hg, hsplit]; rfl, hv⟩
      · right
        exact ⟨0, g, gs, rfl, hg⟩

/-- The symbols that are not zero. -/
def weight (gs : List (BitVec 5)) : Nat :=
  gs.countP (· ≠ 0#5)

theorem weight_split {v : BitVec 5} (hv : v ≠ 0#5) (k : Nat) (rest : List (BitVec 5)) :
    weight (List.replicate k 0#5 ++ v :: rest) = weight rest + 1 := by
  simp [weight, List.countP_append, List.countP_replicate, hv]

theorem polymod_split (c : BitVec 30) (k : Nat) (v : BitVec 5)
    (rest : List (BitVec 5)) :
    polymod c (List.replicate k 0#5 ++ v :: rest) =
      polymod (shifted (k + 1) c ^^^ single v) rest := by
  rw [polymod_append, shifted_add, single, ← polymodStep_eq]
  rfl

theorem single_ne_zero {v : BitVec 5} (hv : v ≠ 0#5) : single v ≠ 0#30 := by
  revert v
  decide

/-- At most three symbols that are not zero do not add up to a checksum of zero. -/
theorem zeros_of_weight {gs : List (BitVec 5)} (hlength : gs.length ≤ 89)
    (hweight : weight gs ≤ 3) (hcheck : polymod 0#30 gs = 0#30) :
    gs = List.replicate gs.length 0#5 := by
  rcases zeros_or_split gs with hzeros | ⟨i, u, rest, hsplit, hu⟩
  · exact hzeros
  exfalso
  rw [hsplit, weight_split hu] at hweight
  rw [hsplit, polymod_split, shifted_zero, BitVec.zero_xor] at hcheck
  rw [hsplit, List.length_append, List.length_replicate, List.length_cons] at hlength
  -- the second symbol is to make up for the first
  rcases zeros_or_split rest with hzeros | ⟨j, v, rest', hsplit', hv⟩
  · rw [hzeros] at hcheck
    exact single_ne_zero hu (eq_zero_of_shifted hcheck)
  rw [hsplit', weight_split hv] at hweight
  rw [hsplit', polymod_split] at hcheck
  rw [hsplit', List.length_append, List.length_replicate, List.length_cons] at hlength
  rcases zeros_or_split rest' with hzeros | ⟨k, w, rest'', hsplit'', hw⟩
  · rw [hzeros] at hcheck
    refine top_shifted_ne (Nat.succ_pos j) (by omega) hu (top_eq_of_xor (v := v) ?_)
    rw [BitVec.xor_zero]
    exact eq_zero_of_shifted hcheck
  rw [hsplit'', weight_split hw] at hweight
  rw [hsplit'', polymod_split, shifted_xor, ← shifted_add] at hcheck
  rw [hsplit'', List.length_append, List.length_replicate, List.length_cons] at hlength
  -- three symbols are all there are
  rcases zeros_or_split rest'' with hzeros | ⟨l, x, rest₃, hsplit₃, hx⟩
  · rw [hzeros] at hcheck
    have hsame : j + 1 + (k + 1) = k + 1 :=
      top_shifted_inj (by omega) (by omega) (by omega) (by omega) hu hv
        (top_eq_of_xor (eq_zero_of_shifted hcheck))
    omega
  · rw [hsplit₃, weight_split hx] at hweight
    omega

end Weight

section Mismatches

/-- The places where two lists of one length differ. -/
def mismatches {α : Type*} [DecidableEq α] (xs ys : List α) : Nat :=
  (List.zip xs ys).countP fun pair => pair.1 ≠ pair.2

theorem weight_zipWith (gs hs : List (BitVec 5)) :
    weight (List.zipWith (· ^^^ ·) gs hs) = mismatches gs hs := by
  rw [weight, mismatches, ← List.map_uncurry_zip_eq_zipWith, List.countP_map]
  refine List.countP_congr fun pair _ => ?_
  change decide (pair.1 ^^^ pair.2 ≠ 0#5) = true ↔ _
  rw [decide_eq_true_iff, decide_eq_true_iff]
  exact not_congr BitVec.xor_eq_zero_iff

theorem polymod_zipWith (a b : BitVec 30) {gs hs : List (BitVec 5)}
    (hlength : gs.length = hs.length) :
    polymod (a ^^^ b) (List.zipWith (· ^^^ ·) gs hs) = polymod a gs ^^^ polymod b hs := by
  induction gs generalizing a b hs with
  | nil =>
      rw [List.length_nil, eq_comm, List.length_eq_zero_iff] at hlength
      rw [hlength]
      rfl
  | cons g gs ih =>
      obtain ⟨h, hs, rfl⟩ := List.exists_cons_of_length_eq_add_one hlength.symm
      rw [List.length_cons, List.length_cons, Nat.add_right_cancel_iff] at hlength
      have hstep := ih (polymodStep a g) (polymodStep b h) hlength
      rwa [← polymodStep_xor] at hstep

theorem eq_of_zipWith_zeros {gs hs : List (BitVec 5)} (hlength : gs.length = hs.length)
    (hzeros : List.zipWith (· ^^^ ·) gs hs =
      List.replicate (List.zipWith (· ^^^ ·) gs hs).length 0#5) : gs = hs := by
  refine List.ext_getElem hlength fun i hi hi' => ?_
  have hmem : gs[i] ^^^ hs[i] ∈ List.zipWith (· ^^^ ·) gs hs := by
    have hzip : i < (List.zipWith (· ^^^ ·) gs hs).length := by
      rw [List.length_zipWith]
      omega
    rw [← List.getElem_zipWith (f := (· ^^^ ·)) (i := i) (h := hzip)]
    exact List.getElem_mem _
  rw [hzeros] at hmem
  exact BitVec.xor_eq_zero_iff.mp (List.eq_of_mem_replicate hmem)

/-- Two lists with one checksum are the same or differ in four places or more. -/
theorem eq_of_mismatches {gs hs : List (BitVec 5)} {start : BitVec 30}
    (hlength : gs.length = hs.length) (hshort : gs.length ≤ 89)
    (hclose : mismatches gs hs ≤ 3)
    (hcheck : polymod start gs = polymod start hs) : gs = hs := by
  refine eq_of_zipWith_zeros hlength (zeros_of_weight ?_ ?_ ?_)
  · rw [List.length_zipWith]
    omega
  · rw [weight_zipWith]
    exact hclose
  · have hsum := polymod_zipWith start start hlength
    rwa [hcheck, BitVec.xor_self, BitVec.xor_self] at hsum

theorem mismatches_map {α β : Type*} [DecidableEq α] [DecidableEq β] (f : α → β)
    (xs ys : List α) : mismatches (xs.map f) (ys.map f) ≤ mismatches xs ys := by
  rw [mismatches, List.zip_map, List.countP_map]
  refine List.countP_mono_left fun pair _ hdiffer => ?_
  rw [Function.comp_apply, decide_eq_true_iff] at hdiffer
  exact decide_eq_true fun hsame => hdiffer (congrArg f hsame)

theorem mismatches_map_of_injective {α β : Type*} [DecidableEq α] [DecidableEq β]
    {f : α → β} (hf : Function.Injective f) (xs ys : List α) :
    mismatches (xs.map f) (ys.map f) = mismatches xs ys := by
  rw [mismatches, List.zip_map, List.countP_map]
  refine List.countP_congr fun pair _ => ?_
  rw [Function.comp_apply, decide_eq_true_iff, decide_eq_true_iff]
  exact hf.ne_iff

theorem mismatches_append {α : Type*} [DecidableEq α] {xs ys : List α}
    (hlength : xs.length = ys.length) (xs' ys' : List α) :
    mismatches (xs ++ xs') (ys ++ ys') = mismatches xs ys + mismatches xs' ys' := by
  rw [mismatches, List.zip_append hlength, List.countP_append]
  rfl

end Mismatches

section Texts

theorem charOf_of_groupOf {c : UInt8} {g : BitVec 5} (h : groupOf c = some g) :
    charOf g = c := by
  have hall : ∀ c : BitVec 8,
      ((groupOf ⟨c⟩).all fun g => charOf g == UInt8.ofBitVec c) = true := by
    decide +kernel
  have hc := hall c.toBitVec
  change ((groupOf c).all fun g => charOf g == c) = true at hc
  rw [h, Option.all_some] at hc
  exact beq_iff_eq.mp hc

theorem charOf_injective : Function.Injective charOf := by
  intro g h hsame
  have hgroup := groupOf_charOf g
  rw [hsame, groupOf_charOf] at hgroup
  exact (Option.some.inj hgroup).symm

theorem chars_of_groups {chars : List UInt8} {gs : List (BitVec 5)}
    (h : chars.mapM groupOf = some gs) : chars = gs.map charOf := by
  induction chars generalizing gs with
  | nil =>
      rw [List.mapM_nil] at h
      cases h
      rfl
  | cons c chars ih =>
      simp only [List.mapM_cons, Option.bind_eq_bind, Option.bind_eq_some_iff,
        Option.pure_def, Option.some.injEq] at h
      obtain ⟨g, hg, gs, hgs, rfl⟩ := h
      rw [List.map_cons, charOf_of_groupOf hg, ← ih hgs]

theorem dataPart_split (text : List UInt8) :
    dataPart text = text ∨ ∃ front, text = front ++ separator :: dataPart text := by
  have hparts := List.takeWhile_append_dropWhile (p := fun c => decide (c ≠ separator))
    (l := text.reverse)
  cases hrest : text.reverse.dropWhile (fun c => decide (c ≠ separator)) with
  | nil =>
      left
      rw [hrest, List.append_nil] at hparts
      rw [dataPart, hparts, List.reverse_reverse]
  | cons c rest =>
      right
      have hnot := List.head_dropWhile_not (l := text.reverse)
        (fun c => decide (c ≠ separator)) (by rw [hrest]; exact List.cons_ne_nil _ _)
      simp only [hrest, List.head_cons, decide_eq_false_iff_not, not_not] at hnot
      rw [hrest, hnot] at hparts
      refine ⟨rest.reverse, ?_⟩
      have hback := congrArg List.reverse hparts
      rw [List.reverse_reverse, List.reverse_append, List.reverse_cons,
        List.append_assoc] at hback
      exact hback.symm

/-- What an accepted text is made of. -/
theorem decode_some {constant : BitVec 30} {text hrp : List UInt8}
    {data : List (BitVec 5)} (h : decode constant text = some (hrp, data)) :
    ∃ gs, text.map toLower = hrp ++ separator :: gs.map charOf ∧
      polymod 1#30 (expand hrp ++ gs) = constant ∧ gs.length ≤ 88 ∧
      data = gs.take (gs.length - 6) := by
  rw [decode] at h
  split at h
  case isFalse => cases h
  case isTrue haccepted =>
    dsimp only at h
    split at h
    case h_2 => cases h
    case h_1 gs hgs =>
      split at h
      case isFalse => cases h
      case isTrue hvalid =>
        cases h
        have hchars := chars_of_groups hgs
        rcases dataPart_split (text.map toLower) with hall | ⟨front, hfront⟩
        · rw [hall, Nat.sub_self, Nat.zero_sub, List.take_zero] at hvalid
          exact absurd rfl hvalid.1
        · have htake : (text.map toLower).take ((text.map toLower).length -
              (dataPart (text.map toLower)).length - 1) = front := by
            have htotal := congrArg List.length hfront
            rw [List.length_append, List.length_cons] at htotal
            rw [show (text.map toLower).length - (dataPart (text.map toLower)).length - 1 =
              front.length by omega]
            rw [hfront]
            exact List.take_left
          rw [htake] at hvalid ⊢
          rw [hchars] at hfront
          refine ⟨gs, hfront, hvalid.2.2, ?_, rfl⟩
          have htotal := congrArg List.length hfront
          have hnonempty := List.length_pos_iff.mpr hvalid.1
          simp only [List.length_append, List.length_cons, List.length_map] at htotal
          omega

/-- Accepted texts under one prefix are the same but for the case of letters, or
differ in four characters or more. -/
theorem lower_eq_of_close {constant : BitVec 30} {text text' hrp : List UInt8}
    {data data' : List (BitVec 5)} (h : decode constant text = some (hrp, data))
    (h' : decode constant text' = some (hrp, data'))
    (hlength : text.length = text'.length) (hclose : mismatches text text' ≤ 3) :
    text.map toLower = text'.map toLower ∧ data = data' := by
  obtain ⟨gs, htext, hcheck, hbound, rfl⟩ := decode_some h
  obtain ⟨gs', htext', hcheck', -, rfl⟩ := decode_some h'
  have hgroups : gs.length = gs'.length := by
    have hlong := congrArg List.length htext
    have hlong' := congrArg List.length htext'
    simp only [List.length_map, List.length_append, List.length_cons] at hlong hlong'
    omega
  have hmismatches : mismatches gs gs' ≤ 3 := by
    calc mismatches gs gs' = mismatches (gs.map charOf) (gs'.map charOf) :=
        (mismatches_map_of_injective charOf_injective gs gs').symm
      _ ≤ mismatches (text.map toLower) (text'.map toLower) := by
        rw [htext, htext', List.append_cons hrp _ (gs.map charOf),
          List.append_cons hrp _ (gs'.map charOf), mismatches_append rfl]
        exact Nat.le_add_left _ _
      _ ≤ mismatches text text' := mismatches_map toLower text text'
      _ ≤ 3 := hclose
  have hsame : gs = gs' := by
    apply eq_of_mismatches hgroups (Nat.le_succ_of_le hbound) hmismatches
    rw [← hcheck'] at hcheck
    rwa [polymod_append, polymod_append] at hcheck
  rw [htext, htext', hsame]
  exact ⟨rfl, rfl⟩

end Texts

end LedgerSovereign.Bech32
