import LedgerSovereign.TextPages
import Mathlib.Data.List.GetD

namespace LedgerSovereign.BitGroups

open LedgerSovereign.TextPages

variable {v w : Nat}

def toBits (value : BitVec w) : List Bool :=
  (List.range w).map value.getMsbD

def ofBits : (w : Nat) → List Bool → BitVec w
  | 0, _ => 0#0
  | w + 1, bits => BitVec.cons (bits.headD false) (ofBits w bits.tail)

@[simp] theorem length_toBits (value : BitVec w) : (toBits value).length = w := by
  simp [toBits]

theorem getMsbD_ofBits {w i : Nat} (h : i < w) (bits : List Bool) :
    (ofBits w bits).getMsbD i = bits.getD i false := by
  induction w generalizing i bits with
  | zero => omega
  | succ w ih =>
      cases i with
      | zero => cases bits <;> simp [ofBits]
      | succ i =>
          rw [ofBits, BitVec.getMsbD_cons_succ, ih (Nat.lt_of_succ_lt_succ h)]
          cases bits <;> simp

theorem ofBits_toBits (value : BitVec w) : ofBits w (toBits value) = value := by
  apply BitVec.eq_of_getMsbD_eq
  intro i hi
  rw [getMsbD_ofBits hi, List.getD_eq_getElem _ _ (by simpa using hi)]
  simp [toBits]

theorem toBits_ofBits {bits : List Bool} (h : bits.length = w) :
    toBits (ofBits w bits) = bits := by
  apply List.ext_getElem
  · rw [length_toBits, h]
  · intro i hi hi'
    simp only [toBits, List.getElem_map, List.getElem_range]
    rw [getMsbD_ofBits (by omega), List.getD_eq_getElem _ _ hi']

/-- The bits of a sequence of values. -/
def stream (values : List (BitVec w)) : List Bool :=
  values.flatMap toBits

def groups (w : Nat) (bits : List Bool) : List (BitVec w) :=
  (slices w bits).map (ofBits w)

theorem length_stream (values : List (BitVec w)) :
    (stream values).length = w * values.length := by
  induction values with
  | nil => rfl
  | cons value values ih =>
      rw [stream, List.flatMap_cons, List.length_append, length_toBits]
      change w + (stream values).length = _
      rw [ih, List.length_cons, Nat.mul_succ, Nat.add_comm]

theorem groups_stream (hw : 0 < w) (values : List (BitVec w)) :
    groups w (stream values) = values := by
  induction values with
  | nil => simp [groups, stream, slices, Nat.div_eq_of_lt (Nat.sub_lt hw Nat.one_pos)]
  | cons value values ih =>
      rw [groups, stream, List.flatMap_cons, slices_append hw (length_toBits value),
        List.map_cons, ofBits_toBits]
      exact congrArg (value :: ·) ih

theorem stream_groups (hw : 0 < w) {bits : List Bool} (hdvd : w ∣ bits.length) :
    stream (groups w bits) = bits := by
  have hfull : ∀ page ∈ slices w bits, (toBits ∘ ofBits w) page = id page :=
    fun _ hpage => toBits_ofBits (length_of_mem_slices hw hdvd hpage)
  calc stream (groups w bits)
      = ((slices w bits).map (toBits ∘ ofBits w)).flatten := by
        rw [stream, groups, List.flatMap_def, List.map_map]
    _ = (slices w bits).flatten := by
        rw [List.map_congr_left hfull, List.map_id]
    _ = bits := flatten_slices hw bits

/-- The number of zeros that fill the last group. -/
def missing (w length : Nat) : Nat :=
  (w - length % w) % w

def regroup (w : Nat) (values : List (BitVec v)) : List (BitVec w) :=
  let bits := stream values
  groups w (bits ++ List.replicate (missing w bits.length) false)

/-- Groups are taken apart again when less than a group is left over, and only
zeros. -/
def ungroup (v : Nat) (values : List (BitVec w)) : Option (List (BitVec v)) :=
  let bits := stream values
  let rest := bits.length % v
  let used := bits.length - rest
  if rest < w ∧ ∀ bit ∈ bits.drop used, bit = false then
    some (groups v (bits.take used))
  else none

theorem missing_lt (hw : 0 < w) (length : Nat) : missing w length < w :=
  Nat.mod_lt _ hw

theorem dvd_add_missing (hw : 0 < w) (length : Nat) : w ∣ length + missing w length := by
  have hlt := Nat.mod_lt length hw
  have hsplit := Nat.div_add_mod length w
  have hfilled : length + (w - length % w) = w * (length / w + 1) := by
    rw [Nat.mul_succ]
    omega
  apply Nat.dvd_of_mod_eq_zero
  rw [missing, Nat.add_mod_mod, hfilled, Nat.mul_mod_right]

theorem stream_regroup (hw : 0 < w) (values : List (BitVec v)) :
    stream (regroup w values) =
      stream values ++ List.replicate (missing w (stream values).length) false := by
  apply stream_groups hw
  rw [List.length_append, List.length_replicate]
  exact dvd_add_missing hw _

theorem length_regroup (hw : 0 < w) (values : List (BitVec v)) :
    w * (regroup w values).length = v * values.length + missing w (v * values.length) := by
  rw [← length_stream, stream_regroup hw, List.length_append, List.length_replicate,
    length_stream]

/-- Where the groups are no wider than the values, the zeros that fill the last one
are what is left over. -/
theorem ungroup_regroup (hw : 0 < w) (hv : w ≤ v) (values : List (BitVec v)) :
    ungroup v (regroup w values) = some values := by
  have hmissing := missing_lt hw (stream values).length
  have hlength := length_stream values
  have hrest : ((stream values).length + missing w (stream values).length) % v =
      missing w (stream values).length := by
    rw [hlength] at hmissing ⊢
    rw [Nat.mul_add_mod, Nat.mod_eq_of_lt (Nat.lt_of_lt_of_le hmissing hv)]
  simp only [ungroup, stream_regroup hw, List.length_append, List.length_replicate, hrest,
    Nat.add_sub_cancel]
  rw [List.take_left' rfl, List.drop_left' rfl, groups_stream (Nat.lt_of_lt_of_le hw hv), if_pos]
  exact ⟨hmissing, fun _ => List.eq_of_mem_replicate⟩

end LedgerSovereign.BitGroups
