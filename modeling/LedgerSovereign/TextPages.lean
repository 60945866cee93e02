import Mathlib.Data.List.Basic
import Mathlib.Data.List.TakeDrop

namespace LedgerSovereign.TextPages

variable {α : Type*}

theorem length_flatten_le {pages : List (List α)} {width : Nat}
    (h : ∀ page ∈ pages, page.length ≤ width) :
    pages.flatten.length ≤ pages.length * width := by
  induction pages with
  | nil => exact Nat.zero_le _
  | cons page pages ih =>
      rw [List.forall_mem_cons] at h
      have hrest := ih h.2
      rw [List.flatten_cons, List.length_append, List.length_cons, Nat.succ_mul]
      omega

theorem length_le_flatten {pages : List (List α)} (h : ∀ page ∈ pages, page ≠ []) :
    pages.length ≤ pages.flatten.length := by
  induction pages with
  | nil => exact Nat.zero_le _
  | cons page pages ih =>
      rw [List.forall_mem_cons] at h
      have hpage := List.length_pos_of_ne_nil h.1
      have hrest := ih h.2
      rw [List.flatten_cons, List.length_append, List.length_cons]
      omega

/-- Pages read one by one are the pages. -/
theorem map_range_eq {pages : List α} {page : Nat → α}
    (h : ∀ i < pages.length, pages[i]? = some (page i)) :
    (List.range pages.length).map page = pages := by
  apply List.ext_getElem?
  intro i
  rcases Nat.lt_or_ge i pages.length with hlt | hge
  · rw [List.getElem?_map, List.getElem?_range hlt, Option.map_some, h i hlt]
  · rw [List.getElem?_eq_none hge, List.getElem?_eq_none (by simpa using hge)]

/-- The first pages are the whole text only when there are no others. -/
theorem flatten_take_eq_iff {pages : List (List α)} (h : ∀ page ∈ pages, page ≠ [])
    (k : Nat) : (pages.take k).flatten = pages.flatten ↔ pages.length ≤ k := by
  constructor
  · intro hflatten
    have hsplit : (pages.take k).flatten ++ (pages.drop k).flatten =
        (pages.take k).flatten := by
      rw [← List.flatten_append, List.take_append_drop, hflatten]
    have hrest := List.flatten_eq_nil_iff.mp (List.append_right_eq_self.mp hsplit)
    have hempty : pages.drop k = [] := by
      apply List.eq_nil_iff_forall_not_mem.mpr
      intro page hpage
      exact h page (List.mem_of_mem_drop hpage) (hrest page hpage)
    exact List.drop_eq_nil_iff.mp hempty
  · intro hle
    rw [List.take_of_length_le hle]

/-- The consecutive slices of a text, all but the last of the full width. -/
def slices (width : Nat) (text : List α) : List (List α) :=
  (List.range ((text.length + width - 1) / width)).map fun i =>
    (text.drop (width * i)).take width

theorem length_slices (width : Nat) (text : List α) :
    (slices width text).length = (text.length + width - 1) / width := by
  rw [slices, List.length_map, List.length_range]

theorem getElem?_slices {width i : Nat} {text : List α}
    (h : i < (slices width text).length) :
    (slices width text)[i]? = some ((text.drop (width * i)).take width) := by
  rw [length_slices] at h
  rw [slices, List.getElem?_map, List.getElem?_range h, Option.map_some]

theorem flatten_range_slices (width : Nat) (text : List α) (n : Nat) :
    ((List.range n).map fun i => (text.drop (width * i)).take width).flatten =
      text.take (width * n) := by
  induction n with
  | zero => simp
  | succ n ih =>
      rw [List.range_succ, List.map_append, List.flatten_append, ih, Nat.mul_succ,
        List.take_add]
      simp

theorem flatten_slices {width : Nat} (hwidth : 0 < width) (text : List α) :
    (slices width text).flatten = text := by
  have hdiv := Nat.lt_div_mul_add (a := text.length + width - 1) hwidth
  rw [slices, flatten_range_slices]
  apply List.take_of_length_le
  rw [Nat.mul_comm]
  omega

theorem length_le_of_mem_slices {width : Nat} {text page : List α}
    (h : page ∈ slices width text) : page.length ≤ width := by
  obtain ⟨i, -, rfl⟩ := List.mem_map.mp h
  exact List.length_take_le _ _

theorem ne_nil_of_mem_slices {width : Nat} {text page : List α}
    (hwidth : 0 < width) (h : page ∈ slices width text) : page ≠ [] := by
  obtain ⟨i, hi, rfl⟩ := List.mem_map.mp h
  rw [List.mem_range, Nat.lt_div_iff_mul_lt hwidth] at hi
  apply List.ne_nil_of_length_pos
  rw [List.length_take, List.length_drop, Nat.mul_comm]
  omega

theorem slices_append {width : Nat} {page : List α} (hwidth : 0 < width)
    (hpage : page.length = width) (text : List α) :
    slices width (page ++ text) = page :: slices width text := by
  have hcount : ((page ++ text).length + width - 1) / width =
      (text.length + width - 1) / width + 1 := by
    rw [← Nat.add_div_right _ hwidth, List.length_append, hpage]
    congr 1
    omega
  rw [slices, hcount, List.range_succ_eq_map, List.map_cons, List.map_map, slices]
  congr 1
  · rw [Nat.mul_zero, List.drop_zero, List.take_left' hpage]
  · apply List.map_congr_left
    intro i _
    simp only [Function.comp_apply, Nat.mul_succ, Nat.add_comm (width * i)]
    rw [← List.drop_drop, List.drop_left' hpage]

/-- Where the width divides a text, every slice is full. -/
theorem length_of_mem_slices {width : Nat} {text page : List α}
    (hwidth : 0 < width) (hdvd : width ∣ text.length) (h : page ∈ slices width text) :
    page.length = width := by
  obtain ⟨i, hi, rfl⟩ := List.mem_map.mp h
  obtain ⟨k, hk⟩ := hdvd
  rw [List.mem_range, Nat.lt_div_iff_mul_lt hwidth, hk, Nat.mul_comm i] at hi
  have hlt : i < k := by
    apply Nat.lt_of_mul_lt_mul_left (a := width)
    omega
  have hle : width * (i + 1) ≤ width * k := Nat.mul_le_mul_left width hlt
  rw [List.length_take, List.length_drop, hk]
  rw [Nat.mul_succ] at hle
  omega

end LedgerSovereign.TextPages
