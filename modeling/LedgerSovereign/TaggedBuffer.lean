import Mathlib.Data.List.Basic
import Mathlib.Data.List.TakeDrop

/-!
Fixed-size byte buffers that serve as request, scratch area and reply at once.
Every cell remembers where its byte came from: from the request, from a store
of the program, or from whatever the buffer held before.
-/

namespace LedgerSovereign.TaggedBuffer

/-- Where the byte that a cell holds came from. -/
inductive Origin
  | stale
  | received
  | written
  deriving DecidableEq, Repr, Inhabited

structure Cell where
  val : UInt8
  origin : Origin
  deriving DecidableEq, Repr, Inhabited

def writtenCells (bytes : List UInt8) : List Cell :=
  bytes.map (Cell.mk · .written)

def receivedCells (bytes : List UInt8) : List Cell :=
  bytes.map (Cell.mk · .received)

def staleCells (bytes : List UInt8) : List Cell :=
  bytes.map (Cell.mk · .stale)

def cellBytes (cells : List Cell) : List UInt8 :=
  cells.map Cell.val

structure Buffer (n : Nat) where
  cells : List Cell
  size : cells.length = n

namespace Buffer

variable {n : Nat}

@[ext] theorem ext {a b : Buffer n} (h : a.cells = b.cells) : a = b := by
  cases a
  cases b
  simpa using h

/-- The `len` cells from offset `off` on, as far as the buffer reaches. -/
def slice (b : Buffer n) (off len : Nat) : List Cell :=
  (b.cells.drop off).take len

def load (b : Buffer n) (off len : Nat) : List UInt8 :=
  cellBytes (b.slice off len)

def byte (b : Buffer n) (i : Nat) : UInt8 :=
  (b.cells.getD i default).val

/-- The text from offset `off` up to its first zero byte. -/
def cString (b : Buffer n) (off : Nat) : List UInt8 :=
  (cellBytes (b.cells.drop off)).takeWhile (· ≠ 0)

/-- Store bytes from offset `off` on.  What would lie past the end of the buffer
is dropped, so the size is kept. -/
def store (b : Buffer n) (off : Nat) (bytes : List UInt8) : Buffer n where
  cells := (b.cells.take off ++ writtenCells bytes ++
    b.cells.drop (off + bytes.length)).take n
  size := by
    have hsize := b.size
    simp only [List.length_take, List.length_append, List.length_drop,
      writtenCells, List.length_map]
    omega

def zero (b : Buffer n) (len : Nat) : Buffer n :=
  b.store 0 (List.replicate len 0)

def zeros (n : Nat) : Buffer n where
  cells := writtenCells (List.replicate n 0)
  size := by simp [writtenCells]

end Buffer

@[simp] theorem length_writtenCells (bytes : List UInt8) :
    (writtenCells bytes).length = bytes.length := by
  simp [writtenCells]

@[simp] theorem length_receivedCells (bytes : List UInt8) :
    (receivedCells bytes).length = bytes.length := by
  simp [receivedCells]

@[simp] theorem length_staleCells (bytes : List UInt8) :
    (staleCells bytes).length = bytes.length := by
  simp [staleCells]

@[simp] theorem writtenCells_append (xs ys : List UInt8) :
    writtenCells (xs ++ ys) = writtenCells xs ++ writtenCells ys := by
  simp [writtenCells]

@[simp] theorem cellBytes_writtenCells (bytes : List UInt8) :
    cellBytes (writtenCells bytes) = bytes := by
  simp [cellBytes, writtenCells, Function.comp_def]

@[simp] theorem cellBytes_receivedCells (bytes : List UInt8) :
    cellBytes (receivedCells bytes) = bytes := by
  simp [cellBytes, receivedCells, Function.comp_def]

@[simp] theorem cellBytes_append (xs ys : List Cell) :
    cellBytes (xs ++ ys) = cellBytes xs ++ cellBytes ys := by
  simp [cellBytes]

theorem origin_of_mem_writtenCells {c : Cell} {bytes : List UInt8}
    (h : c ∈ writtenCells bytes) : c.origin = .written := by
  obtain ⟨v, -, rfl⟩ := List.mem_map.mp h
  rfl

theorem origin_of_mem_receivedCells {c : Cell} {bytes : List UInt8}
    (h : c ∈ receivedCells bytes) : c.origin = .received := by
  obtain ⟨v, -, rfl⟩ := List.mem_map.mp h
  rfl

namespace Buffer

variable {n : Nat}

theorem store_cells (b : Buffer n) {off : Nat} {bytes : List UInt8}
    (h : off + bytes.length ≤ n) :
    (b.store off bytes).cells =
      b.cells.take off ++ writtenCells bytes ++
        b.cells.drop (off + bytes.length) := by
  have hsize := b.size
  apply List.take_of_length_le
  simp only [List.length_append, List.length_take, List.length_drop,
    length_writtenCells]
  omega

/-- Stored right behind a prefix, bytes extend that prefix. -/
theorem slice_store_append (b : Buffer n) (off : Nat) (bytes : List UInt8)
    (h : off + bytes.length ≤ n) :
    (b.store off bytes).slice 0 (off + bytes.length) =
      b.slice 0 off ++ writtenCells bytes := by
  have hsize := b.size
  simp only [slice, store_cells b h, List.drop_zero]
  apply List.take_left'
  simp only [List.length_append, List.length_take, length_writtenCells]
  omega

theorem slice_store_self (b : Buffer n) {bytes : List UInt8}
    (h : bytes.length ≤ n) :
    (b.store 0 bytes).slice 0 bytes.length = writtenCells bytes := by
  have happend := b.slice_store_append 0 bytes (by omega)
  simpa [slice] using happend

theorem store_store_append (b : Buffer n) (off : Nat) (xs ys : List UInt8)
    (h : off + xs.length + ys.length ≤ n) :
    (b.store off xs).store (off + xs.length) ys = b.store off (xs ++ ys) := by
  have hsize := b.size
  ext1
  rw [store_cells _ h, store_cells b (by omega : off + xs.length ≤ n),
    store_cells b (by simp only [List.length_append]; omega)]
  have hlen : (b.cells.take off ++ writtenCells xs).length =
      off + xs.length := by
    simp only [List.length_append, List.length_take, length_writtenCells]
    omega
  rw [List.take_left' hlen, List.drop_append, hlen]
  rw [List.drop_of_length_le (by omega : _ ≤ off + xs.length + ys.length)]
  rw [List.drop_drop]
  simp only [writtenCells_append, List.append_assoc, List.nil_append,
    List.length_append]
  congr 4
  omega

theorem store_store_self (b : Buffer n) {off : Nat} {xs ys : List UInt8}
    (hlen : xs.length = ys.length) (h : off + ys.length ≤ n) :
    (b.store off xs).store off ys = b.store off ys := by
  have hsize := b.size
  ext1
  rw [store_cells _ h, store_cells b (by omega : off + xs.length ≤ n),
    store_cells b h, hlen]
  have hoff : (b.cells.take off).length = off := by
    simp only [List.length_take]
    omega
  have hwhole : (b.cells.take off ++ writtenCells xs).length =
      off + ys.length := by
    simp only [List.length_append, length_writtenCells, hoff, hlen]
  rw [List.drop_left' hwhole, List.append_assoc, List.append_assoc,
    List.take_left' hoff, ← List.append_assoc]

theorem store_store_suffix (b : Buffer n) (off k : Nat) (xs ys : List UInt8)
    (hlen : k + ys.length = xs.length) (h : off + xs.length ≤ n) :
    (b.store off xs).store (off + k) ys = b.store off (xs.take k ++ ys) := by
  have htake : (xs.take k).length = k := by
    simp only [List.length_take]
    omega
  have hdrop : (xs.drop k).length = ys.length := by
    simp only [List.length_drop]
    omega
  have hwhole := b.store_store_append off (xs.take k) (xs.drop k)
    (by omega)
  have hnew := b.store_store_append off (xs.take k) ys (by omega)
  rw [List.take_append_drop, htake] at hwhole
  rw [htake] at hnew
  rw [← hwhole, store_store_self _ hdrop (by omega), hnew]

theorem byte_store_self (b : Buffer n) {i : Nat} {bytes : List UInt8}
    (hi : i < bytes.length) (h : bytes.length ≤ n) :
    (b.store 0 bytes).byte i = bytes.getD i 0 := by
  rw [byte, store_cells b (by omega : 0 + bytes.length ≤ n)]
  rw [List.take_zero, List.nil_append, List.getD_eq_getElem?_getD,
    List.getElem?_append_left (by simpa using hi)]
  simp [writtenCells, hi]

theorem zero_all (b : Buffer n) : b.zero n = zeros n := by
  have hsize := b.size
  ext1
  rw [zero, store_cells b (by simp)]
  simp [zeros, List.drop_of_length_le, hsize]

theorem load_store_self (b : Buffer n) {k : Nat} {bytes : List UInt8}
    (hk : k ≤ bytes.length) (h : bytes.length ≤ n) :
    (b.store 0 bytes).load 0 k = bytes.take k := by
  rw [load, slice, store_cells b (by omega : 0 + bytes.length ≤ n)]
  rw [List.take_zero, List.nil_append, List.drop_zero,
    List.take_append_of_le_length (by simpa using hk)]
  rw [cellBytes, writtenCells, List.map_take, List.map_map]
  simp [Function.comp_def]

theorem load_zero (b : Buffer n) {len : Nat} (h : len ≤ n) :
    (b.zero len).load 0 len = List.replicate len 0 := by
  rw [zero, load_store_self b (by simp) (by simpa using h)]
  simp

theorem eq_zero_of_mem_load_zero (b : Buffer n) {len : Nat} {v : UInt8}
    (h : v ∈ (b.zero len).load 0 len) : v = 0 := by
  simp only [load, slice, zero, store, List.drop_zero, List.take_zero, List.nil_append,
    List.take_take, cellBytes, List.mem_map] at h
  obtain ⟨c, hc, rfl⟩ := h
  have hprefix : c ∈ writtenCells (List.replicate len 0) := by
    have hle : min len n ≤ (writtenCells (List.replicate len 0)).length := by
      rw [length_writtenCells, List.length_replicate]
      exact Nat.min_le_left len n
    rw [List.take_append_of_le_length hle] at hc
    exact List.mem_of_mem_take hc
  obtain ⟨v, hv, rfl⟩ := List.mem_map.mp hprefix
  exact List.eq_of_mem_replicate hv

/-- Zeros that are stored over from the start on stay behind what is stored. -/
theorem store_zero (b : Buffer n) {len : Nat} {bytes : List UInt8}
    (hlen : bytes.length ≤ len) (h : len ≤ n) :
    (b.zero len).store 0 bytes =
      b.store 0 (bytes ++ List.replicate (len - bytes.length) 0) := by
  ext1
  rw [zero, store_cells _ (by omega), store_cells b (by simpa using h),
    store_cells b (by simp only [List.length_append, List.length_replicate]; omega)]
  simp only [List.take_zero, List.nil_append, Nat.zero_add, writtenCells_append,
    List.length_append, List.length_replicate, List.append_assoc]
  rw [List.drop_append_of_le_length (by simpa using hlen), Nat.add_sub_cancel' hlen]
  congr 2
  simp [writtenCells]

theorem load_store_zero (b : Buffer n) {len : Nat} {bytes : List UInt8}
    (hlen : bytes.length ≤ len) (h : len ≤ n) :
    ((b.zero len).store 0 bytes).load 0 len =
      bytes ++ List.replicate (len - bytes.length) 0 := by
  have hlength : (bytes ++ List.replicate (len - bytes.length) 0).length = len := by
    rw [List.length_append, List.length_replicate, Nat.add_sub_cancel' hlen]
  rw [store_zero b hlen h, load_store_self b (Nat.le_of_eq hlength.symm) (by rwa [hlength]),
    List.take_of_length_le (Nat.le_of_eq hlength)]

theorem load_take (b : Buffer n) {off k len : Nat} (h : k ≤ len) :
    (b.load off len).take k = b.load off k := by
  rw [load, load, slice, slice, cellBytes, cellBytes, ← List.map_take,
    List.take_take, Nat.min_eq_left h]

/-- A store from the start on covers every earlier store within its reach. -/
theorem store_store_covered (b : Buffer n) {off : Nat} {xs ys : List UInt8}
    (hcover : off + xs.length ≤ ys.length) (h : ys.length ≤ n) :
    (b.store off xs).store 0 ys = b.store 0 ys := by
  have hsize := b.size
  ext1
  rw [store_cells _ (by omega : 0 + ys.length ≤ n),
    store_cells b (by omega : off + xs.length ≤ n),
    store_cells b (by omega : 0 + ys.length ≤ n)]
  have hlen : (b.cells.take off ++ writtenCells xs).length =
      off + xs.length := by
    simp only [List.length_append, List.length_take, length_writtenCells]
    omega
  have hpast : (b.cells.take off ++ writtenCells xs).drop ys.length = [] := by
    apply List.drop_of_length_le
    omega
  rw [List.take_zero, List.take_zero, Nat.zero_add, List.drop_append, hlen,
    hpast, List.drop_drop]
  rw [show off + xs.length + (ys.length - (off + xs.length)) = ys.length by
    omega]
  simp

theorem zero_store (b : Buffer n) {off len : Nat} {xs : List UInt8}
    (hcover : off + xs.length ≤ len) (h : len ≤ n) :
    (b.store off xs).zero len = b.zero len :=
  b.store_store_covered (by simpa using hcover) (by simpa using h)

/-- A text without zero bytes, stored with a terminator behind it, reads back
as that text. -/
theorem cString_store (b : Buffer n) (before : List UInt8) {text : List UInt8}
    (htext : (0 : UInt8) ∉ text) (h : before.length + text.length < n) :
    (b.store 0 (before ++ text ++ [0])).cString before.length = text := by
  have hfits : 0 + (before ++ text ++ [0]).length ≤ n := by
    simp only [List.length_append, List.length_singleton]
    omega
  rw [cString, store_cells b hfits, List.take_zero, List.nil_append]
  rw [List.append_assoc before, writtenCells_append, List.append_assoc,
    List.drop_left' (by simp), cellBytes_append, cellBytes_writtenCells]
  rw [List.append_assoc text, List.takeWhile_append_of_pos]
  · simp
  · intro v hv
    rw [decide_eq_true_eq]
    rintro rfl
    exact htext hv

theorem store_zeros_terminator {bytes : List UInt8} (h : bytes.length < n) :
    (zeros n).store 0 (bytes ++ [0]) = (zeros n).store 0 bytes := by
  ext1
  rw [store_cells _ (by simp; omega), store_cells _ (by omega)]
  obtain ⟨k, rfl⟩ : ∃ k, n = bytes.length + 1 + k :=
    ⟨n - (bytes.length + 1), by omega⟩
  have hk : bytes.length + 1 + k - bytes.length = k + 1 := by omega
  have hk' : bytes.length + 1 + k - (bytes.length + 1) = k := by omega
  simp [zeros, writtenCells, hk, hk', List.replicate_succ]

end Buffer

end LedgerSovereign.TaggedBuffer
