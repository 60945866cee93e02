import LedgerSovereign.Constants
import Mathlib.Algebra.Group.Nat.Defs

/-!
zxlib's buffering module, which keeps the message of a signing session in RAM
and moves it to flash once RAM is too small.  Its code lies outside the
application; what the application relies on is stated here.
-/

namespace LedgerSovereign.BufferingInterface

/-- The two arrays `tx.c` gives to `buffering_init`. -/
inductive Region
  | ramBuffer
  | appdata
  deriving DecidableEq, Repr

/-- The operations of the module.  `data` and `pos` are the fields of
`buffering_get_buffer()`, `memory` is what the arrays hold, and `capacity` is
what the sizes given to `init` leave room for. -/
structure Buffering where
  State : Type
  init : (ramSize flashSize : Nat) → State → State
  reset : State → State
  append : State → List UInt8 → State × UInt32
  data : State → Option Region
  pos : State → UInt32
  memory : State → Region → List UInt8
  capacity : State → Nat

namespace Buffering

/-- The bytes that a pointer into one of the arrays and a length denote. -/
def bytesAt (B : Buffering) (s : B.State) (ptr : Option Region) (len : Nat) :
    List UInt8 :=
  match ptr with
  | none => []
  | some region => (B.memory s region).take len

/-- The bytes appended since the last reset. -/
def content (B : Buffering) (s : B.State) : List UInt8 :=
  B.bytesAt s (B.data s) (B.pos s).toNat

/-- `buffering_append` appends its whole input and returns its length, or
appends nothing and returns 0; the message starts empty and stays within the
capacity that the sizes at initialization give. -/
structure AppendsOrRefuses (B : Buffering) : Prop where
  capacity_init : ∀ ramSize flashSize s,
    ramSize ≤ flashSize → flashSize < 2 ^ 16 →
    B.capacity (B.init ramSize flashSize s) = flashSize
  capacity_reset : ∀ s, B.capacity (B.reset s) = B.capacity s
  capacity_append : ∀ s bytes,
    B.capacity (B.append s bytes).1 = B.capacity s
  content_reset : ∀ s, B.content (B.reset s) = []
  length_content : ∀ s, (B.content s).length = (B.pos s).toNat
  content_le : ∀ s, (B.content s).length ≤ B.capacity s
  append : ∀ s bytes, bytes.length < 2 ^ 32 →
    ((B.append s bytes).2 = UInt32.ofNat bytes.length ∧
        B.content (B.append s bytes).1 = B.content s ++ bytes) ∨
      ((B.append s bytes).2 = 0 ∧
        B.content (B.append s bytes).1 = B.content s)

/-- Moreover a chunk is accepted exactly when the new total fits. -/
structure AppendsUpToCapacity (B : Buffering) : Prop
    extends AppendsOrRefuses B where
  append_fits : ∀ s bytes, (B.content s).length + bytes.length ≤ B.capacity s →
    (B.append s bytes).2 = UInt32.ofNat bytes.length ∧
      B.content (B.append s bytes).1 = B.content s ++ bytes
  append_full : ∀ s bytes, B.capacity s < (B.content s).length + bytes.length →
    (B.append s bytes).2 = 0 ∧
      B.content (B.append s bytes).1 = B.content s

end Buffering

/-- A message buffer with the two arrays: it starts in RAM and continues in
flash from the first chunk on that does not fit there. -/
structure RamFlash where
  ramSize : Nat
  flashSize : Nat
  ram : List UInt8
  flash : List UInt8
  inFlash : Bool
  ram_le : ram.length ≤ ramSize
  flash_le : flash.length ≤ flashSize
  size_le : ramSize ≤ flashSize
  flashSize_lt : flashSize < 2 ^ 16

namespace RamFlash

def region (s : RamFlash) : Region :=
  if s.inFlash then .appdata else .ramBuffer

def message (s : RamFlash) : List UInt8 :=
  if s.inFlash then s.flash else s.ram

def init (ramSize flashSize : Nat) : RamFlash where
  ramSize := min ramSize (min flashSize 65535)
  flashSize := min flashSize 65535
  ram := []
  flash := []
  inFlash := false
  ram_le := by simp
  flash_le := by simp
  size_le := by omega
  flashSize_lt := by omega

def reset (s : RamFlash) : RamFlash :=
  { s with ram := [], flash := [], inFlash := false, ram_le := by simp,
           flash_le := by simp }

/-- Append in place while the chunk fits, otherwise try the message so far and
the chunk in flash. -/
def append (s : RamFlash) (bytes : List UInt8) : RamFlash × UInt32 :=
  if hram : s.inFlash = false ∧ s.ram.length + bytes.length ≤ s.ramSize then
    ({ s with ram := s.ram ++ bytes, ram_le := by simpa using hram.2 },
      UInt32.ofNat bytes.length)
  else if hflash : s.message.length + bytes.length ≤ s.flashSize then
    ({ s with flash := s.message ++ bytes, inFlash := true,
              flash_le := by simpa using hflash },
      UInt32.ofNat bytes.length)
  else
    (s, 0)

theorem length_message_le (s : RamFlash) : s.message.length ≤ s.flashSize := by
  have hram := s.ram_le
  have hflash := s.flash_le
  have hsize := s.size_le
  unfold message
  split <;> omega

theorem append_fits (s : RamFlash) {bytes : List UInt8}
    (h : s.message.length + bytes.length ≤ s.flashSize) :
    (s.append bytes).2 = UInt32.ofNat bytes.length ∧
      (s.append bytes).1.message = s.message ++ bytes := by
  unfold append
  split
  · rename_i hram
    simp [message, hram.1]
  · simp [message]

theorem append_full (s : RamFlash) {bytes : List UInt8}
    (h : s.flashSize < s.message.length + bytes.length) :
    s.append bytes = (s, 0) := by
  have hsize := s.size_le
  have hram : ¬ (s.inFlash = false ∧
      s.ram.length + bytes.length ≤ s.ramSize) := by
    rintro ⟨hregion, hle⟩
    simp only [message, hregion] at h
    simp at h
    omega
  rw [append, dif_neg hram, dif_neg (by omega)]

end RamFlash

def ramFlashBuffering : Buffering where
  State := RamFlash
  init ramSize flashSize _ := RamFlash.init ramSize flashSize
  reset := RamFlash.reset
  append := RamFlash.append
  data s := some s.region
  pos s := UInt32.ofNat s.message.length
  memory s
    | .ramBuffer => s.ram
    | .appdata => s.flash
  capacity := RamFlash.flashSize

theorem toNat_pos_ramFlashBuffering (s : ramFlashBuffering.State) :
    (ramFlashBuffering.pos s).toNat = (RamFlash.message s).length := by
  have hle := RamFlash.length_message_le s
  have hlt := RamFlash.flashSize_lt s
  change (UInt32.ofNat (RamFlash.message s).length).toNat = _
  rw [UInt32.toNat_ofNat']
  omega

theorem content_ramFlashBuffering (s : ramFlashBuffering.State) :
    ramFlashBuffering.content s = RamFlash.message s := by
  rw [Buffering.content, toNat_pos_ramFlashBuffering]
  change ramFlashBuffering.bytesAt s (some (RamFlash.region s)) _ = _
  unfold Buffering.bytesAt RamFlash.region RamFlash.message
  cases RamFlash.inFlash s <;> simp [ramFlashBuffering]

theorem ramFlashBuffering_appendsUpToCapacity :
    ramFlashBuffering.AppendsUpToCapacity where
  capacity_init ramSize flashSize _ hle hlt := by
    change min flashSize 65535 = flashSize
    omega
  capacity_reset _ := rfl
  capacity_append s bytes := by
    change (RamFlash.append s bytes).1.flashSize = s.flashSize
    unfold RamFlash.append
    split
    · rfl
    · split <;> rfl
  content_reset s := by
    rw [content_ramFlashBuffering]
    rfl
  length_content s := by
    rw [content_ramFlashBuffering, toNat_pos_ramFlashBuffering]
  content_le s := by
    rw [content_ramFlashBuffering]
    exact RamFlash.length_message_le s
  append s bytes _ := by
    simp only [content_ramFlashBuffering]
    by_cases h : (RamFlash.message s).length + bytes.length ≤
        RamFlash.flashSize s
    · exact .inl (RamFlash.append_fits s h)
    · right
      change (RamFlash.append s bytes).2 = 0 ∧
        (RamFlash.append s bytes).1.message = _
      rw [RamFlash.append_full s (by omega)]
      exact ⟨rfl, rfl⟩
  append_fits s bytes h := by
    simp only [content_ramFlashBuffering] at h ⊢
    exact RamFlash.append_fits s h
  append_full s bytes h := by
    simp only [content_ramFlashBuffering] at h ⊢
    change (RamFlash.append s bytes).2 = 0 ∧
      (RamFlash.append s bytes).1.message = _
    rw [RamFlash.append_full s h]
    exact ⟨rfl, rfl⟩

/-- A message buffer without the array in RAM. -/
structure FlashOnly where
  size : Nat
  message : List UInt8
  message_le : message.length ≤ size
  size_lt : size < 2 ^ 16

def FlashOnly.append (s : FlashOnly) (bytes : List UInt8) : FlashOnly × UInt32 :=
  if h : (s.message ++ bytes).length ≤ s.size then
    ({ s with message := s.message ++ bytes, message_le := h },
      UInt32.ofNat bytes.length)
  else
    (s, 0)

theorem FlashOnly.nil_le (size : Nat) : ([] : List UInt8).length ≤ size :=
  Nat.zero_le size

theorem FlashOnly.min_size_lt (flashSize : Nat) :
    min flashSize 65535 < 2 ^ 16 := by
  omega

def FlashOnly.init (flashSize : Nat) : FlashOnly where
  size := min flashSize 65535
  message := []
  message_le := FlashOnly.nil_le _
  size_lt := FlashOnly.min_size_lt flashSize

def FlashOnly.reset (s : FlashOnly) : FlashOnly :=
  { s with message := [], message_le := FlashOnly.nil_le s.size }

def flashOnlyBuffering : Buffering where
  State := FlashOnly
  init _ flashSize _ := FlashOnly.init flashSize
  reset := FlashOnly.reset
  append := FlashOnly.append
  data _ := some .appdata
  pos s := UInt32.ofNat s.message.length
  memory s _ := s.message
  capacity := FlashOnly.size

theorem toNat_pos_flashOnlyBuffering (s : flashOnlyBuffering.State) :
    (flashOnlyBuffering.pos s).toNat = (FlashOnly.message s).length := by
  have hle := FlashOnly.message_le s
  have hlt := FlashOnly.size_lt s
  change (UInt32.ofNat (FlashOnly.message s).length).toNat = _
  rw [UInt32.toNat_ofNat']
  omega

theorem content_flashOnlyBuffering (s : flashOnlyBuffering.State) :
    flashOnlyBuffering.content s = FlashOnly.message s := by
  rw [Buffering.content, toNat_pos_flashOnlyBuffering]
  exact List.take_length

theorem FlashOnly.append_fits (s : FlashOnly) {bytes : List UInt8}
    (h : s.message.length + bytes.length ≤ s.size) :
    (s.append bytes).2 = UInt32.ofNat bytes.length ∧
      (s.append bytes).1.message = s.message ++ bytes := by
  rw [append, dif_pos (by simpa using h)]
  exact ⟨rfl, rfl⟩

theorem FlashOnly.append_full (s : FlashOnly) {bytes : List UInt8}
    (h : s.size < s.message.length + bytes.length) : s.append bytes = (s, 0) :=
  dif_neg (by simpa using h)

theorem flashOnlyBuffering_appendsUpToCapacity :
    flashOnlyBuffering.AppendsUpToCapacity where
  capacity_init ramSize flashSize _ _ hlt := by
    change min flashSize 65535 = flashSize
    omega
  capacity_reset _ := rfl
  capacity_append s bytes := by
    change (FlashOnly.append s bytes).1.size = s.size
    unfold FlashOnly.append
    split <;> rfl
  content_reset s := by
    rw [content_flashOnlyBuffering]
    rfl
  length_content s := by
    rw [content_flashOnlyBuffering, toNat_pos_flashOnlyBuffering]
  content_le s := by
    rw [content_flashOnlyBuffering]
    exact FlashOnly.message_le s
  append s bytes _ := by
    simp only [content_flashOnlyBuffering]
    by_cases h : (FlashOnly.message s).length + bytes.length ≤ FlashOnly.size s
    · exact .inl (FlashOnly.append_fits s h)
    · right
      change (FlashOnly.append s bytes).2 = 0 ∧
        (FlashOnly.append s bytes).1.message = _
      rw [FlashOnly.append_full s (by omega)]
      exact ⟨rfl, rfl⟩
  append_fits s bytes h := by
    simp only [content_flashOnlyBuffering] at h ⊢
    exact FlashOnly.append_fits s h
  append_full s bytes h := by
    simp only [content_flashOnlyBuffering] at h ⊢
    change (FlashOnly.append s bytes).2 = 0 ∧
      (FlashOnly.append s bytes).1.message = _
    rw [FlashOnly.append_full s h]
    exact ⟨rfl, rfl⟩

end LedgerSovereign.BufferingInterface
