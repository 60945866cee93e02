import LedgerSovereign.Parser
import Mathlib.Algebra.Group.Nat.Defs

namespace LedgerSovereign.ParsedLength

open LedgerSovereign.Parser
open LedgerSovereign.PlatformInterface

variable {P T : Type}

/-- What the parser should leave for an input: an input is accepted when it has bytes
and a length of sixteen bits, and then it is described and rendered as a whole. -/
structure DescribesInput (data : P) (dataLen : UInt64)
    (result : ParserError × ParserContext P T × ParserTx P) : Prop where
  accepted : result.1 = .ok ↔ 0 < dataLen.toNat ∧ dataLen.toNat < 2 ^ 16
  context : result.1 = .ok →
    result.2.1.buffer = some data ∧ result.2.1.bufferLen.toNat = dataLen.toNat
  blob : result.1 = .ok →
    result.2.2.txBlindSignature.ptr = some data ∧
      result.2.2.txBlindSignature.len.toNat = dataLen.toNat
  rendered : result.1 = .ok →
    ∀ (platform : Platform) (memory : Memory P T) (outKeyLen outValLen : UInt16)
      (pageIdx : UInt8) (out : ItemOutput),
      memory.txAt result.2.1.txObj = result.2.2 →
      let item := parserGetItem platform memory result.2.1 1 outKeyLen outValLen pageIdx out
      item.1 = .ok ∧ item.2.outVal = (platform.pageStringHex outValLen
        (memory.bytesAt (some data) dataLen.toNat) pageIdx).1

theorem toNat_narrowed (dataLen : UInt64) :
    dataLen.toUInt16.toNat = dataLen.toNat % 2 ^ 16 :=
  UInt64.toNat_toUInt16 dataLen

theorem narrowed_eq_zero_iff (dataLen : UInt64) :
    dataLen.toUInt16 = 0 ↔ dataLen.toNat % 2 ^ 16 = 0 := by
  rw [← UInt16.toNat_inj, toNat_narrowed]
  rfl

theorem parserParse_accepts_iff (ctx : ParserContext P T) (data : P) (dataLen : UInt64)
    (txObj : T) (tx : ParserTx P) :
    (parserParse ctx (some data) dataLen txObj tx).1 = .ok ↔
      dataLen.toNat % 2 ^ 16 ≠ 0 := by
  rw [parserParse_eq, ne_eq, ← narrowed_eq_zero_iff]
  by_cases hzero : dataLen.toUInt16 = 0
  · simp [hzero]
  · simp [hzero]

/-- The context and the object of an accepted input. -/
theorem parserParse_accepted {ctx : ParserContext P T} {data : P} {dataLen : UInt64}
    {txObj : T} {tx : ParserTx P}
    (h : (parserParse ctx (some data) dataLen txObj tx).1 = .ok) :
    (parserParse ctx (some data) dataLen txObj tx).2 =
      (⟨some data, dataLen.toUInt16, 0, some txObj⟩, ⟨⟨some data, dataLen.toUInt16⟩⟩) := by
  rw [parserParse_accepts_iff, ne_eq, ← narrowed_eq_zero_iff] at h
  rw [parserParse_eq, if_neg (by simp [h])]

/-- An input is described as it should be exactly when its length has sixteen bits,
or leaves nothing in sixteen bits and is refused. -/
theorem parserParse_describes_iff (ctx : ParserContext P T) (data : P)
    (dataLen : UInt64) (txObj : T) (tx : ParserTx P) :
    DescribesInput data dataLen (parserParse ctx (some data) dataLen txObj tx) ↔
      dataLen.toNat < 2 ^ 16 ∨ dataLen.toNat % 2 ^ 16 = 0 := by
  have haccepts := parserParse_accepts_iff ctx data dataLen txObj tx
  constructor
  · intro h
    have haccepted := haccepts.symm.trans h.accepted
    omega
  · intro hlen
    have hwhole : (parserParse ctx (some data) dataLen txObj tx).1 = .ok →
        dataLen.toUInt16.toNat = dataLen.toNat := by
      rw [haccepts, toNat_narrowed]
      omega
    refine ⟨haccepts.trans (by omega), fun hok => ?_, fun hok => ?_, fun hok => ?_⟩
    · rw [parserParse_accepted hok]
      exact ⟨rfl, hwhole hok⟩
    · rw [parserParse_accepted hok]
      exact ⟨rfl, hwhole hok⟩
    · intro platform memory outKeyLen outValLen pageIdx out htx
      rw [parserParse_accepted hok] at htx ⊢
      refine ⟨rfl, ?_⟩
      rw [← hwhole hok]
      change (platform.pageStringHex outValLen (memory.bytesAt
        (memory.txAt (some txObj)).txBlindSignature.ptr
        (memory.txAt (some txObj)).txBlindSignature.len.toNat) pageIdx).1 = _
      rw [htx]

/-- One byte more than 2^16 is accepted as a single byte. -/
theorem long_input_not_described :
    parserParse (P := Unit) (T := Unit) ⟨none, 0, 0, none⟩ (some ()) 65537 ()
        (.zero Unit) =
      (.ok, ⟨some (), 1, 0, some ()⟩, ⟨⟨some (), 1⟩⟩) ∧
    ¬ DescribesInput () 65537 (parserParse (P := Unit) (T := Unit) ⟨none, 0, 0, none⟩
        (some ()) 65537 () (.zero Unit)) := by
  refine ⟨rfl, fun h => ?_⟩
  have hlen := (h.blob rfl).2
  revert hlen
  decide

end LedgerSovereign.ParsedLength
