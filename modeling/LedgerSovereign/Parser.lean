import LedgerSovereign.PlatformInterface

/-!
`parser.c` and `parser_impl.c`.  Pointers to the message have the type `P` and
pointers to a transaction object the type `T`; NULL is `none`.
-/

namespace LedgerSovereign.Parser

open LedgerSovereign.Constants
open LedgerSovereign.PlatformInterface

inductive ParserError
  | ok
  | noData
  | initContextEmpty
  | displayIdxOutOfRange
  | displayPageOutOfRange
  | unexpectedError
  | unexpectedType
  | unexpectedMethod
  | unexpectedBufferEnd
  | unexpectedValue
  | unexpectedNumberItems
  | unexpectedVersion
  | unexpectedCharacters
  | unexpectedField
  | duplicatedField
  | valueOutOfRange
  | invalidAddress
  | unexpectedChain
  | missingField
  | unknownTransaction
  deriving DecidableEq, Repr

structure Bytes (P : Type) where
  ptr : Option P
  len : UInt16
  deriving DecidableEq

structure ParserTx (P : Type) where
  txBlindSignature : Bytes P
  deriving DecidableEq

structure ParserContext (P T : Type) where
  buffer : Option P
  bufferLen : UInt16
  offset : UInt16
  txObj : Option T
  deriving DecidableEq

def ParserTx.zero (P : Type) : ParserTx P :=
  ⟨⟨none, 0⟩⟩

def parserGetErrorDescription : ParserError → List UInt8
  | .ok => ascii "No error"
  | .noData => ascii "No more data"
  | .initContextEmpty => ascii "Initialized empty context"
  | .unexpectedBufferEnd => ascii "Unexpected buffer end"
  | .unexpectedVersion => ascii "Unexpected version"
  | .unexpectedCharacters => ascii "Unexpected characters"
  | .unexpectedField => ascii "Unexpected field"
  | .duplicatedField => ascii "Unexpected duplicated field"
  | .valueOutOfRange => ascii "Value out of range"
  | .unexpectedChain => ascii "Unexpected chain"
  | .missingField => ascii "missing field"
  | .displayIdxOutOfRange => ascii "display index out of range"
  | .displayPageOutOfRange => ascii "display page out of range"
  | _ => ascii "Unrecognized error code"

variable {P T : Type}

def parserInitContext (ctx : ParserContext P T) (buffer : Option P)
    (bufferSize : UInt16) : ParserError × ParserContext P T :=
  let ctx := { ctx with offset := 0, buffer := none, bufferLen := 0 }
  if bufferSize = 0 ∨ buffer.isNone then
    (.initContextEmpty, ctx)
  else
    (.ok, { ctx with buffer := buffer, bufferLen := bufferSize })

def read (_ctx : ParserContext P T) (_tx : ParserTx P) : ParserError :=
  .ok

/-- The length is a `size_t`; both places that keep it have 16 bits. -/
def parserParse (ctx : ParserContext P T) (data : Option P) (dataLen : UInt64)
    (txObj : T) (tx : ParserTx P) :
    ParserError × ParserContext P T × ParserTx P :=
  match parserInitContext ctx data dataLen.toUInt16 with
  | (.ok, ctx) =>
      let tx := { tx with txBlindSignature := ⟨data, dataLen.toUInt16⟩ }
      let ctx := { ctx with txObj := some txObj }
      (read ctx tx, ctx, tx)
  | (err, ctx) => (err, ctx, tx)

theorem parserParse_eq (ctx : ParserContext P T) (data : Option P)
    (dataLen : UInt64) (txObj : T) (tx : ParserTx P) :
    parserParse ctx data dataLen txObj tx =
      if dataLen.toUInt16 = 0 ∨ data.isNone then
        (.initContextEmpty,
          { ctx with offset := 0, buffer := none, bufferLen := 0 }, tx)
      else
        (.ok,
          { buffer := data, bufferLen := dataLen.toUInt16, offset := 0,
            txObj := some txObj },
          ⟨⟨data, dataLen.toUInt16⟩⟩) := by
  unfold parserParse parserInitContext
  by_cases h : dataLen.toUInt16 = 0 ∨ data.isNone
  · simp only [if_pos h]
  · simp only [if_neg h, read]

def parserGetNumItems : ParserError × UInt8 :=
  let numItems : UInt8 := 2
  if numItems = 0 then (.unexpectedNumberItems, numItems)
  else (.ok, numItems)

/-- The output arguments of the functions that describe an item: the texts in
`outKey` and `outVal`, and `*pageCount`. -/
structure ItemOutput where
  outKey : List UInt8
  outVal : List UInt8
  pageCount : UInt8
  deriving DecidableEq

def memzeroText (outLen : UInt16) (out : List UInt8) : List UInt8 :=
  if outLen = 0 then out else []

def cleanOutput (outKeyLen outValLen : UInt16) (out : ItemOutput) :
    ItemOutput :=
  { out with
    outKey := snprintf outKeyLen (ascii "?") (memzeroText outKeyLen out.outKey)
    outVal := snprintf outValLen (ascii " ") (memzeroText outValLen out.outVal) }

def checkSanity (numItems displayIdx : UInt8) : ParserError :=
  if displayIdx ≥ numItems then .displayIdxOutOfRange else .ok

/-- What the parser reads through its pointers: transaction objects, and the
bytes that a pointer and a length denote. -/
structure Memory (P T : Type) where
  txAt : Option T → ParserTx P
  bytesAt : Option P → Nat → List UInt8

def parserGetItem (platform : Platform) (memory : Memory P T)
    (ctx : ParserContext P T) (displayIdx : UInt8)
    (outKeyLen outValLen : UInt16) (pageIdx : UInt8) (out : ItemOutput) :
    ParserError × ItemOutput :=
  let out := { out with pageCount := 1 }
  match parserGetNumItems with
  | (.ok, numItems) =>
      match checkSanity numItems displayIdx with
      | .ok =>
          let out := cleanOutput outKeyLen outValLen out
          match displayIdx with
          | 0 =>
              (.ok, { out with
                outKey := snprintf outKeyLen (ascii "Blind") out.outKey
                outVal := snprintf outValLen (ascii "Signing") out.outVal })
          | 1 =>
              let blob := (memory.txAt ctx.txObj).txBlindSignature
              let page := platform.pageStringHex outValLen
                (memory.bytesAt blob.ptr blob.len.toNat) pageIdx
              (.ok, { out with
                outKey := snprintf outKeyLen (ascii "Txn") out.outKey
                outVal := page.1
                pageCount := page.2 })
          | _ => (.displayIdxOutOfRange, out)
      | err => (err, out)
  | (err, _) => (err, out)

theorem parserGetItem_ok (platform : Platform) (memory : Memory P T)
    (ctx : ParserContext P T) {displayIdx : UInt8} (h : displayIdx.toNat < 2)
    (outKeyLen outValLen : UInt16) (pageIdx : UInt8) (out : ItemOutput) :
    (parserGetItem platform memory ctx displayIdx outKeyLen outValLen pageIdx
      out).1 = .ok := by
  obtain rfl | rfl : displayIdx = 0 ∨ displayIdx = 1 := by
    rw [← UInt8.toNat_inj, ← UInt8.toNat_inj]
    change _ = 0 ∨ _ = 1
    omega
  · rfl
  · rfl

/-- The loop of `parser_validate` over the items from `idx` on, with
`remaining` of them to go. -/
def parserValidateFrom (platform : Platform) (memory : Memory P T)
    (ctx : ParserContext P T) : (remaining : Nat) → (idx : UInt8) →
    (tmp : ItemOutput) → ParserError
  | 0, _, _ => .ok
  | remaining + 1, idx, tmp =>
      match parserGetItem platform memory ctx idx 40 40 0
          { tmp with pageCount := 0 } with
      | (.ok, tmp) => parserValidateFrom platform memory ctx remaining (idx + 1) tmp
      | (err, _) => err

def parserValidate (platform : Platform) (memory : Memory P T)
    (ctx : ParserContext P T) : ParserError :=
  match parserGetNumItems with
  | (.ok, numItems) =>
      parserValidateFrom platform memory ctx numItems.toNat 0 ⟨[], [], 0⟩
  | (err, _) => err

theorem parserValidateFrom_ok (platform : Platform) (memory : Memory P T)
    (ctx : ParserContext P T) (remaining : Nat) (idx : UInt8)
    (h : idx.toNat + remaining ≤ 2) (tmp : ItemOutput) :
    parserValidateFrom platform memory ctx remaining idx tmp = .ok := by
  induction remaining generalizing idx tmp with
  | zero => rfl
  | succ remaining ih =>
      have hitem := parserGetItem_ok platform memory ctx
        (by omega : idx.toNat < 2) 40 40 0 { tmp with pageCount := 0 }
      have hnext : (idx + 1).toNat = idx.toNat + 1 := by
        rw [UInt8.toNat_add]
        change (idx.toNat + 1) % 256 = _
        omega
      rw [parserValidateFrom]
      split
      · exact ih _ (by omega) _
      · rename_i err _ hresult
        rw [hresult] at hitem
        exact hitem

/-- The check that all items can be shown looks at one page of each, and never
fails. -/
theorem parserValidate_ok (platform : Platform) (memory : Memory P T)
    (ctx : ParserContext P T) : parserValidate platform memory ctx = .ok :=
  parserValidateFrom_ok platform memory ctx 2 0 (Nat.le_refl 2)
    ⟨[], [], 0⟩

end LedgerSovereign.Parser
