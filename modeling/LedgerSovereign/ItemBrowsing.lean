import LedgerSovereign.SigningIntegrity

namespace LedgerSovereign.ItemBrowsing

open LedgerSovereign.ApplicationState
open LedgerSovereign.BufferingInterface
open LedgerSovereign.HandlerCorrectness
open LedgerSovereign.HostSession
open LedgerSovereign.Parser
open LedgerSovereign.PlatformInterface
open LedgerSovereign.RequestSemantics
open LedgerSovereign.SampleDevice
open LedgerSovereign.SigningIntegrity
open LedgerSovereign.Transaction

section Loops

variable {ε : Type} [DecidableEq ε]

/-- The loop over the pages of an item, against the number of pages last reported. -/
def browsePages (ok : ε) (getItem : UInt8 → ItemOutput → ε × ItemOutput) :
    (fuel : Nat) → (pageIdx : UInt8) → ItemOutput → Option (ε × ItemOutput)
  | 0, _, _ => none
  | fuel + 1, pageIdx, out =>
      if pageIdx < out.pageCount then
        let (err, out) := getItem pageIdx out
        if err ≠ ok then some (err, out)
        else browsePages ok getItem fuel (pageIdx + 1) out
      else some (ok, out)

/-- The loop over the items; an error ends both loops. -/
def browseItems (ok : ε) (getItem : UInt8 → UInt8 → ItemOutput → ε × ItemOutput)
    (numItems : UInt8) : (fuel : Nat) → (i : UInt8) → ItemOutput →
    Option (ε × ItemOutput)
  | 0, _, _ => none
  | fuel + 1, i, out =>
      if i < numItems then
        match browsePages ok (getItem i) (fuel + 1) 0 { out with pageCount := 1 } with
        | none => none
        | some (err, out) =>
            if err ≠ ok then some (err, out)
            else browseItems ok getItem numItems fuel (i + 1) out
      else some (ok, out)

variable {ok : ε}

theorem toNat_add_one {i n : UInt8} (h : i < n) : (i + 1).toNat = i.toNat + 1 := by
  rw [UInt8.lt_iff_toNat_lt] at h
  have hn := n.toNat_lt
  rw [UInt8.toNat_add]
  change (i.toNat + 1) % 256 = _
  omega

/-- An index below a count of eight bits does not wrap, whatever the counts are. -/
theorem browsePages_ok {getItem : UInt8 → ItemOutput → ε × ItemOutput}
    (h : ∀ pageIdx out, (getItem pageIdx out).1 = ok) {fuel : Nat} {pageIdx : UInt8}
    (hfuel : 256 ≤ fuel + pageIdx.toNat) (out : ItemOutput) :
    ∃ shown, browsePages ok getItem fuel pageIdx out = some (ok, shown) := by
  induction fuel generalizing pageIdx out with
  | zero =>
      have hlt := pageIdx.toNat_lt
      omega
  | succ fuel ih =>
      rw [browsePages]
      split
      · rename_i hlt
        have hok := h pageIdx out
        have hnext := toNat_add_one hlt
        simp only [hok, ne_eq, not_true_eq_false, if_false]
        exact ih (by omega) _
      · exact ⟨out, rfl⟩

theorem browseItems_ok {getItem : UInt8 → UInt8 → ItemOutput → ε × ItemOutput}
    {numItems : UInt8}
    (h : ∀ i pageIdx out, i < numItems → (getItem i pageIdx out).1 = ok) {fuel : Nat}
    {i : UInt8} (hfuel : 512 ≤ fuel + i.toNat) (out : ItemOutput) :
    ∃ shown, browseItems ok getItem numItems fuel i out = some (ok, shown) := by
  have hlt := i.toNat_lt
  induction fuel generalizing i out with
  | zero => omega
  | succ fuel ih =>
      rw [browseItems]
      split
      · rename_i hi
        have hnext := toNat_add_one hi
        have hbound := (i + 1).toNat_lt
        have hpageFuel : 256 ≤ fuel + 1 + (0 : UInt8).toNat := by
          change 256 ≤ fuel + 1 + 0
          omega
        obtain ⟨shown, hpages⟩ :=
          browsePages_ok (h i · · hi) hpageFuel { out with pageCount := 1 }
        simp only [hpages, ne_eq, not_true_eq_false, if_false]
        exact ih (by omega) _ hbound
      · exact ⟨out, rfl⟩

end Loops

variable {B : Buffering}

section Items

variable (platform : Platform)

theorem parserGetItem_outOfRange {P T : Type} (memory : Memory P T)
    (ctx : ParserContext P T) {displayIdx : UInt8} (h : 2 ≤ displayIdx.toNat)
    (outKeyLen outValLen : UInt16) (pageIdx : UInt8) (out : ItemOutput) :
    parserGetItem platform memory ctx displayIdx outKeyLen outValLen pageIdx out =
      (.displayIdxOutOfRange, { out with pageCount := 1 }) := by
  have hnum : parserGetNumItems = (.ok, 2) := rfl
  have hsanity : checkSanity 2 displayIdx = .displayIdxOutOfRange := by
    rw [checkSanity, if_pos]
    exact UInt8.le_iff_toNat_le.mpr h
  simp only [parserGetItem, hnum, hsanity]

/-- Negative indices become large ones. -/
theorem toInt_eq (displayIdx : Int8) :
    displayIdx.toInt = if displayIdx.toUInt8.toNat < 128 then
      (displayIdx.toUInt8.toNat : Int) else displayIdx.toUInt8.toNat - 256 := by
  have htoInt := BitVec.toInt_eq_toNat_cond displayIdx.toBitVec
  change displayIdx.toInt = if 2 * displayIdx.toUInt8.toNat < 256 then
    (displayIdx.toUInt8.toNat : Int) else (displayIdx.toUInt8.toNat : Int) - 256 at htoInt
  rw [htoInt]
  split <;> split <;> omega

theorem txGetItem_inRange (s : Session B) {displayIdx : Int8}
    (hlow : 0 ≤ displayIdx.toInt) (hhigh : displayIdx.toInt < 2)
    (outKeyLen outValLen : UInt16) (pageIdx : UInt8) (out : ItemOutput) :
    (txGetItem platform s displayIdx outKeyLen outValLen pageIdx out).1 = .ok := by
  have hint := toInt_eq displayIdx
  have hlt := displayIdx.toUInt8.toNat_lt
  have hindex : displayIdx.toUInt8.toNat < 2 := by
    split at hint <;> omega
  have hitem := parserGetItem_ok platform (txMemory s) s.ctxParsedTx hindex outKeyLen
    outValLen pageIdx out
  have hnum : txGetNumItems = (.ok, 2) := rfl
  have hguard : ¬ displayIdx.toInt > ((2 : UInt8).toNat : Int) := by
    change ¬ displayIdx.toInt > 2
    omega
  simp only [txGetItem, hnum, if_neg hguard]
  generalize parserGetItem platform (txMemory s) s.ctxParsedTx displayIdx.toUInt8
    outKeyLen outValLen pageIdx out = item at hitem
  obtain ⟨err, out'⟩ := item
  obtain rfl : err = .ok := hitem
  rfl

/-- The first guard lets the number of items itself and negative indices through;
the second one does not, and comes before the texts are touched. -/
theorem txGetItem_outOfRange (s : Session B) {displayIdx : Int8}
    (h : ¬ (0 ≤ displayIdx.toInt ∧ displayIdx.toInt < 2))
    (outKeyLen outValLen : UInt16) (pageIdx : UInt8) (out : ItemOutput) :
    let item := txGetItem platform s displayIdx outKeyLen outValLen pageIdx out
    item.1 = .noData ∧ item.2.outKey = out.outKey ∧ item.2.outVal = out.outVal := by
  have hint := toInt_eq displayIdx
  have hnum : txGetNumItems = (.ok, 2) := rfl
  by_cases hguard : displayIdx.toInt > ((2 : UInt8).toNat : Int)
  · simp only [txGetItem, hnum, if_pos hguard, and_self]
  · have hindex : 2 ≤ displayIdx.toUInt8.toNat := by
      split at hint <;> omega
    simp only [txGetItem, hnum, if_neg hguard,
      parserGetItem_outOfRange platform _ _ hindex, and_self]

end Items

/-- The reviewer's loops over the items of a message. -/
def browseMessage (platform : Platform) (s : Session B) (outKeyLen outValLen : UInt16)
    (fuel : Nat) (out : ItemOutput) : Option (ZxErr × ItemOutput) :=
  browseItems .ok
    (fun i pageIdx => txGetItem platform s i.toInt8 outKeyLen outValLen pageIdx)
    txGetNumItems.2 fuel 0 out

/-- The same loops below `tx_getItem`, as in the fuzz target. -/
def browseParsed {P T : Type} (platform : Platform) (memory : Memory P T)
    (ctx : ParserContext P T) (outKeyLen outValLen : UInt16) (fuel : Nat)
    (out : ItemOutput) : Option (ParserError × ItemOutput) :=
  browseItems .ok
    (fun i pageIdx => parserGetItem platform memory ctx i outKeyLen outValLen pageIdx)
    parserGetNumItems.2 fuel 0 out

theorem browseMessage_ok (platform : Platform) (s : Session B)
    (outKeyLen outValLen : UInt16) {fuel : Nat} (hfuel : 512 ≤ fuel) (out : ItemOutput) :
    ∃ shown, browseMessage platform s outKeyLen outValLen fuel out = some (.ok, shown) := by
  apply browseItems_ok _ (by omega)
  intro i pageIdx out hi
  have hlt : i.toNat < 2 := UInt8.lt_iff_toNat_lt.mp hi
  have hint := toInt_eq i.toInt8
  have hback : i.toInt8.toUInt8 = i := rfl
  rw [hback, if_pos (by omega)] at hint
  exact txGetItem_inRange platform s (by omega) (by omega) outKeyLen outValLen pageIdx out

theorem browseParsed_ok {P T : Type} (platform : Platform) (memory : Memory P T)
    (ctx : ParserContext P T) (outKeyLen outValLen : UInt16) {fuel : Nat}
    (hfuel : 512 ≤ fuel) (out : ItemOutput) :
    ∃ shown, browseParsed platform memory ctx outKeyLen outValLen fuel out =
      some (.ok, shown) := by
  apply browseItems_ok _ (by omega)
  intro i pageIdx out hi
  exact parserGetItem_ok platform memory ctx (UInt8.lt_iff_toNat_lt.mp hi) outKeyLen
    outValLen pageIdx out

/-- After a parse that was accepted, an item is read exactly at the indices below the
number of items, on every page; elsewhere there is no data and the texts stay.  Both
loops end without an error, whatever numbers of pages are reported. -/
theorem items_browsed_without_error {platform : Platform} {s t : State B}
    (hparse : (txParse platform).run s = .ok none t) (pager : Platform) :
    t.ctxParsedTx.txObj = some .txObj ∧ t.txObj.txBlindSignature.ptr ≠ none ∧
    txGetNumItems.1 = .ok ∧
    (∀ displayIdx outKeyLen outValLen pageIdx out,
      let item := txGetItem pager t.toSession displayIdx outKeyLen outValLen pageIdx out
      (item.1 = .ok ↔
        0 ≤ displayIdx.toInt ∧ displayIdx.toInt < (txGetNumItems.2.toNat : Int)) ∧
      (item.1 ≠ .ok → item.1 = .noData ∧ item.2.outKey = out.outKey ∧
        item.2.outVal = out.outVal)) ∧
    ∀ outKeyLen outValLen fuel out, 512 ≤ fuel →
      (∃ shown, browseMessage pager t.toSession outKeyLen outValLen fuel out =
        some (.ok, shown)) ∧
      ∃ shown, browseParsed pager (txMemory t.toSession) t.ctxParsedTx outKeyLen
        outValLen fuel out = some (.ok, shown) := by
  have hobject : t.ctxParsedTx.txObj = some .txObj ∧
      t.txObj.txBlindSignature.ptr ≠ none := by
    obtain ⟨hmessage, rfl⟩ := txParse_accepted hparse
    rw [hasMessage_iff, not_or] at hmessage
    refine ⟨rfl, fun hnull => hmessage.2 ?_⟩
    change B.data s.buffering = none at hnull
    rw [hnull]
    rfl
  refine ⟨hobject.1, hobject.2, rfl, ?_, ?_⟩
  · intro displayIdx outKeyLen outValLen pageIdx out item
    by_cases hrange : 0 ≤ displayIdx.toInt ∧ displayIdx.toInt < 2
    · have hok := txGetItem_inRange pager t.toSession hrange.1 hrange.2 outKeyLen
        outValLen pageIdx out
      exact ⟨iff_of_true hok hrange, fun herr => absurd hok herr⟩
    · have hnoData := txGetItem_outOfRange pager t.toSession hrange outKeyLen outValLen
        pageIdx out
      refine ⟨iff_of_false ?_ hrange, fun _ => hnoData⟩
      rw [hnoData.1]
      decide
  · intro outKeyLen outValLen fuel out hfuel
    exact ⟨browseMessage_ok pager t.toSession outKeyLen outValLen hfuel out,
      browseParsed_ok pager _ _ outKeyLen outValLen hfuel out⟩

theorem items_browsed_without_error_sample :
    ∃ shown, browseMessage samplePlatform (parsedSession afterSampleLast.1.app.toSession)
      40 40 512 ⟨[], [], 0⟩ = some (.ok, shown) := by
  have hparse := txParse_accepts (s := afterSampleLast.1.app) (by decide) samplePlatform
  obtain ⟨-, -, -, -, hbrowse⟩ := items_browsed_without_error hparse samplePlatform
  exact (hbrowse 40 40 512 ⟨[], [], 0⟩ (Nat.le_refl 512)).1

end LedgerSovereign.ItemBrowsing
