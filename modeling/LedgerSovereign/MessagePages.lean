import LedgerSovereign.MessageReassembly
import LedgerSovereign.TextPages

namespace LedgerSovereign.MessagePages

open LedgerSovereign.ApplicationState
open LedgerSovereign.BufferingInterface
open LedgerSovereign.Constants
open LedgerSovereign.DeviceProtocol
open LedgerSovereign.DisplayedMessage
open LedgerSovereign.HandlerCorrectness
open LedgerSovereign.HostSession
open LedgerSovereign.MessageReassembly
open LedgerSovereign.Parser
open LedgerSovereign.PlatformInterface
open LedgerSovereign.RequestSemantics
open LedgerSovereign.SampleDevice
open LedgerSovereign.SessionHistory
open LedgerSovereign.SigningIntegrity
open LedgerSovereign.TextPages
open LedgerSovereign.Transaction
open LedgerSovereign.TransitionRuns

variable {B : Buffering}

/-- What `pageStringHex` promises: it shows one of the consecutive slices of the
text for each page below the number that it reports in eight bits. -/
structure PagesHex (platform : Platform)
    (pages : UInt16 → List UInt8 → List (List UInt8)) : Prop where
  text : ∀ outValLen bytes, 3 ≤ outValLen.toNat →
    (pages outValLen bytes).flatten = hexText bytes
  nonempty : ∀ outValLen bytes, 3 ≤ outValLen.toNat →
    ∀ page ∈ pages outValLen bytes, page ≠ []
  fits : ∀ outValLen bytes, 3 ≤ outValLen.toNat →
    ∀ page ∈ pages outValLen bytes, page.length ≤ outValLen.toNat - 1
  shows : ∀ outValLen bytes (pageIdx : UInt8), 3 ≤ outValLen.toNat →
    pageIdx.toNat < (pages outValLen bytes).length % 256 →
    (pages outValLen bytes)[pageIdx.toNat]? =
      some (platform.pageStringHex outValLen bytes pageIdx).1
  reports : ∀ outValLen bytes pageIdx, 3 ≤ outValLen.toNat →
    (platform.pageStringHex outValLen bytes pageIdx).2 =
      UInt8.ofNat (pages outValLen bytes).length

/-- The item of the message, read from its first page to the last one reported. -/
def readPages (platform : Platform) (s : Session B) (outKeyLen outValLen : UInt16)
    (out : ItemOutput) : List (ZxErr × ItemOutput) :=
  let pageCount := (txGetItem platform s 1 outKeyLen outValLen 0 out).2.pageCount
  (List.range pageCount.toNat).map fun i =>
    txGetItem platform s 1 outKeyLen outValLen (UInt8.ofNat i) out

def ShownInFull (platform : Platform) (s : Session B) (outKeyLen outValLen : UInt16)
    (out : ItemOutput) : Prop :=
  (∀ item ∈ readPages platform s outKeyLen outValLen out, item.1 = .ok) ∧
    (readPages platform s outKeyLen outValLen out).flatMap (fun item => item.2.outVal) =
      hexText (B.content s.buffering)

section Pages

variable {platform : Platform} {pages : UInt16 → List UInt8 → List (List UInt8)}
  {s : Session B} {outValLen : UInt16}

theorem readPages_eq (hpages : PagesHex platform pages) (h : Displays s)
    (hlen : 3 ≤ outValLen.toNat) (outKeyLen : UInt16) (out : ItemOutput) :
    let cut := pages outValLen (B.content s.buffering)
    (readPages platform s outKeyLen outValLen out).map (fun item => item.2.outVal) =
      cut.take (cut.length % 256) := by
  intro cut
  have hcount : (txGetItem platform s 1 outKeyLen outValLen 0 out).2.pageCount.toNat =
      cut.length % 256 := by
    rw [txGetItem_of_displays h]
    dsimp only
    rw [hpages.reports _ _ _ hlen, UInt8.toNat_ofNat']
  rw [readPages, hcount, List.map_map]
  apply List.ext_getElem?
  intro i
  rcases Nat.lt_or_ge i (cut.length % 256) with hlt | hge
  · have hidx : (UInt8.ofNat i).toNat = i := by
      rw [UInt8.toNat_ofNat']
      omega
    have hshows := hpages.shows outValLen (B.content s.buffering) (UInt8.ofNat i) hlen
      (by rw [hidx]; exact hlt)
    rw [hidx] at hshows
    rw [List.getElem?_take_of_lt hlt, List.getElem?_map, List.getElem?_range hlt,
      hshows, Option.map_some, Function.comp, txGetItem_of_displays h]
  · rw [List.getElem?_eq_none (by simpa using hge), List.getElem?_eq_none]
    rw [List.length_take]
    omega

theorem shownInFull_iff (hpages : PagesHex platform pages) (h : Displays s)
    (hlen : 3 ≤ outValLen.toNat) (outKeyLen : UInt16) (out : ItemOutput) :
    ShownInFull platform s outKeyLen outValLen out ↔
      (pages outValLen (B.content s.buffering)).length ≤ 255 := by
  have hread := readPages_eq hpages h hlen outKeyLen out
  have hok : ∀ item ∈ readPages platform s outKeyLen outValLen out, item.1 = .ok := by
    intro item hitem
    obtain ⟨i, -, rfl⟩ := List.mem_map.mp hitem
    rw [txGetItem_of_displays h]
  have htake := flatten_take_eq_iff
    (hpages.nonempty outValLen (B.content s.buffering) hlen)
    ((pages outValLen (B.content s.buffering)).length % 256)
  rw [ShownInFull, List.flatMap_def, hread, ← hpages.text _ _ hlen, htake]
  constructor
  · rintro ⟨-, hle⟩
    omega
  · intro hle
    exact ⟨hok, by omega⟩

end Pages

theorem displays_of_txParse (hB : B.AppendsOrRefuses) {platform : Platform}
    {s t : State B} (hcapacity : B.capacity s.buffering = flashBufferSize)
    (hparse : (txParse platform).run s = .ok none t) : Displays t.toSession := by
  obtain ⟨hmessage, rfl⟩ := txParse_accepted hparse
  exact displays_of_parsed hB hcapacity hmessage rfl

/-- A message that the parser takes is shown in full exactly when the pager cuts
it into at most 255 pages; beyond 255 full values it never is. -/
theorem accepted_message_shown_iff (hB : B.AppendsOrRefuses) {platform : Platform}
    {pages : UInt16 → List UInt8 → List (List UInt8)}
    (hpages : PagesHex platform pages) {s t : State B}
    (hcapacity : B.capacity s.buffering = flashBufferSize)
    (hparse : (txParse platform).run s = .ok none t) {outValLen : UInt16}
    (hlen : 3 ≤ outValLen.toNat) (outKeyLen : UInt16) (out : ItemOutput) :
    (ShownInFull platform t.toSession outKeyLen outValLen out ↔
      (pages outValLen (B.content t.buffering)).length ≤ 255) ∧
    (255 * (outValLen.toNat - 1) < 2 * (B.content t.buffering).length →
      ¬ ShownInFull platform t.toSession outKeyLen outValLen out) := by
  have hdisplays := displays_of_txParse hB hcapacity hparse
  have hiff := shownInFull_iff hpages hdisplays hlen outKeyLen out
  refine ⟨hiff, fun hlong hshown => ?_⟩
  have hlength := length_flatten_le (hpages.fits outValLen (B.content t.buffering) hlen)
  rw [hpages.text _ _ hlen, length_hexText] at hlength
  have hpages255 := Nat.mul_le_mul_right (outValLen.toNat - 1) (hiff.mp hshown)
  omega

def samplePages (outValLen : UInt16) (bytes : List UInt8) : List (List UInt8) :=
  slices (2 * ((outValLen.toNat - 1) / 2)) (hexText bytes)

theorem samplePlatform_pagesHex : PagesHex samplePlatform samplePages where
  text outValLen bytes hlen := flatten_slices (by omega) _
  nonempty outValLen bytes hlen page := ne_nil_of_mem_slices (by omega)
  fits outValLen bytes hlen page hpage := by
    have hwidth := length_le_of_mem_slices hpage
    omega
  shows outValLen bytes pageIdx hlen hlt := by
    apply getElem?_slices
    exact Nat.lt_of_lt_of_le hlt (Nat.mod_le _ _)
  reports outValLen bytes pageIdx hlen := by
    rw [samplePages, length_slices]
    rfl

theorem accepted_message_shown_iff_sample :
    ShownInFull samplePlatform (parsedSession afterSampleLast.1.app.toSession) 40 40
      ⟨[], [], 0⟩ := by
  have hparse := txParse_accepts (s := afterSampleLast.1.app) (by decide) samplePlatform
  exact (accepted_message_shown_iff
    ramFlashBuffering_appendsUpToCapacity.toAppendsOrRefuses samplePlatform_pagesHex
    (by decide) hparse (by decide) 40 ⟨[], [], 0⟩).1.mpr (by decide)

/-- A chunk as long as a chunk can be, and one byte behind 19 of them. -/
def fullAdd : Apdu :=
  .command insSign p1Add (List.replicate 255 0) (by rw [List.length_replicate])

def oneByteLast : Apdu :=
  .command insSign p1Last [0] (by decide)

/-- A review is opened of a message that has 256 pages on the screen, of which none
is reported. -/
theorem long_message_not_shown :
    PagesHex samplePlatform samplePages ∧
    ∃ trace s, Run (machine ramFlashBuffering) started trace s ∧ s.pending = true ∧
      s.app.view = some messageView ∧
      ramFlashBuffering.content s.app.buffering = List.replicate 4846 0 ∧
      parserValidate samplePlatform (txMemory s.app.toSession) s.app.ctxParsedTx =
        .ok ∧
      ¬ ShownInFull samplePlatform s.app.toSession 40 40 ⟨[], [], 0⟩ := by
  refine ⟨samplePlatform_pagesHex, ?_⟩
  have hunlocked : samplePlatform.pinIsValidated = true := rfl
  have hinit : decode sampleInit.received = .signInit (coinPath 1 true) := rfl
  have hlast : decode oneByteLast.received = .signLast [0] := rfl
  have hmiddle : ∀ e ∈ List.replicate 19 (Event.apdu samplePlatform fullAdd),
      Uploads e := by
    intro e he
    rw [List.eq_of_mem_replicate he]
    exact ⟨_, _, rfl, rfl, .inl ⟨List.replicate 255 0, rfl⟩⟩
  obtain ⟨o, trace, t, run, hevents, -, hidle, hprogress, -⟩ :=
    run_upload ramFlashBuffering_appendsUpToCapacity (s := started) rfl hunlocked hinit
      (by decide) (by decide) hmiddle
  have hsent : sent trace ++ [0] = List.replicate 4846 0 := by
    have hchunk : chunkBytes (.apdu samplePlatform fullAdd) = List.replicate 255 0 := rfl
    rw [sent_map, hevents, List.flatMap_replicate, hchunk, List.flatten_replicate_replicate,
      ← List.replicate_succ']
  obtain ⟨s, o', hstep, hshows⟩ := step_shows ramFlashBuffering_appendsUpToCapacity
    hidle hprogress hunlocked hlast (by rw [hsent, List.length_replicate]; decide)
    (by simp)
  have hcontent := hshows.content
  rw [hsent] at hcontent
  refine ⟨_, s, run_snoc_step run hstep, hshows.waits, hshows.view, hcontent,
    parserValidate_ok _ _ _, ?_⟩
  have hpages : (samplePages 40 (List.replicate 4846 0)).length = 256 := by
    rw [samplePages, length_slices, length_hexText, List.length_replicate]
    rfl
  rw [shownInFull_iff samplePlatform_pagesHex hshows.displays (by decide), hcontent,
    hpages]
  decide

end LedgerSovereign.MessagePages
