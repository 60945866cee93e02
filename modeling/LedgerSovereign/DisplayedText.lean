import LedgerSovereign.MessagePages

namespace LedgerSovereign.DisplayedText

open LedgerSovereign.ApplicationState
open LedgerSovereign.BufferingInterface
open LedgerSovereign.Constants
open LedgerSovereign.CryptoOutcomes
open LedgerSovereign.DeviceProtocol
open LedgerSovereign.DisplayedMessage
open LedgerSovereign.HostSession
open LedgerSovereign.MessagePages
open LedgerSovereign.Parser
open LedgerSovereign.PlatformInterface
open LedgerSovereign.RequestSemantics
open LedgerSovereign.SampleDevice
open LedgerSovereign.SessionHistory
open LedgerSovereign.SigningIntegrity
open LedgerSovereign.TextPages
open LedgerSovereign.TransitionRuns

section Hex

def hexValue (c : UInt8) : Option UInt8 :=
  ((ascii "0123456789abcdef").idxOf? c).map UInt8.ofNat

/-- Two digits for each byte, and nothing else. -/
def unhex : List UInt8 → Option (List UInt8)
  | [] => some []
  | [_] => none
  | c :: d :: text => do
      let high ← hexValue c
      let low ← hexValue d
      let bytes ← unhex text
      some (((high <<< 4) ||| low) :: bytes)

theorem hexValue_hexDigit (b : UInt8) :
    hexValue (hexDigit (b >>> 4)) = some (b >>> 4) ∧
      hexValue (hexDigit (b &&& 0xF)) = some (b &&& 0xF) ∧
      ((b >>> 4) <<< 4) ||| (b &&& 0xF) = b := by
  have hall : ∀ v : BitVec 8, let b : UInt8 := ⟨v⟩
      hexValue (hexDigit (b >>> 4)) = some (b >>> 4) ∧
        hexValue (hexDigit (b &&& 0xF)) = some (b &&& 0xF) ∧
        ((b >>> 4) <<< 4) ||| (b &&& 0xF) = b := by
    decide +kernel
  exact hall b.toBitVec

theorem hexDigit_hexValue {c v : UInt8} (h : hexValue c = some v) :
    v < 16 ∧ hexDigit v = c := by
  have hall : ∀ c : BitVec 8,
      ((hexValue ⟨c⟩).all fun v => v < 16 && hexDigit v == UInt8.ofBitVec c) = true := by
    decide +kernel
  have hc := hall c.toBitVec
  change ((hexValue c).all fun v => v < 16 && hexDigit v == c) = true at hc
  rw [h, Option.all_some, Bool.and_eq_true, decide_eq_true_iff, beq_iff_eq] at hc
  exact hc

theorem nibbles_of_or {high low : UInt8} (hhigh : high < 16) (hlow : low < 16) :
    ((high <<< 4) ||| low) >>> 4 = high ∧ ((high <<< 4) ||| low) &&& 0xF = low := by
  have hall : ∀ i j : Fin 16,
      ((UInt8.ofNat i <<< 4) ||| UInt8.ofNat j) >>> 4 = UInt8.ofNat i ∧
        ((UInt8.ofNat i <<< 4) ||| UInt8.ofNat j) &&& 0xF = UInt8.ofNat j := by
    decide +kernel
  have h := hall ⟨high.toNat, hhigh⟩ ⟨low.toNat, hlow⟩
  simpa using h

theorem unhex_hexText (bytes : List UInt8) : unhex (hexText bytes) = some bytes := by
  induction bytes with
  | nil => rfl
  | cons b bytes ih =>
      obtain ⟨hhigh, hlow, hbyte⟩ := hexValue_hexDigit b
      change unhex (hexDigit (b >>> 4) :: hexDigit (b &&& 0xF) :: hexText bytes) = _
      rw [unhex, hhigh, hlow, ih]
      change some (((b >>> 4) <<< 4 ||| (b &&& 0xF)) :: bytes) = _
      rw [hbyte]

theorem hexText_of_unhex {text bytes : List UInt8} (h : unhex text = some bytes) :
    text = hexText bytes := by
  fun_induction unhex text generalizing bytes with
  | case1 =>
      cases h
      rfl
  | case2 => cases h
  | case3 c d text ih =>
      simp only [Option.bind_eq_bind, Option.bind_eq_some_iff, Option.some.injEq] at h
      obtain ⟨high, hhigh, low, hlow, bytes, hbytes, rfl⟩ := h
      obtain ⟨hhigh16, rfl⟩ := hexDigit_hexValue hhigh
      obtain ⟨hlow16, rfl⟩ := hexDigit_hexValue hlow
      obtain ⟨hshifted, hmasked⟩ := nibbles_of_or hhigh16 hlow16
      rw [hexText, List.flatMap_cons, hshifted, hmasked, ih hbytes]
      rfl

theorem unhex_eq_some_iff {text bytes : List UInt8} :
    unhex text = some bytes ↔ text = hexText bytes := by
  constructor
  · exact hexText_of_unhex
  · rintro rfl
    exact unhex_hexText bytes

end Hex

variable {B : Buffering}

/-- The text that the pages of the message make together. -/
def readText (pager : Platform) (s : Session B) (outKeyLen outValLen : UInt16)
    (out : ItemOutput) : List UInt8 :=
  (readPages pager s outKeyLen outValLen out).flatMap fun item => item.2.outVal

/-- What the host sent: a path, and the chunks behind it that were accepted, up to the
one that opened the review. -/
def Sent (trace : List Entry) (initPayload bytes : List UInt8) : Prop :=
  ∃ earlier last lastPayload message, trace = earlier ++ [last] ∧
    reviewedLast last = some lastPayload ∧ Drafted earlier initPayload message ∧
    bytes = message ++ lastPayload

section Reading

variable {pager : Platform} {pages : UInt16 → List UInt8 → List (List UInt8)}
  {s : Session B} {outValLen : UInt16}

theorem readText_eq (hpages : PagesHex pager pages) (h : Displays s)
    (hlen : 3 ≤ outValLen.toNat) (outKeyLen : UInt16) (out : ItemOutput) :
    let cut := pages outValLen (B.content s.buffering)
    readText pager s outKeyLen outValLen out = (cut.take (cut.length % 256)).flatten := by
  intro cut
  rw [readText, List.flatMap_def, readPages_eq hpages h hlen]

/-- Whatever is shown is where the text begins. -/
theorem readText_begins (hpages : PagesHex pager pages) (h : Displays s)
    (hlen : 3 ≤ outValLen.toNat) (outKeyLen : UInt16) (out : ItemOutput) :
    readText pager s outKeyLen outValLen out <+: hexText (B.content s.buffering) := by
  rw [readText_eq hpages h hlen, ← hpages.text outValLen _ hlen]
  have hsplit := congrArg List.flatten (List.take_append_drop
    ((pages outValLen (B.content s.buffering)).length % 256)
    (pages outValLen (B.content s.buffering)))
  rw [List.flatten_append] at hsplit
  exact ⟨_, hsplit⟩

theorem unhex_readText_iff (hpages : PagesHex pager pages) (h : Displays s)
    (hlen : 3 ≤ outValLen.toNat) (outKeyLen : UInt16) (out : ItemOutput) :
    unhex (readText pager s outKeyLen outValLen out) = some (B.content s.buffering) ↔
      (pages outValLen (B.content s.buffering)).length ≤ 255 := by
  have htake := flatten_take_eq_iff
    (hpages.nonempty outValLen (B.content s.buffering) hlen)
    ((pages outValLen (B.content s.buffering)).length % 256)
  rw [unhex_eq_some_iff, readText_eq hpages h hlen, ← hpages.text _ _ hlen, htake]
  omega

end Reading

/-- In every run, while a message waits for its approval, the digits on its pages are
the first ones of what the host sent since it opened the session; they decode to all
of it exactly when there are at most 255 pages; and an approval signs all of it. -/
theorem read_text_decodes_to_signed_message (hB : B.AppendsOrRefuses)
    {start s : System B} (hstart : Starts start) {trace : List Entry}
    (run : Run (machine B) start trace s) (hpending : s.pending = true)
    (hview : s.app.view = some messageView) :
    ∃ initPayload bytes, Sent trace initPayload bytes ∧
      B.content s.app.buffering = bytes ∧
      (∀ pager pages, PagesHex pager pages → ∀ outKeyLen outValLen out,
        3 ≤ outValLen.toNat →
        let text := readText pager s.app.toSession outKeyLen outValLen out
        text <+: hexText bytes ∧
          (unhex text = some bytes ↔ (pages outValLen bytes).length ≤ 255)) ∧
      ∀ platform, ∃ s' o, HostSession.step s (.approve platform) = some (s', o) ∧
        o.calls = signCalls (pathOf initPayload) bytes := by
  obtain ⟨d, himplements, htracks⟩ := run_tracks hB hstart run
  have hmessage := pending_of_view himplements hpending hview
  obtain ⟨earlier, last, lastPayload, initPayload, message, htrace, hlast, hdrafted,
    hholds⟩ := htracks.reviewed hmessage
  have hprepared := (himplements.awaits _ hmessage).prepared
  rw [← himplements.session] at hholds
  have hdisplays :=
    displays_of_parsed hB hholds.capacity hprepared.2.1 hprepared.2.2
  refine ⟨initPayload, message ++ lastPayload,
    ⟨earlier, last, lastPayload, message, htrace, hlast, hdrafted, rfl⟩,
    hholds.content, ?_, ?_⟩
  · intro pager pages hpages outKeyLen outValLen out hlen
    rw [← hholds.content]
    exact ⟨readText_begins hpages hdisplays hlen outKeyLen out,
      unhex_readText_iff hpages hdisplays hlen outKeyLen out⟩
  · intro platform
    obtain ⟨s', hstep, -⟩ := step_approve himplements hmessage platform
    refine ⟨s', _, hstep, ?_⟩
    change (Response.observation _ _).calls = _
    rw [calls_observation, serveApproval, serveSignature_calls, ← himplements.session,
      hholds.signedMessage_eq hB, hholds.path]

theorem read_text_decodes_to_signed_message_sample :
    unhex (readText samplePlatform afterSampleLast.1.app.toSession 40 40 ⟨[], [], 0⟩) =
      some [0xbc, 0xcd] := by
  obtain ⟨_, bytes, -, hbytes, hread, -⟩ := read_text_decodes_to_signed_message
    ramFlashBuffering_appendsUpToCapacity.toAppendsOrRefuses starts_started
    run_sampleTrace (by decide) (by decide)
  have hcontent : ramFlashBuffering.content afterSampleLast.1.app.buffering =
      [0xbc, 0xcd] := by decide
  rw [hcontent] at hbytes
  rw [← hbytes] at hread
  exact (hread samplePlatform samplePages samplePlatform_pagesHex 40 40 ⟨[], [], 0⟩
    (by decide)).2.mpr (by decide)

end LedgerSovereign.DisplayedText
