import LedgerSovereign.AddressConfirmation
import LedgerSovereign.ItemBrowsing
import LedgerSovereign.TextPages

namespace LedgerSovereign.AddressReview

open LedgerSovereign.Actions
open LedgerSovereign.AddressConfirmation
open LedgerSovereign.ApduHandler
open LedgerSovereign.ApplicationState
open LedgerSovereign.BufferingInterface
open LedgerSovereign.Constants
open LedgerSovereign.CryptoOutcomes
open LedgerSovereign.DeviceProtocol
open LedgerSovereign.HostSession
open LedgerSovereign.ItemBrowsing
open LedgerSovereign.Parser
open LedgerSovereign.PlatformInterface
open LedgerSovereign.RequestSemantics
open LedgerSovereign.SampleDevice
open LedgerSovereign.SessionHistory
open LedgerSovereign.SigningSessions
open LedgerSovereign.TaggedBuffer
open LedgerSovereign.TextPages
open LedgerSovereign.TransitionRuns

variable {B : Buffering}

/-- What `pageString` promises: one of the consecutive slices of the text for each
page below the number that it reports in eight bits. -/
structure PagesText (platform : Platform)
    (pages : UInt16 → List UInt8 → List (List UInt8)) : Prop where
  text : ∀ outValLen text, 2 ≤ outValLen.toNat →
    (pages outValLen text).flatten = text
  nonempty : ∀ outValLen text, 2 ≤ outValLen.toNat →
    ∀ page ∈ pages outValLen text, page ≠ []
  shows : ∀ outValLen text (pageIdx : UInt8), 2 ≤ outValLen.toNat →
    pageIdx.toNat < (pages outValLen text).length % 256 →
    (pages outValLen text)[pageIdx.toNat]? =
      some (platform.pageString outValLen text pageIdx).1
  reports : ∀ outValLen text pageIdx, 2 ≤ outValLen.toNat →
    (platform.pageString outValLen text pageIdx).2 =
      UInt8.ofNat (pages outValLen text).length

/-- The pages of an item, from the first one to the last one reported. -/
def addressPages (pager : Platform) (s : State B) (displayIdx : Int8)
    (outKeyLen outValLen : UInt16) (out : ItemOutput) : List (ZxErr × ItemOutput) :=
  let first := addrGetItem pager s displayIdx outKeyLen outValLen 0 out
  (List.range first.2.pageCount.toNat).map fun i =>
    addrGetItem pager s displayIdx outKeyLen outValLen (UInt8.ofNat i) out

/-- Every page of the item is shown under its key, and together they are the
text. -/
structure ReadsAs (pages : List (ZxErr × ItemOutput)) (outKey text : List UInt8) :
    Prop where
  shown : ∀ item ∈ pages, item.1 = .ok ∧ item.2.outKey = outKey
  text : pages.flatMap (fun item => item.2.outVal) = text

theorem readsAs_of_addrPage {pager : Platform}
    {pages : UInt16 → List UInt8 → List (List UInt8)} (hpages : PagesText pager pages)
    {s : State B} {displayIdx : Int8} {outKeyLen outValLen : UInt16}
    {key text : List UInt8} (hlen : 2 ≤ outValLen.toNat) (hshort : text.length ≤ 255)
    (hitem : ∀ pageIdx out,
      addrGetItem pager s displayIdx outKeyLen outValLen pageIdx out =
        (.ok, addrPage pager outKeyLen outValLen pageIdx key text out))
    (out : ItemOutput) :
    ReadsAs (addressPages pager s displayIdx outKeyLen outValLen out)
      (snprintf outKeyLen key out.outKey) text := by
  have hcount : (pages outValLen text).length ≤ 255 := by
    have hle := length_le_flatten (hpages.nonempty outValLen text hlen)
    rw [hpages.text _ _ hlen] at hle
    exact hle.trans hshort
  have hpages' : addressPages pager s displayIdx outKeyLen outValLen out =
      (List.range (pages outValLen text).length).map fun i =>
        (.ok, addrPage pager outKeyLen outValLen (UInt8.ofNat i) key text out) := by
    simp only [addressPages, hitem]
    rw [addrPage, hpages.reports _ _ _ hlen, UInt8.toNat_ofNat',
      Nat.mod_eq_of_lt (by omega)]
  rw [hpages']
  constructor
  · intro item hmem
    obtain ⟨i, -, rfl⟩ := List.mem_map.mp hmem
    exact ⟨rfl, rfl⟩
  · have hread : (List.range (pages outValLen text).length).map (fun i =>
        (pager.pageString outValLen text (UInt8.ofNat i)).1) = pages outValLen text := by
      apply map_range_eq
      intro i hi
      have hidx : (UInt8.ofNat i).toNat = i := by
        rw [UInt8.toNat_ofNat']
        omega
      have hshows := hpages.shows outValLen text (UInt8.ofNat i) hlen (by omega)
      rw [hidx] at hshows
      exact hshows
    rw [List.flatMap_map]
    change (List.range _).flatMap (fun i =>
      (pager.pageString outValLen text (UInt8.ofNat i)).1) = text
    rw [List.flatMap_def, hread, hpages.text _ _ hlen]

section Items

variable (pager : Platform) (s : State B)

/-- An item is read exactly at the indices below the number of items; elsewhere
nothing is written. -/
theorem addrGetItem_cases (displayIdx : Int8) (outKeyLen outValLen : UInt16)
    (pageIdx : UInt8) (out : ItemOutput) :
    let item := addrGetItem pager s displayIdx outKeyLen outValLen pageIdx out
    (item.1 = .ok ↔ 0 ≤ displayIdx.toInt ∧
      displayIdx.toInt < ((addrGetNumItems pager).2.toNat : Int)) ∧
    (item.1 ≠ .ok → item = (.noData, out)) := by
  intro item
  have hzero : (0 : Int8).toInt = 0 := rfl
  have hone : (1 : Int8).toInt = 1 := rfl
  by_cases h₀ : displayIdx = 0
  · subst h₀
    have hitem : item.1 = .ok := rfl
    refine ⟨iff_of_true hitem ?_, fun h => absurd hitem h⟩
    rw [hzero, addrGetNumItems]
    split <;> decide
  · by_cases h₁ : displayIdx = 1
    · subst h₁
      cases hexpert : pager.appModeExpert with
      | false =>
          have hitem : item = (.noData, out) := by
            simp [item, addrGetItem, hexpert]
          refine ⟨iff_of_false ?_ ?_, fun _ => hitem⟩
          · rw [hitem]
            rintro ⟨⟩
          · rw [hone, addrGetNumItems, hexpert]
            decide
      | true =>
          have hitem : item.1 = .ok := by
            simp [item, addrGetItem, hexpert]
          refine ⟨iff_of_true hitem ?_, fun h => absurd hitem h⟩
          rw [hone, addrGetNumItems, hexpert]
          decide
    · have hitem : item = (.noData, out) := by
        simp [item, addrGetItem, h₀, h₁]
      refine ⟨iff_of_false ?_ ?_, fun _ => hitem⟩
      · rw [hitem]
        rintro ⟨⟩
      · rintro ⟨hlow, hhigh⟩
        have htwo : ((addrGetNumItems pager).2.toNat : Int) ≤ 2 := by
          rw [addrGetNumItems]
          split <;> decide
        rw [← Int8.toInt_inj, hzero] at h₀
        rw [← Int8.toInt_inj, hone] at h₁
        omega

/-- The reviewer's loops over the items of an address. -/
def browseAddress (outKeyLen outValLen : UInt16) (fuel : Nat) (out : ItemOutput) :
    Option (ZxErr × ItemOutput) :=
  browseItems .ok
    (fun i pageIdx => addrGetItem pager s i.toInt8 outKeyLen outValLen pageIdx)
    (addrGetNumItems pager).2 fuel 0 out

theorem browseAddress_ok (outKeyLen outValLen : UInt16) {fuel : Nat}
    (hfuel : 512 ≤ fuel) (out : ItemOutput) :
    ∃ shown, browseAddress pager s outKeyLen outValLen fuel out =
      some (.ok, shown) := by
  apply browseItems_ok _ (by omega)
  intro i pageIdx out hi
  have htwo : (addrGetNumItems pager).2.toNat ≤ 2 := by
    rw [addrGetNumItems]
    split <;> decide
  rw [UInt8.lt_iff_toNat_lt] at hi
  have hint := toInt_eq i.toInt8
  have hback : i.toInt8.toUInt8 = i := rfl
  rw [hback, if_pos (by omega)] at hint
  exact (addrGetItem_cases pager s i.toInt8 outKeyLen outValLen pageIdx out).1.mpr
    (by omega)

end Items

/-- A waiting address is that of the last request, and its path is kept. -/
def ReviewsLast (trace : List Entry) (d : Device B) : Prop :=
  ∀ data, d.pending = some (.address data) →
    ∃ earlier platform request o payload,
      trace = earlier ++ [(.apdu platform request, o)] ∧
      decode request.received = .getAddr true payload ∧
      Addressable platform payload data ∧ d.session.hdPath = pathOf payload

theorem serveMessage_reviews_no_address (s : Session B) (data : List UInt8) :
    (serveMessage s).response ≠ .addressReview data := by
  unfold serveMessage
  split <;> rintro ⟨⟩

theorem serveAddress_review {platform : Platform} {confirm : Bool} {s : Session B}
    {data : List UInt8}
    (h : (serveAddress platform confirm s).response = .addressReview data) :
    confirm = true ∧ addressReplyOf platform s.hdPath = .ok data ∧
      (serveAddress platform confirm s).session.hdPath = s.hdPath := by
  revert h
  apply serveAddress_rule (P := fun served =>
    served.response = .addressReview data → confirm = true ∧
      addressReplyOf platform s.hdPath = .ok data ∧ served.session.hdPath = s.hdPath)
  · intro failure _ h
    match failure with
    | none => cases h
    | some (.code e) => cases h
    | some .ioReset => cases h
  · rintro _ _ _ ⟨⟩
  · rintro _ hreply hconfirm ⟨⟩
    exact ⟨hconfirm, hreply, rfl⟩

theorem serve_addressReview {platform : Platform} {s : Session B} {request : Request}
    {data : List UInt8} (h : (serve platform s request).response = .addressReview data) :
    ∃ payload, request = .getAddr true payload ∧ Addressable platform payload data ∧
      (serve platform s request).session.hdPath = pathOf payload := by
  let P : Served B → Prop := fun served => served.response = .addressReview data →
    ∃ payload, request = .getAddr true payload ∧
      Addressable platform payload data ∧ served.session.hdPath = pathOf payload
  have hlocked : platform.pinIsValidated = false →
      P (refuse s apduCodeCommandNotAllowed) := by
    rintro - ⟨⟩
  revert h
  change P (serve platform s request)
  cases request with
  | wrongClass => rintro ⟨⟩
  | tooShort => rintro ⟨⟩
  | unknownInstruction => rintro ⟨⟩
  | getVersion => rintro ⟨⟩
  | getAddr confirm payload =>
      apply whenUnlocked_rule hlocked
      intro hunlocked
      apply servePath_rule
      · rintro - ⟨⟩
      · rintro - - ⟨⟩
      · intro hlength hpath h
        obtain ⟨rfl, hreply, hkept⟩ := serveAddress_review h
        exact ⟨payload, rfl, ⟨hunlocked, hlength, hpath, hreply⟩, hkept⟩
  | signInit payload =>
      apply whenUnlocked_rule hlocked
      intro _
      apply servePath_rule
      · rintro - ⟨⟩
      · rintro - - ⟨⟩
      · rintro - - ⟨⟩
  | signAdd payload =>
      apply whenUnlocked_rule hlocked
      intro _
      apply serveChunk_rule
      · rintro - ⟨⟩
      · rintro - - ⟨⟩
      · rintro - - ⟨⟩
  | signLast payload =>
      apply whenUnlocked_rule hlocked
      intro _
      apply serveChunk_rule
      · rintro - ⟨⟩
      · rintro - - ⟨⟩
      · intro _ _ h
        exact absurd h (serveMessage_reviews_no_address _ data)
  | signOther =>
      apply whenUnlocked_rule hlocked
      rintro - ⟨⟩

theorem step_reviewsLast {trace : List Entry} {d d' : Device B} {e : Event}
    {o : Observation} (hstep : Device.step d (visible e) = some (d', o)) :
    ReviewsLast (trace ++ [(e, o)]) d' := by
  intro data hpending
  rcases d.step_cases hstep with
    ⟨platform, request, rfl, -, hresult⟩ | ⟨platform, p, rfl, -, hresult⟩ |
      ⟨p, rfl, -, hresult⟩
  · obtain ⟨rfl, rfl⟩ := Prod.mk.inj hresult
    have hresponse : (serve platform d.session
        (decode request.received)).response = .addressReview data := by
      change Response.pending _ = _ at hpending
      cases hserved : (serve platform d.session (decode request.received)).response with
      | reply data code => simp [hserved, Response.pending] at hpending
      | messageReview => simp [hserved, Response.pending] at hpending
      | silence => simp [hserved, Response.pending] at hpending
      | addressReview data' =>
          rw [hserved] at hpending
          cases hpending
          rfl
    obtain ⟨payload, hrequest, haddressable, hpath⟩ := serve_addressReview hresponse
    exact ⟨trace, platform, request, _, payload, rfl, hrequest, haddressable, hpath⟩
  · obtain ⟨rfl, rfl⟩ := Prod.mk.inj hresult
    have hnone := serveApproval_pending platform d.session p
    change Response.pending _ = _ at hpending
    rw [hnone] at hpending
    cases hpending
  · obtain ⟨rfl, rfl⟩ := Prod.mk.inj hresult
    cases hpending

theorem run_reviewsLast {start s : System B} (hstart : Starts start)
    {trace : List Entry} (run : Run (machine B) start trace s) :
    ∃ d, Implements s d ∧ ReviewsLast trace d := by
  apply (simulation B).invariant ReviewsLast (implements_of_idle hstart.1) _ _ run
  · rintro data ⟨⟩
  · intro trace d e o d' _ hstep
    exact step_reviewsLast hstep

theorem pending_of_addressView {s : System B} {d : Device B} (h : Implements s d)
    (hpending : s.pending = true) (hview : s.app.view = some addressView) :
    ∃ data, d.pending = some (.address data) := by
  have hsome := h.pending.symm.trans hpending
  cases hp : d.pending with
  | none => simp [hp] at hsome
  | some p =>
      cases p with
      | address data => exact ⟨data, rfl⟩
      | message =>
          have hmessage := (h.awaits _ hp).prepared.1
          change s.app.view = _ at hmessage
          rw [hview] at hmessage
          cases hmessage

/-- In every run, while an address waits for its approval, it is that of the key at
the path of the last request, which passed every check; the user reads all of it, and
in expert mode all of the path, without an error, and the approval replies the key
with this address. -/
theorem waiting_address_is_read_in_full {start s : System B} (hstart : Starts start)
    {trace : List Entry} (run : Run (machine B) start trace s)
    (hpending : s.pending = true) (hview : s.app.view = some addressView) :
    ∃ earlier platform request o payload pubkey, ∃ text : CText addressMaxLength,
      trace = earlier ++ [(.apdu platform request, o)] ∧
      decode request.received = .getAddr true payload ∧
      Addressable platform payload (pubkey ++ text.chars) ∧
      publicKeyOf platform (pathOf payload) = .ok pubkey ∧
      addressOf platform pubkey = .ok text ∧
      (∀ pager pages, PagesText pager pages → ∀ outKeyLen outValLen out,
        2 ≤ outValLen.toNat →
          ReadsAs (addressPages pager s.app 0 outKeyLen outValLen out)
            (snprintf outKeyLen (ascii "Address") out.outKey) text.chars ∧
          (pager.appModeExpert = true →
            (pager.bip32ToStr (pathOf payload)).length ≤ 255 →
              ReadsAs (addressPages pager s.app 1 outKeyLen outValLen out)
                (snprintf outKeyLen (ascii "Your Path") out.outKey)
                (pager.bip32ToStr (pathOf payload)))) ∧
      (∀ pager outKeyLen outValLen fuel out, 512 ≤ fuel →
        ∃ shown, browseAddress pager s.app outKeyLen outValLen fuel out =
          some (.ok, shown)) ∧
      ∀ platform', ∃ s' o', HostSession.step s (.approve platform') = some (s', o') ∧
        o'.replyBytes = some (pubkey ++ text.chars ++ codeBytes apduCodeOk) := by
  obtain ⟨d, himplements, hreviews⟩ := run_reviewsLast hstart run
  obtain ⟨data, hdata⟩ := pending_of_addressView himplements hpending hview
  obtain ⟨earlier, platform, request, o, payload, htrace, hrequest, haddressable,
    hpath⟩ := hreviews data hdata
  obtain ⟨pubkey, text, hkey, htext, hpubkey, rfl⟩ :=
    addressReplyOf_eq_ok haddressable.reply
  have hawaits := himplements.awaits _ hdata
  have hshown := shownAddress_eq hpubkey hawaits
  rw [← himplements.session] at hpath
  refine ⟨earlier, platform, request, o, payload, pubkey, text, htrace, hrequest,
    haddressable, hkey, htext, ?_, ?_, ?_⟩
  · intro pager pages hpages outKeyLen outValLen out hlen
    constructor
    · apply readsAs_of_addrPage hpages hlen
      · have hfits : text.chars.length < 66 := text.fits
        omega
      · intro pageIdx out
        rw [← hshown]
        rfl
    · intro hexpert hshort
      apply readsAs_of_addrPage hpages hlen hshort
      intro pageIdx out
      rw [← hpath]
      simp [addrGetItem, hexpert]
  · intro pager outKeyLen outValLen fuel out hfuel
    exact browseAddress_ok pager s.app outKeyLen outValLen hfuel out
  · intro platform'
    obtain ⟨s', hstep, -⟩ := step_approve himplements hdata platform'
    exact ⟨s', _, hstep, replyBytes_observation _ _ _⟩

/-- The sample device in expert mode. -/
def expertPlatform : Platform :=
  { samplePlatform with appModeExpert := true }

def sampleTextPages (outValLen : UInt16) (text : List UInt8) : List (List UInt8) :=
  slices (outValLen.toNat - 1) text

theorem expertPlatform_pagesText : PagesText expertPlatform sampleTextPages where
  text outValLen text hlen := flatten_slices (by omega) _
  nonempty outValLen text hlen page := ne_nil_of_mem_slices (by omega)
  shows outValLen text pageIdx hlen hlt := by
    apply getElem?_slices
    exact Nat.lt_of_lt_of_le hlt (Nat.mod_le _ _)
  reports outValLen text pageIdx hlen := by
    rw [sampleTextPages, length_slices]
    rfl

/-- Seventeen characters a page, as on a small screen. -/
theorem waiting_address_is_read_in_full_sample :
    ReadsAs (addressPages expertPlatform afterConfirmedGetAddr.1.app 1 20 18 ⟨[], [], 0⟩)
      (ascii "Your Path") (ascii "m/44'/1551'/0'") := by
  have run : Run (machine ramFlashBuffering) started
      [(.apdu samplePlatform confirmedGetAddr, afterConfirmedGetAddr.2)]
      afterConfirmedGetAddr.1 :=
    run_snoc_apdu .nil rfl samplePlatform confirmedGetAddr
  have hpending : afterConfirmedGetAddr.1.pending = true := by decide +kernel
  have hview : afterConfirmedGetAddr.1.app.view = some addressView := by decide +kernel
  obtain ⟨_, _, _, _, _, _, _, _, _, _, _, _, hreads, _, _⟩ :=
    waiting_address_is_read_in_full starts_started run hpending hview
  have hshort : (ascii "m/44'/1551'/0'").length ≤ 255 := by decide
  exact (hreads expertPlatform sampleTextPages expertPlatform_pagesText 20 18
    ⟨[], [], 0⟩ (by decide)).2 rfl hshort

end LedgerSovereign.AddressReview
