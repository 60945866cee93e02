import LedgerSovereign.AddressConfirmation

namespace LedgerSovereign.ReplyDiscipline

open LedgerSovereign.AddressConfirmation
open LedgerSovereign.ApduHandler
open LedgerSovereign.ApplicationState
open LedgerSovereign.BufferingInterface
open LedgerSovereign.Constants
open LedgerSovereign.CryptoOutcomes
open LedgerSovereign.HandlerCorrectness
open LedgerSovereign.HostSession
open LedgerSovereign.Parser
open LedgerSovereign.PlatformInterface
open LedgerSovereign.RequestSemantics
open LedgerSovereign.SampleDevice
open LedgerSovereign.TaggedBuffer

variable {B : Buffering}

/-- A code that an SDK call may throw while a key is derived. -/
def Foreign (e : Thrown) : Prop :=
  ∃ c, e = .code c ∧ c ≠ 0 ∧ ¬ (0x9000 ≤ c ∧ c ≤ 0x9FFF)

/-- The requests that a review decides about. -/
def NeedsReview (platform : Platform) (s : Session B) : Request → Prop
  | .getAddr confirm payload =>
      confirm = true ∧ ∃ data, Addressable platform payload data
  | .signLast payload =>
      platform.pinIsValidated = true ∧ s.txInitialized = true ∧
        Takes s payload ∧ hasMessage (appended s payload) = true
  | _ => False

/-- The requests that are answered with 0x9000 at once. -/
def Succeeds (platform : Platform) (s : Session B) : Request → Prop
  | .getVersion => True
  | .getAddr confirm payload =>
      confirm = false ∧ ∃ data, Addressable platform payload data
  | .signInit payload =>
      platform.pinIsValidated = true ∧ 12 ≤ payload.length ∧
        mainnet (pathOf payload) = true
  | .signAdd payload =>
      platform.pinIsValidated = true ∧ s.txInitialized = true ∧ Takes s payload
  | _ => False

/-- The data that goes with 0x9000, in the session that is left. -/
def SuccessData (platform : Platform) (s : Session B) (request : Request)
    (data : List UInt8) : Prop :=
  match request with
  | .getVersion => data = versionBytes platform ∧ data.length = 12
  | .getAddr _ payload =>
      Addressable platform payload data ∧
        data.length = s.actionAddrResponseLen.toNat
  | _ => data = [] ∧ s.txInitialized = true

/-- The data that goes with another status word. -/
def FailureData (request : Request) (data : List UInt8) (code : UInt16) : Prop :=
  data = [] ∨ (∃ payload, request = .signLast payload) ∧
    code = apduCodeDataInvalid ∧ data = parserGetErrorDescription .initContextEmpty

/-- The data and the status word that a request in the session `s` is answered with,
when it leaves the session `t`. -/
structure DataFits (platform : Platform) (s t : Session B) (request : Request)
    (data : List UInt8) (code : UInt16) : Prop where
  ok_iff : code = apduCodeOk ↔ Succeeds platform s request
  success : code = apduCodeOk → SuccessData platform t request data
  failure : code ≠ apduCodeOk → FailureData request data code

/-- No reply yet, but a review; what the buffer holds is the request, or the
address to show. -/
structure Deferred (platform : Platform) (s t : State B) (request : Request) :
    Prop where
  flags : t.flags = ioAsynchReply
  tx : t.tx = 0
  review :
    (∃ payload data, request = .getAddr true payload ∧
        t.view = some addressView ∧ t.hdPath = pathOf payload ∧
        Addressable platform payload data ∧
        t.ioApduBuffer = (Buffer.zeros ioApduBufferSize).store 0 data) ∨
      ∃ payload, request = .signLast payload ∧ t.view = some messageView ∧
        t.ioApduBuffer = s.ioApduBuffer

/-- A whole reply: data, and a status word with the top nibble 6 or 9. -/
structure Immediate (platform : Platform) (s t : State B) (request : Request)
    (data : List UInt8) (code : UInt16) : Prop where
  flags : t.flags = 0
  tx : t.tx.toNat = data.length + 2
  fits : t.tx.toNat ≤ ioApduBufferSize
  bytes : t.ioApduBuffer.slice 0 t.tx.toNat =
    writtenCells (data ++ codeBytes code)
  nibble : code &&& 0xF000 = 0x6000 ∨ code &&& 0xF000 = 0x9000
  data : DataFits platform s.toSession t.toSession request data code

theorem or_and (a b c : UInt16) : (a ||| b) &&& c = (a &&& c) ||| (b &&& c) := by
  apply UInt16.toBitVec_inj.mp
  rw [UInt16.toBitVec_and, UInt16.toBitVec_or, BitVec.and_or_distrib_right]
  rfl

theorem remapped_nibble (e : UInt16) :
    (0x6800 ||| (e &&& 0x7FF)) &&& 0xF000 = 0x6000 := by
  rw [or_and, UInt16.and_assoc]
  change (0x6000 : UInt16) ||| (e &&& 0) = 0x6000
  rw [UInt16.and_zero]
  rfl

theorem statusWord_nibble (e : UInt16) :
    statusWord e &&& 0xF000 = 0x6000 ∨ statusWord e &&& 0xF000 = 0x9000 := by
  unfold statusWord
  split
  · rename_i h
    exact h
  · exact .inl (remapped_nibble e)

theorem range_of_nibble {c : UInt16} (h : c &&& 0xF000 = 0x9000) :
    0x9000 ≤ c ∧ c ≤ 0x9FFF := by
  have hsplit : c = (0x9000 : UInt16) ||| (c &&& 0x0FFF) := by
    have hall := or_and 0xF000 0x0FFF c
    change -1 &&& c = _ at hall
    rw [UInt16.neg_one_and, UInt16.and_comm 0xF000, UInt16.and_comm 0x0FFF, h]
      at hall
    exact hall
  have hlow : (c &&& 0x0FFF).toNat = c.toNat % 2 ^ 12 := by
    rw [UInt16.toNat_and]
    exact Nat.and_two_pow_sub_one_eq_mod _ 12
  have hmod : c.toNat % 2 ^ 12 < 2 ^ 12 := Nat.mod_lt _ (by decide)
  have hsum : c.toNat = 9 <<< 12 + c.toNat % 2 ^ 12 := by
    rw [Nat.shiftLeft_add_eq_or_of_lt hmod, ← hlow]
    exact congrArg UInt16.toNat hsplit
  rw [UInt16.le_iff_toNat_le, UInt16.le_iff_toNat_le]
  change 0x9000 ≤ _ ∧ _ ≤ 0x9FFF
  change _ = 0x9000 + _ at hsum
  omega

theorem statusWord_ne_ok {e : UInt16} (h : Foreign (.code e)) :
    statusWord e ≠ apduCodeOk := by
  obtain ⟨c, ⟨⟩, -, hrange⟩ := h
  have hnibble : ¬ e &&& 0xF000 = 0x9000 := fun h => hrange (range_of_nibble h)
  unfold statusWord
  split
  · rintro rfl
    exact hnibble rfl
  · intro hok
    have hmask := remapped_nibble e
    rw [hok] at hmask
    exact absurd hmask (by decide)

/-- What is served becomes one well-formed reply, or a review for a request that
needs one. -/
def Shaped (platform : Platform) (s : Session B) (request : Request)
    (served : Served B) : Prop :=
  match served.response with
  | .reply data code =>
      ¬ NeedsReview platform s request ∧
        (code &&& 0xF000 = 0x6000 ∨ code &&& 0xF000 = 0x9000) ∧
        DataFits platform s served.session request data code
  | .addressReview data =>
      NeedsReview platform s request ∧ served.session.view = some addressView ∧
        ∃ payload, request = .getAddr true payload ∧
          served.session.hdPath = pathOf payload ∧ Addressable platform payload data
  | .messageReview =>
      NeedsReview platform s request ∧ (∃ payload, request = .signLast payload) ∧
        served.session.view = some messageView
  | .silence => False

section Shapes

variable {platform : Platform} {s : Session B} {request : Request}

theorem dataFits_of_success {t : Session B} {data : List UInt8}
    (h : Succeeds platform s request) (hdata : SuccessData platform t request data) :
    DataFits platform s t request data apduCodeOk where
  ok_iff := iff_of_true rfl h
  success _ := hdata
  failure h := absurd rfl h

theorem dataFits_of_failure {t : Session B} {data : List UInt8} {code : UInt16}
    (h : ¬ Succeeds platform s request) (hcode : code ≠ apduCodeOk)
    (hdata : FailureData request data code) :
    DataFits platform s t request data code where
  ok_iff := iff_of_false hcode h
  success h := absurd h hcode
  failure _ := hdata

theorem shaped_of_refusal {served : Served B} {code : UInt16}
    (hresponse : served.response = .reply [] code)
    (hreview : ¬ NeedsReview platform s request)
    (hsucceeds : ¬ Succeeds platform s request)
    (hnibble : code &&& 0xF000 = 0x6000) (hcode : code ≠ apduCodeOk) :
    Shaped platform s request served := by
  unfold Shaped
  rw [hresponse]
  exact ⟨hreview, .inl hnibble, dataFits_of_failure hsucceeds hcode (.inl rfl)⟩

theorem whenUnlocked_shaped {served : Served B}
    (hreview : NeedsReview platform s request → platform.pinIsValidated = true)
    (hsucceeds : Succeeds platform s request → platform.pinIsValidated = true)
    (h : platform.pinIsValidated = true → Shaped platform s request served) :
    Shaped platform s request (whenUnlocked platform s served) := by
  apply whenUnlocked_rule
  · intro hlocked
    have hno : ¬ platform.pinIsValidated = true := by
      rw [hlocked]
      rintro ⟨⟩
    exact shaped_of_refusal rfl (fun h => hno (hreview h)) (fun h => hno (hsucceeds h))
      rfl (by decide)
  · exact h

theorem getAddr_shaped (h : DerivationThrows platform Foreign) {confirm : Bool}
    {payload : List UInt8} :
    Shaped platform s (.getAddr confirm payload)
      (serve platform s (.getAddr confirm payload)) := by
  -- A review and a success ask for the same checks of the path and the key.
  have hrefused : ∀ {served : Served B} {code : UInt16},
      served.response = .reply [] code →
      ¬ (∃ data, Addressable platform payload data) →
      code &&& 0xF000 = 0x6000 → code ≠ apduCodeOk →
      Shaped platform s (.getAddr confirm payload) served :=
    fun hresponse hno => shaped_of_refusal hresponse (fun h => hno h.2) (fun h => hno h.2)
  refine whenUnlocked_shaped ?_ ?_ fun hunlocked => ?_
  · rintro ⟨-, data, haddressable⟩
    exact haddressable.unlocked
  · rintro ⟨-, data, haddressable⟩
    exact haddressable.unlocked
  apply servePath_rule
  · intro hshort
    refine hrefused rfl ?_ rfl (by decide)
    rintro ⟨data, haddressable⟩
    exact absurd haddressable.long (Nat.not_le_of_lt hshort)
  · intro _ hwrong
    refine hrefused rfl ?_ rfl (by decide)
    rintro ⟨data, haddressable⟩
    have hright := haddressable.path
    rw [hwrong] at hright
    cases hright
  · intro hlong hright
    apply serveAddress_rule (P := fun served =>
      Shaped platform s (.getAddr confirm payload) (served.after (pathCalls payload)))
    · intro failure hfailure
      change addressReplyOf platform (pathOf payload) = _ at hfailure
      have hno : ¬ ∃ data, Addressable platform payload data := by
        rintro ⟨data, haddressable⟩
        have hreply := haddressable.reply
        rw [hfailure] at hreply
        cases hreply
      match failure with
      | none => exact hrefused rfl hno rfl (by decide)
      | some e =>
          have hforeign := addressReplyOf_throws h hfailure
          obtain ⟨c, rfl, -⟩ := id hforeign
          exact ⟨fun h => hno h.2, statusWord_nibble c,
            dataFits_of_failure (fun h => hno h.2) (statusWord_ne_ok hforeign) (.inl rfl)⟩
    · rintro data hdata rfl
      have haddressable : Addressable platform payload data :=
        ⟨hunlocked, hlong, hright, hdata⟩
      refine ⟨?_, .inr rfl, dataFits_of_success ⟨rfl, data, haddressable⟩
        ⟨haddressable, ?_⟩⟩
      · rintro ⟨⟨⟩, -⟩
      · have hbounds := length_of_addressReplyOf hdata
        change _ = (UInt16.ofNat data.length).toNat
        rw [UInt16.toNat_ofNat']
        omega
    · rintro data hdata rfl
      have haddressable : Addressable platform payload data :=
        ⟨hunlocked, hlong, hright, hdata⟩
      exact ⟨⟨rfl, data, haddressable⟩, rfl, payload, rfl, rfl, haddressable⟩

theorem signInit_shaped {payload : List UInt8} :
    Shaped platform s (.signInit payload) (serve platform s (.signInit payload)) := by
  refine whenUnlocked_shaped (by rintro ⟨⟩) (fun h => h.1) fun hunlocked => ?_
  apply servePath_rule
  · intro hshort
    refine shaped_of_refusal rfl (by rintro ⟨⟩) ?_ rfl (by decide)
    rintro ⟨-, hlong, -⟩
    omega
  · intro _ hwrong
    refine shaped_of_refusal rfl (by rintro ⟨⟩) ?_ rfl (by decide)
    rintro ⟨-, -, hright⟩
    rw [hwrong] at hright
    cases hright
  · intro hlong hright
    exact ⟨by rintro ⟨⟩, .inr rfl,
      dataFits_of_success ⟨hunlocked, hlong, hright⟩ ⟨rfl, rfl⟩⟩

theorem signAdd_shaped {payload : List UInt8} :
    Shaped platform s (.signAdd payload) (serve platform s (.signAdd payload)) := by
  refine whenUnlocked_shaped (by rintro ⟨⟩) (fun h => h.1) fun hunlocked => ?_
  apply serveChunk_rule
  · intro hshut
    refine shaped_of_refusal rfl (by rintro ⟨⟩) ?_ rfl (by decide)
    rintro ⟨-, hopen, -⟩
    rw [hshut] at hopen
    cases hopen
  · intro _ hfull
    refine shaped_of_refusal rfl (by rintro ⟨⟩) ?_ rfl (by decide)
    rintro ⟨-, -, htakes⟩
    exact hfull htakes
  · intro hopen htakes
    exact ⟨by rintro ⟨⟩, .inr rfl,
      dataFits_of_success ⟨hunlocked, hopen, htakes⟩ ⟨rfl, hopen⟩⟩

theorem signLast_shaped {payload : List UInt8} :
    Shaped platform s (.signLast payload)
      (serve platform s (.signLast payload)) := by
  refine whenUnlocked_shaped (fun h => h.1) (by rintro ⟨⟩) fun hunlocked => ?_
  apply serveChunk_rule
  · intro hshut
    refine shaped_of_refusal rfl ?_ (by rintro ⟨⟩) rfl (by decide)
    rintro ⟨-, hopen, -⟩
    rw [hshut] at hopen
    cases hopen
  · intro _ hfull
    refine shaped_of_refusal rfl ?_ (by rintro ⟨⟩) rfl (by decide)
    rintro ⟨-, -, htakes, -⟩
    exact hfull htakes
  · intro hopen htakes
    unfold serveMessage
    split
    · rename_i hmessage
      exact ⟨⟨hunlocked, hopen, htakes, hmessage⟩, ⟨payload, rfl⟩, rfl⟩
    · rename_i hmessage
      refine ⟨?_, .inl rfl, dataFits_of_failure (by rintro ⟨⟩) (by decide)
        (.inr ⟨⟨payload, rfl⟩, rfl, rfl⟩)⟩
      rintro ⟨-, -, -, hneeds⟩
      exact hmessage hneeds

theorem serve_shaped (h : DerivationThrows platform Foreign) :
    Shaped platform s request (serve platform s request) := by
  cases request with
  | wrongClass =>
      exact shaped_of_refusal rfl (by rintro ⟨⟩) (by rintro ⟨⟩) rfl (by decide)
  | tooShort =>
      exact shaped_of_refusal rfl (by rintro ⟨⟩) (by rintro ⟨⟩) rfl (by decide)
  | unknownInstruction =>
      exact shaped_of_refusal rfl (by rintro ⟨⟩) (by rintro ⟨⟩) rfl (by decide)
  | getVersion =>
      exact ⟨by rintro ⟨⟩, .inr rfl, dataFits_of_success trivial ⟨rfl, rfl⟩⟩
  | getAddr confirm payload => exact getAddr_shaped h
  | signInit payload => exact signInit_shaped
  | signAdd payload => exact signAdd_shaped
  | signLast payload => exact signLast_shaped
  | signOther =>
      refine whenUnlocked_shaped (by rintro ⟨⟩) (by rintro ⟨⟩) fun _ => ?_
      exact shaped_of_refusal rfl (by rintro ⟨⟩) (by rintro ⟨⟩) rfl (by decide)

end Shapes

def lockingPlatform : Platform :=
  { samplePlatform with
    osDeriveBip32WithSeedNoThrow := fun _ => .throws (.code 0x5515) }

end LedgerSovereign.ReplyDiscipline
