import LedgerSovereign.Crypto
import LedgerSovereign.ThrowingPrograms

namespace LedgerSovereign.CryptoOutcomes

open LedgerSovereign.Constants
open LedgerSovereign.Crypto
open LedgerSovereign.PlatformInterface
open LedgerSovereign.TaggedBuffer
open LedgerSovereign.ThrowingPrograms

/-- A failure is a returned error, `none`, or an exception. -/
abbrev Outcome := Except (Option Thrown)

def outcome {α β : Type} : SdkCall α β → Outcome α
  | .ok out => .ok out
  | .error _ => .error none
  | .throws e => .error (some e)

def privateKeyOf (platform : Platform) (path : HdPath) : Outcome (List UInt8) := do
  let data ← outcome (platform.osDeriveBip32WithSeedNoThrow path)
  outcome (platform.cxEcfpInitPrivateKeyNoThrow
    (data.toList.take scalarLenEd25519))

/-- The 32 bytes of a public key: the coordinate `y`, lowest byte first, with
the parity of `x` in the highest bit. -/
def encodePoint (w : Vector UInt8 65) : List UInt8 :=
  if w.toList.getD pkLen25519 0 &&& 1 ≠ 0 then
    (reversedY w).take 31 ++ [(reversedY w).getD 31 0 ||| 0x80]
  else
    reversedY w

def publicKeyOf (platform : Platform) (path : HdPath) : Outcome (List UInt8) := do
  let key ← privateKeyOf platform path
  let w ← outcome platform.cxEcfpInitPublicKeyNoThrow
  let pair ← outcome (platform.cxEcfpGeneratePairNoThrow w key)
  return encodePoint pair.1

def signatureOf (platform : Platform) (path : HdPath) (message : List UInt8) :
    Outcome (Vector UInt8 ed25519SignatureSize) := do
  let key ← privateKeyOf platform path
  outcome (platform.cxEddsaSignNoThrow key message)

def addressOf (platform : Platform) (pubkey : List UInt8) :
    Outcome (CText addressMaxLength) :=
  match platform.bech32EncodeFromBytes addressMaxLength hrp
      ((platform.cxHashSha256 pubkey).toList.take pubkeyShaLen) true .bech32m with
  | .ok text => .ok text
  | .failed _ _ _ => .error none

def addressReplyOf (platform : Platform) (path : HdPath) :
    Outcome (List UInt8) := do
  let pubkey ← publicKeyOf platform path
  let text ← addressOf platform pubkey
  return pubkey ++ text.chars

@[simp] theorem length_reversedY (w : Vector UInt8 65) :
    (reversedY w).length = 32 := by
  simp [reversedY, pkLen25519]

@[simp] theorem length_encodePoint (w : Vector UInt8 65) :
    (encodePoint w).length = 32 := by
  unfold encodePoint
  split <;> simp

variable {n : Nat}

theorem store_encodePoint (b : Buffer n) (w : Vector UInt8 65) (hn : 32 ≤ n) :
    (if w.toList.getD pkLen25519 0 &&& 1 ≠ 0 then
      (b.store 0 (reversedY w)).store 31
        [(b.store 0 (reversedY w)).byte 31 ||| 0x80]
    else b.store 0 (reversedY w)) = b.store 0 (encodePoint w) := by
  have hsize : (reversedY w).length ≤ n := by simpa using hn
  rw [b.byte_store_self (i := 31) (by simp) hsize, encodePoint]
  split
  · have hsuffix := b.store_store_suffix 0 31 (reversedY w)
      [(reversedY w).getD 31 0 ||| 0x80]
      (by simp) (by simpa using hn)
    simpa using hsuffix
  · rfl

/-- A failing stretch jumps to the label for an error and throws otherwise. -/
def JumpsFor : Jump → Option Thrown → Prop
  | .catchCxError, none => True
  | .thrown e, some e' => e = e'
  | _, _ => False

theorem catchCxError_agrees {α β : Type} (call : SdkCall α β)
    {onOk : α → Frame n → Frame n} {onError : β → Frame n → Frame n}
    {f : Frame n} {Q : Option Thrown → Frame n → Prop}
    (herror : ∀ out, call = .error out → Q none (onError out f))
    (hthrows : ∀ e, call = .throws e → Q (some e) f) :
    Agrees JumpsFor (fun _ out f' => f' = onOk out f) Q
      ((catchCxError call onOk onError).run f) (outcome call) := by
  cases call with
  | ok out => rfl
  | error out => exact ⟨trivial, herror out rfl⟩
  | throws e => exact ⟨rfl, hthrows e rfl⟩

/-- A crypto function keeps its caller's length and text, and records `new`. -/
structure Keeps (f f' : Frame n) (new : List Call) : Prop where
  addrResponseLen : f'.addrResponseLen = f.addrResponseLen
  addressEncoded : f'.addressEncoded = f.addressEncoded
  calls : f'.calls = f.calls ++ new

structure Derives (path : HdPath) (f f' : Frame n) : Prop
    extends Keeps f f' [.osDeriveBip32WithSeedNoThrow path] where
  out : f'.out = f.out

theorem deriveCxPrivateKey_agrees (platform : Platform) (path : HdPath)
    (f : Frame n) :
    Agrees JumpsFor
      (fun _ key f' => f'.cxPrivateKey = key ∧ Derives path f f')
      (fun _ f' => Derives path f f')
      ((deriveCxPrivateKey platform path).run f) (privateKeyOf platform path) := by
  rw [deriveCxPrivateKey, record, run_modify_bind]
  apply (catchCxError_agrees _ _ _).bind
  · rintro _ data _ rfl
    rw [run_get_bind]
    refine (catchCxError_agrees _ ?_ ?_).mono ?_ fun _ _ h => h
    · exact fun _ _ => ⟨⟨rfl, rfl, rfl⟩, rfl⟩
    · exact fun _ _ => ⟨⟨rfl, rfl, rfl⟩, rfl⟩
    · rintro _ key _ rfl
      exact ⟨rfl, ⟨rfl, rfl, rfl⟩, rfl⟩
  · exact fun _ _ => ⟨⟨rfl, rfl, rfl⟩, rfl⟩
  · exact fun _ _ => ⟨⟨rfl, rfl, rfl⟩, rfl⟩

/-- How a crypto function reports an outcome: `zxerr_ok`, an error, or an
exception. -/
def Reports {β : Type} (P : β → Frame n → Prop) (Q R : Frame n → Prop)
    (r : EStateM.Result Thrown (Frame n) ZxErr) : Outcome β → Prop
  | .ok b => ∃ f, r = .ok .ok f ∧ P b f
  | .error none => ∃ err f, r = .ok err f ∧ err ≠ .ok ∧ Q f
  | .error (some e) => ∃ f, r = .error e f ∧ R f

theorem Reports.of_ok {β : Type} {P : β → Frame n → Prop} {Q R : Frame n → Prop}
    {f : Frame n} {o : Outcome β} (h : Reports P Q R (.ok .ok f) o) :
    ∃ b, o = .ok b ∧ P b f := by
  rcases o with (_ | e) | b
  · obtain ⟨err, g, hr, herr, -⟩ := h
    exact absurd (EStateM.Result.ok.inj hr).1.symm herr
  · obtain ⟨g, ⟨⟩, -⟩ := h
  · obtain ⟨g, hr, hP⟩ := h
    obtain rfl := (EStateM.Result.ok.inj hr).2
    exact ⟨b, rfl, hP⟩

theorem untilCatchCxError_reports {β : Type}
    {body : EStateM Jump (Frame n) Unit} {o : Outcome β} {f : Frame n}
    {P : β → Frame n → Prop} {Q : Frame n → Prop}
    (h : Agrees JumpsFor (fun _ b f' => P b f') (fun _ f' => Q f')
      (body.run f) o) :
    Reports P Q Q ((untilCatchCxError body).run f) o := by
  simp only [untilCatchCxError, EStateM.run] at h ⊢
  cases hbody : body f with
  | ok _ f' =>
      rw [hbody] at h
      cases o with
      | ok b => exact ⟨f', rfl, h⟩
      | error d => exact h.elim
  | error j f' =>
      rw [hbody] at h
      cases o with
      | ok b => exact h.elim
      | error d =>
          obtain ⟨hjump, hQ⟩ := h
          cases j with
          | catchCxError =>
              cases d with
              | none => exact ⟨.unknown, f', rfl, by decide, hQ⟩
              | some e => exact hjump.elim
          | thrown e =>
              cases d with
              | none => exact hjump.elim
              | some e' =>
                  obtain rfl : e = e' := hjump
                  exact ⟨f', rfl, hQ⟩

theorem afterLabel_run_ok (outLen : UInt16) (f : Frame n) :
    (Crypto.afterLabel outLen .ok).run f = .ok .ok (wipe f) := by
  rw [Crypto.afterLabel, run_modify_bind]
  rfl

theorem afterLabel_run_error (outLen : UInt16) {err : ZxErr} (h : err ≠ .ok)
    (f : Frame n) :
    (Crypto.afterLabel outLen err).run f =
      .ok err { wipe f with out := f.out.zero outLen.toNat } := by
  rw [Crypto.afterLabel, run_modify_bind]
  dsimp only
  rw [if_pos h]
  rfl

theorem Reports.afterLabel {β : Type} {P : β → Frame n → Prop}
    {Q R : Frame n → Prop} {x : EStateM Thrown (Frame n) ZxErr} {f : Frame n}
    {o : Outcome β} (outLen : UInt16) (h : Reports P Q R (x.run f) o) :
    Reports (fun b f' => ∃ g, P b g ∧ f' = wipe g)
      (fun f' => ∃ g, Q g ∧
        f' = { wipe g with out := g.out.zero outLen.toNat })
      R ((x >>= Crypto.afterLabel outLen).run f) o := by
  rw [EStateM.run_bind]
  match o, h with
  | .ok b, ⟨g, hx, hP⟩ =>
      rw [hx]
      exact ⟨_, afterLabel_run_ok outLen g, g, hP, rfl⟩
  | .error none, ⟨err, g, hx, herr, hQ⟩ =>
      rw [hx]
      exact ⟨err, _, afterLabel_run_error outLen herr g, herr, g, hQ, rfl⟩
  | .error (some e), ⟨g, hx, hR⟩ =>
      rw [hx]
      exact ⟨g, rfl, hR⟩

theorem Reports.mono {β : Type} {P P' : β → Frame n → Prop}
    {Q Q' R R' : Frame n → Prop} {r : EStateM.Result Thrown (Frame n) ZxErr}
    {o : Outcome β} (h : Reports P Q R r o) (hP : ∀ b f, P b f → P' b f)
    (hQ : ∀ f, Q f → Q' f) (hR : ∀ f, R f → R' f) : Reports P' Q' R' r o := by
  match o, h with
  | .ok b, ⟨f, hr, hf⟩ => exact ⟨f, hr, hP b f hf⟩
  | .error none, ⟨err, f, hr, herr, hf⟩ => exact ⟨err, f, hr, herr, hQ f hf⟩
  | .error (some e), ⟨f, hr, hf⟩ => exact ⟨f, hr, hR f hf⟩

theorem extractUntilLabel_agrees (platform : Platform) (path : HdPath)
    (f : Frame n) (hn : 32 ≤ n) :
    Agrees JumpsFor
      (fun _ pubkey f' =>
        Keeps f f' [.osDeriveBip32WithSeedNoThrow path] ∧
          f'.out = f.out.store 0 pubkey)
      (fun _ f' => Derives path f f')
      ((extractUntilLabel platform path).run f) (publicKeyOf platform path) := by
  apply (deriveCxPrivateKey_agrees platform path f).bind
  rintro _ key f₁ ⟨rfl, hf₁⟩
  have hkeeps := hf₁.toKeeps
  -- A failure from here on leaves the frame of the derivation but for locals.
  have hfails : ∀ w key, Derives path f (setCxPair (w, key) f₁) := fun _ _ =>
    ⟨⟨hkeeps.1, hkeeps.2, hkeeps.3⟩, hf₁.out⟩
  apply (catchCxError_agrees _ (fun w _ => hfails w f₁.cxPrivateKey)
    fun _ _ => hf₁).bind
  rintro _ w _ rfl
  rw [run_get_bind]
  apply (catchCxError_agrees _ (fun pair _ => hfails pair.1 pair.2)
    fun _ _ => hfails w f₁.cxPrivateKey).bind
  rintro _ pair _ rfl
  simp only [run_get_bind, run_modify_bind, run_ite, EStateM.run_modify,
    EStateM.run_pure]
  have hout := store_encodePoint f₁.out pair.1 hn
  rw [← hf₁.out]
  split
  · rename_i hbit
    exact ⟨⟨hkeeps.1, hkeeps.2, hkeeps.3⟩, (if_pos hbit).symm.trans hout⟩
  · rename_i hbit
    exact ⟨⟨hkeeps.1, hkeeps.2, hkeeps.3⟩, (if_neg hbit).symm.trans hout⟩

theorem cryptoExtractPublicKey_reports (platform : Platform) (path : HdPath)
    {len : UInt16} (f : Frame n) (hlen : 32 ≤ len.toNat) (hn : 32 ≤ n) :
    Reports
      (fun pubkey f' => Keeps f f' [.osDeriveBip32WithSeedNoThrow path] ∧
        f'.out = f.out.store 0 pubkey)
      (fun f' => Keeps f f' [.osDeriveBip32WithSeedNoThrow path] ∧
        f'.out = f.out.zero len.toNat)
      (fun f' => Derives path f f')
      ((cryptoExtractPublicKey platform path .object len).run f)
      (publicKeyOf platform path) := by
  have hguard : ¬ (Pointer.object = Pointer.null ∨ len.toNat < pkLen25519) := by
    have hpk : pkLen25519 = 32 := rfl
    rintro (h | h)
    · cases h
    · omega
  have hbody := untilCatchCxError_reports
    (extractUntilLabel_agrees platform path (enter platform f) hn)
  rw [cryptoExtractPublicKey, if_neg hguard, run_modify_bind]
  refine (hbody.afterLabel len).mono ?_ ?_ ?_
  · rintro pubkey _ ⟨g, ⟨hkeeps, hout⟩, rfl⟩
    exact ⟨⟨hkeeps.1, hkeeps.2, hkeeps.3⟩, hout⟩
  · rintro _ ⟨g, hderives, rfl⟩
    have hkeeps := hderives.toKeeps
    have hout : g.out = f.out := hderives.out
    exact ⟨⟨hkeeps.1, hkeeps.2, hkeeps.3⟩, by rw [hout]⟩
  · rintro g hderives
    have hkeeps := hderives.toKeeps
    exact ⟨⟨hkeeps.1, hkeeps.2, hkeeps.3⟩, hderives.out⟩

theorem signUntilLabel_agrees (platform : Platform) (path : HdPath)
    {maxlen : UInt16} (message : List UInt8) (f : Frame n)
    (hmaxlen : 64 ≤ maxlen.toNat) :
    Agrees JumpsFor
      (fun _ signature f' =>
        Keeps f f' [.osDeriveBip32WithSeedNoThrow path] ∧
          f'.out = f.out.store 0 signature.toList)
      (fun _ f' => Keeps f f' [.osDeriveBip32WithSeedNoThrow path])
      ((signUntilLabel platform path maxlen message).run f)
      (signatureOf platform path message) := by
  have hderive := (deriveCxPrivateKey_agrees platform path f).mono
    (fun _ _ _ h => h) fun _ _ h => h.toKeeps
  apply hderive.bind
  rintro _ key f₁ ⟨rfl, hf₁⟩
  have hkeeps := hf₁.toKeeps
  rw [run_get_bind]
  refine (catchCxError_agrees _ ?_ ?_).mono ?_ fun _ _ h => h
  · exact fun _ _ => ⟨hkeeps.1, hkeeps.2, hkeeps.3⟩
  · exact fun _ _ => hkeeps
  · rintro _ signature _ rfl
    have htake : signature.toList.take maxlen.toNat = signature.toList := by
      apply List.take_of_length_le
      have hsize : ed25519SignatureSize = 64 := rfl
      simp only [Vector.length_toList]
      omega
    refine ⟨⟨hkeeps.1, hkeeps.2, hkeeps.3⟩, ?_⟩
    simp only [writeSignature, writeOut, htake, hf₁.out]

def signCalls (path : HdPath) (message : List UInt8) : List Call :=
  [.cryptoSign path message, .osDeriveBip32WithSeedNoThrow path]

theorem cryptoSign_reports (platform : Platform) (path : HdPath)
    (maxlen : UInt16) {messageLen : UInt16} (memory : List UInt8) (f : Frame n)
    (hmaxlen : 64 ≤ maxlen.toNat) (hmessageLen : messageLen ≠ 0) :
    let message := memory.take messageLen.toNat
    Reports
      (fun signature f' => Keeps f f' (signCalls path message) ∧
        f'.out = f.out.store 0 signature.toList)
      (fun f' => Keeps f f' (signCalls path message))
      (fun f' => Keeps f f' (signCalls path message))
      ((cryptoSign platform path .object maxlen (some memory) messageLen).run f)
      (signatureOf platform path message) := by
  intro message
  have hguard : ¬ (Pointer.object = Pointer.null ∨ (some memory).isNone ∨
      maxlen.toNat < ed25519SignatureSize ∨ messageLen = 0) := by
    have hsize : ed25519SignatureSize = 64 := rfl
    rintro (h | h | h | h)
    · cases h
    · cases h
    · omega
    · exact hmessageLen h
  rw [cryptoSign, run_modify_bind, if_neg hguard, run_modify_bind]
  have hbody := untilCatchCxError_reports
    (signUntilLabel_agrees platform path message
      (enter platform { f with calls := f.calls ++ [.cryptoSign path message] })
      hmaxlen)
  have hcalls : ∀ calls : List Call,
      calls = f.calls ++ [.cryptoSign path message] ++
        [.osDeriveBip32WithSeedNoThrow path] →
      calls = f.calls ++ signCalls path message := by
    rintro _ rfl
    simp [signCalls]
  refine (hbody.afterLabel maxlen).mono ?_ ?_ ?_
  · rintro signature _ ⟨g, ⟨hkeeps, hout⟩, rfl⟩
    exact ⟨⟨hkeeps.1, hkeeps.2, hcalls _ hkeeps.3⟩, hout⟩
  · rintro _ ⟨g, hkeeps, rfl⟩
    exact ⟨hkeeps.1, hkeeps.2, hcalls _ hkeeps.3⟩
  · rintro g hkeeps
    exact ⟨hkeeps.1, hkeeps.2, hcalls _ hkeeps.3⟩

theorem cryptoComputeSha256_eq (platform : Platform) (memory : List UInt8) :
    cryptoComputeSha256 platform .object 32 (some memory) 32
        (Buffer.zeros pkLen25519) =
      (.ok, (Buffer.zeros pkLen25519).store 0
        (platform.cxHashSha256 (memory.take 32)).toList) := by
  have hzero := (Buffer.zeros pkLen25519).zero_all
  change (Buffer.zeros pkLen25519).zero 32 = _ at hzero
  simp [cryptoComputeSha256, pkLen25519] at hzero ⊢
  rw [hzero]

/-- What an address computation leaves in its zeroed output. -/
theorem cryptoComputeAddress_stores (platform : Platform) (memory : List UInt8)
    {addressLen : UInt16} (hlen : addressMaxLength ≤ addressLen.toNat) (out : Buffer n) :
    match addressOf platform (memory.take 32) with
    | .ok text =>
        cryptoComputeAddress platform .object addressLen (some memory) out =
          (.ok, (out.zero addressLen.toNat).store 0 (text.chars ++ [0]))
    | .error d =>
        d = none ∧ ∃ err out', err ≠ ZxErr.ok ∧
          cryptoComputeAddress platform .object addressLen (some memory) out =
            (err, out') := by
  have hguard : ¬ (Pointer.object = Pointer.null ∨ addressLen = 0 ∨
      (some memory).isNone) := by
    rintro (⟨⟨⟩⟩ | rfl | ⟨⟨⟩⟩)
    exact absurd hlen (by decide)
  have hsha : ((Buffer.zeros pkLen25519).store 0
      (platform.cxHashSha256 (memory.take 32)).toList).load 0 pubkeyShaLen =
      (platform.cxHashSha256 (memory.take 32)).toList.take pubkeyShaLen :=
    Buffer.load_store_self _ (by simp [pubkeyShaLen]) (by simp [pkLen25519])
  rw [cryptoComputeAddress, if_neg hguard, if_neg (Nat.not_lt.mpr hlen),
    cryptoComputeSha256_eq, addressOf]
  dsimp only
  rw [hsha]
  cases platform.bech32EncodeFromBytes addressMaxLength hrp
      ((platform.cxHashSha256 (memory.take 32)).toList.take pubkeyShaLen)
      true .bech32m with
  | ok text => rfl
  | failed err hfailed leaves => exact ⟨rfl, err, _, hfailed, rfl⟩

/-- In the 66 bytes that `crypto_fillAddress` has for it. -/
theorem cryptoComputeAddress_eq (platform : Platform) (memory : List UInt8) :
    match addressOf platform (memory.take 32) with
    | .ok text =>
        cryptoComputeAddress platform .object 66 (some memory)
            (Buffer.zeros addressMaxLength) =
          (.ok, (Buffer.zeros addressMaxLength).store 0 (text.chars ++ [0]))
    | .error d =>
        d = none ∧ ∃ err out, err ≠ ZxErr.ok ∧
          cryptoComputeAddress platform .object 66 (some memory)
            (Buffer.zeros addressMaxLength) = (err, out) := by
  have hzero := (Buffer.zeros addressMaxLength).zero_all
  change (Buffer.zeros addressMaxLength).zero (UInt16.toNat 66) = _ at hzero
  have hstores := cryptoComputeAddress_stores platform memory
    (by decide : addressMaxLength ≤ (66 : UInt16).toNat) (Buffer.zeros addressMaxLength)
  rwa [hzero] at hstores

theorem length_of_publicKeyOf {platform : Platform} {path : HdPath}
    {pubkey : List UInt8} (h : publicKeyOf platform path = .ok pubkey) :
    pubkey.length = 32 := by
  simp only [publicKeyOf, except_bind_eq_ok] at h
  obtain ⟨key, -, w, -, pair, -, hpair⟩ := h
  obtain rfl : encodePoint pair.1 = pubkey := by simpa [pure, Except.pure] using hpair
  exact length_encodePoint pair.1

theorem addressReplyOf_eq_ok {platform : Platform} {path : HdPath}
    {data : List UInt8} (h : addressReplyOf platform path = .ok data) :
    ∃ pubkey text, publicKeyOf platform path = .ok pubkey ∧
      addressOf platform pubkey = .ok text ∧ pubkey.length = 32 ∧
      data = pubkey ++ text.chars := by
  simp only [addressReplyOf, except_bind_eq_ok] at h
  obtain ⟨pubkey, hkey, text, htext, hdata⟩ := h
  refine ⟨pubkey, text, hkey, htext, length_of_publicKeyOf hkey, ?_⟩
  simpa [pure, Except.pure] using hdata.symm

theorem length_of_addressReplyOf {platform : Platform} {path : HdPath}
    {data : List UInt8} (h : addressReplyOf platform path = .ok data) :
    32 ≤ data.length ∧ data.length < 98 := by
  obtain ⟨pubkey, text, -, -, hpubkey, rfl⟩ := addressReplyOf_eq_ok h
  have hfits : text.chars.length < 66 := text.fits
  simp only [List.length_append]
  omega

theorem cString_storedText (text : CText addressMaxLength) :
    ((Buffer.zeros addressMaxLength).store 0 (text.chars ++ [0])).cString 0 =
      text.chars :=
  Buffer.cString_store _ [] text.noZero (by simpa using text.fits)

theorem load_storedText (text : CText addressMaxLength) :
    ((Buffer.zeros addressMaxLength).store 0 (text.chars ++ [0])).load 0
      text.chars.length = text.chars := by
  rw [Buffer.load_store_self _ (by simp)
    (by simpa using Nat.succ_le_of_lt text.fits)]
  simp

theorem toNat_room {len : UInt16} (hlen : 98 ≤ len.toNat) :
    (len.toUInt32 - UInt32.ofNat pkLen25519).toNat = len.toNat - 32 := by
  have hpk : (UInt32.ofNat pkLen25519).toNat = 32 := rfl
  have hle : UInt32.ofNat pkLen25519 ≤ len.toUInt32 := by
    rw [UInt32.le_iff_toNat_le, hpk, UInt16.toNat_toUInt32]
    omega
  rw [UInt32.toNat_sub_of_le _ _ hle, UInt16.toNat_toUInt32, hpk]

/-- A buffer for the longest reply has room for every text behind the key. -/
theorem room_for_address {len : UInt16} (hlen : 98 ≤ len.toNat)
    (text : CText addressMaxLength) :
    ¬ AddressTooLong text.chars.length len := by
  have hchars : text.chars.length < 66 := text.fits
  rw [AddressTooLong, gt_iff_lt, UInt32.lt_iff_toNat_lt, toNat_room hlen, UInt32.toNat_ofNat']
  omega

/-- An address request leaves the key and the text in its zeroed output, or
nothing but the zeros. -/
theorem cryptoFillAddress_reports (platform : Platform) (path : HdPath)
    (len : UInt16) (f : Frame n) (hlen : 98 ≤ len.toNat) (hn : len.toNat ≤ n) :
    Reports
      (fun data f' => f'.out = (f.out.zero len.toNat).store 0 data ∧
        f'.addrResponseLen = UInt16.ofNat data.length ∧
        f'.calls = f.calls ++ [.osDeriveBip32WithSeedNoThrow path])
      (fun f' => f'.out = f.out.zero len.toNat ∧
        f'.addrResponseLen = f.addrResponseLen ∧
        f'.calls = f.calls ++ [.osDeriveBip32WithSeedNoThrow path])
      (fun f' => f'.out = f.out.zero len.toNat ∧
        f'.addrResponseLen = f.addrResponseLen ∧
        f'.calls = f.calls ++ [.osDeriveBip32WithSeedNoThrow path])
      ((cryptoFillAddress platform path .object len .object).run f)
      (addressReplyOf platform path) := by
  have hnull : ¬ (Pointer.object = Pointer.null ∨
      Pointer.object = Pointer.null) := by simp
  have hsmall : ¬ len.toNat < pkLen25519 + addressMaxLength := by
    simp only [pkLen25519, addressMaxLength]
    omega
  rw [cryptoFillAddress, if_neg hnull, if_neg hsmall, run_modify_bind,
    EStateM.run_bind, addressReplyOf]
  have hextract := cryptoExtractPublicKey_reports platform path
    { f with out := f.out.zero len.toNat } (by omega : 32 ≤ len.toNat)
    (by omega)
  have hzero : ((f.out.zero len.toNat).zero len.toNat) = f.out.zero len.toNat :=
    f.out.zero_store (by simp) hn
  cases hkey : publicKeyOf platform path with
  | error d =>
      rw [hkey] at hextract
      cases d with
      | none =>
          obtain ⟨err, g, hrun, herr, hkeeps, hout⟩ := hextract
          rw [hrun]
          simp only [if_pos herr, EStateM.run_pure]
          exact ⟨err, g, rfl, herr, hout.trans hzero, hkeeps.1, hkeeps.3⟩
      | some e =>
          obtain ⟨g, hrun, hderives⟩ := hextract
          rw [hrun]
          exact ⟨g, rfl, hderives.out, hderives.addrResponseLen, hderives.calls⟩
  | ok pubkey =>
      rw [hkey] at hextract
      obtain ⟨g, hrun, hkeeps, hout⟩ := hextract
      have hpubkey := length_of_publicKeyOf hkey
      have hmemory : (g.out.load 0 n).take 32 = pubkey := by
        rw [Buffer.load_take _ (by omega), hout,
          Buffer.load_store_self _ (by omega) (by omega),
          List.take_of_length_le (by omega)]
      have haddress := cryptoComputeAddress_eq platform (g.out.load 0 n)
      rw [hmemory] at haddress
      rw [hrun]
      simp only [ne_eq, not_true_eq_false, if_false, run_modify_bind,
        run_get_bind]
      have hcover : (g.out).zero len.toNat = f.out.zero len.toNat := by
        rw [hout, Buffer.zero_store _ (by omega) hn]
        exact hzero
      change Reports _ _ _ _ (addressOf platform pubkey >>= fun text =>
        Except.ok (pubkey ++ text.chars))
      cases htext : addressOf platform pubkey with
      | error d =>
          rw [htext] at haddress
          obtain ⟨rfl, err, out, herr, haddress⟩ := haddress
          simp only [haddress, run_modify_bind, herr, not_false_eq_true,
            if_true, EStateM.run_pure]
          exact ⟨err, _, rfl, herr, hcover, hkeeps.1, hkeeps.3⟩
      | ok text =>
          rw [htext] at haddress
          have hchars : text.chars.length < 66 := text.fits
          simp only [haddress, not_true_eq_false, if_false, cString_storedText,
            load_storedText, room_for_address hlen text, run_modify_bind,
            EStateM.run_pure]
          refine ⟨_, rfl, ?_, ?_, hkeeps.3⟩
          · have happend := Buffer.store_store_append (f.out.zero len.toNat)
              0 pubkey text.chars (by omega)
            rw [hpubkey] at happend
            change g.out.store (0 + 32) text.chars = _
            rw [hout]
            exact happend
          · change UInt16.ofNat (32 + text.chars.length) = _
            rw [List.length_append, hpubkey]

structure DerivationThrows (platform : Platform) (allowed : Thrown → Prop) :
    Prop where
  osDerive : ∀ path e,
    platform.osDeriveBip32WithSeedNoThrow path = .throws e → allowed e
  initPrivate : ∀ data e,
    platform.cxEcfpInitPrivateKeyNoThrow data = .throws e → allowed e
  initPublic : ∀ e, platform.cxEcfpInitPublicKeyNoThrow = .throws e → allowed e
  generatePair : ∀ w key e,
    platform.cxEcfpGeneratePairNoThrow w key = .throws e → allowed e

theorem outcome_eq_thrown {α β : Type} {call : SdkCall α β} {e : Thrown}
    (h : outcome call = .error (some e)) : call = .throws e := by
  cases call with
  | ok out => cases h
  | error out => cases h
  | throws e' =>
      cases h
      rfl

section Throws

variable {platform : Platform} {allowed : Thrown → Prop}
  (h : DerivationThrows platform allowed) {path : HdPath} {e : Thrown}
include h

theorem privateKeyOf_throws (hthrown : privateKeyOf platform path = .error (some e)) :
    allowed e := by
  rw [privateKeyOf, except_bind_eq_error] at hthrown
  rcases hthrown with hcall | ⟨data, -, hcall⟩
  · exact h.osDerive path e (outcome_eq_thrown hcall)
  · exact h.initPrivate _ e (outcome_eq_thrown hcall)

theorem publicKeyOf_throws (hthrown : publicKeyOf platform path = .error (some e)) :
    allowed e := by
  simp only [publicKeyOf, except_bind_eq_error] at hthrown
  rcases hthrown with hkey | ⟨key, -, hcall | ⟨w, -, hcall | ⟨pair, -, hpair⟩⟩⟩
  · exact privateKeyOf_throws h hkey
  · exact h.initPublic e (outcome_eq_thrown hcall)
  · exact h.generatePair w key e (outcome_eq_thrown hcall)
  · cases hpair

theorem addressReplyOf_throws
    (hthrown : addressReplyOf platform path = .error (some e)) : allowed e := by
  simp only [addressReplyOf, except_bind_eq_error] at hthrown
  rcases hthrown with hkey | ⟨pubkey, -, htext | ⟨text, -, hdata⟩⟩
  · exact publicKeyOf_throws h hkey
  · unfold addressOf at htext
    split at htext <;> cases htext
  · cases hdata

end Throws

end LedgerSovereign.CryptoOutcomes
