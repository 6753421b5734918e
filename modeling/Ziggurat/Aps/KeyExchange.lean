import Ziggurat.Aps.RoundTrip
import Ziggurat.Aps.Security
import Ziggurat.Lib.ReplayFilter

/-!
# The key exchange, and replays of secured frames

The entry of a device has three parts with lives of their own: the key in use, a key that
is pending until the device verifies it, and the counter that a frame under its own key
must reach.  `deviceKey`, `pendingKey` and `incomingFrameCounter` are the three views, and
for each operation there is a lemma for each view that it may change.

`Call` has one constructor for each operation and `call` runs one.  Two things follow by
induction over a run: the counters taken from a device are guarded by the counter in its
entry, whatever happens to its keys meanwhile, and the key in use changes at the four
operations that are meant to change it.
-/

namespace Ziggurat

open Lib.ReplayFilter

namespace ApsSecurity

variable {backend : CryptoBackend} {security : ApsSecurity}

/-! ## The three views of an entry -/

/-- The key that a device was issued and has not verified. -/
def pendingKey (security : ApsSecurity) (eui64 : Eui64) : Option Key :=
  (security.devices.get eui64).bind DeviceState.pendingKey

/-- `incoming_frame_counter`. -/
def incomingFrameCounter (security : ApsSecurity) (eui64 : Eui64) : Option UInt32 :=
  (security.devices.get eui64).bind DeviceState.incomingFrameCounter

theorem entry_key (security : ApsSecurity) (eui64 : Eui64) :
    (security.entry eui64).key = security.deviceKey eui64 := by
  unfold entry deviceKey
  cases security.devices.get eui64 <;> rfl

theorem entry_pendingKey (security : ApsSecurity) (eui64 : Eui64) :
    (security.entry eui64).pendingKey = security.pendingKey eui64 := by
  unfold entry pendingKey
  cases security.devices.get eui64 <;> rfl

theorem entry_incomingFrameCounter (security : ApsSecurity) (eui64 : Eui64) :
    (security.entry eui64).incomingFrameCounter = security.incomingFrameCounter eui64 := by
  unfold entry incomingFrameCounter
  cases security.devices.get eui64 <;> rfl

section

variable (eui64 other : Eui64) (entry : DeviceState)

@[simp] theorem get_setEntry : (security.setEntry eui64 entry).devices.get other =
    if other = eui64 then some entry else security.devices.get other :=
  FlatMap.get_insert ..

theorem deviceKey_setEntry : (security.setEntry eui64 entry).deviceKey other =
    if other = eui64 then entry.key else security.deviceKey other := by
  unfold deviceKey
  rw [get_setEntry]
  split <;> rfl

theorem pendingKey_setEntry : (security.setEntry eui64 entry).pendingKey other =
    if other = eui64 then entry.pendingKey else security.pendingKey other := by
  unfold pendingKey
  rw [get_setEntry]
  split <;> rfl

theorem incomingFrameCounter_setEntry :
    (security.setEntry eui64 entry).incomingFrameCounter other =
      if other = eui64 then entry.incomingFrameCounter
      else security.incomingFrameCounter other := by
  unfold incomingFrameCounter
  rw [get_setEntry]
  split <;> rfl

end

/-- Pruning drops an entry in which all three views are empty, so it changes no view. -/
theorem bind_get_pruneIfEmpty {α : Type} {view : DeviceState → Option α} (hview : view {} = none)
    (eui64 other : Eui64) : ((security.pruneIfEmpty eui64).devices.get other).bind view =
      (security.devices.get other).bind view := by
  unfold pruneIfEmpty
  split
  next entry hentry =>
    split
    next hempty =>
      obtain ⟨key, pending, counter⟩ := entry
      simp only [Option.isNone_iff_eq_none] at hempty
      obtain ⟨rfl, rfl, rfl⟩ := hempty
      rw [FlatMap.get_remove]
      split
      next h =>
        rw [h, hentry]
        exact hview.symm
      next => rfl
    next => rfl
  next => rfl

theorem get_pruneIfEmpty_of_ne {eui64 other : Eui64} (h : other ≠ eui64) :
    (security.pruneIfEmpty eui64).devices.get other = security.devices.get other := by
  unfold pruneIfEmpty
  split
  · split
    · rw [FlatMap.get_remove, if_neg h]
    · rfl
  · rfl

theorem globalLinkKey_pruneIfEmpty (eui64 : Eui64) :
    (security.pruneIfEmpty eui64).globalLinkKey = security.globalLinkKey ∧
      (security.pruneIfEmpty eui64).tclkSeed = security.tclkSeed := by
  unfold pruneIfEmpty
  split
  · split <;> exact ⟨rfl, rfl⟩
  · exact ⟨rfl, rfl⟩

/-! ## The key shared with a device -/

section

variable (backend security)

theorem unkeyedLinkKey_eq_ok (eui64 : Eui64) :
    ∃ key, security.unkeyedLinkKey backend eui64 = .ok key := by
  unfold unkeyedLinkKey TclkSeed.derive
  cases security.tclkSeed with
  | none => exact ⟨_, rfl⟩
  | some seed =>
    obtain ⟨seedKey, flavor⟩ := seed
    cases flavor with
    | zStack => exact ⟨_, rfl⟩
    | ezsp => exact ezspTclk_eq_ok backend _ _

theorem deviceLinkKey_eq_ok (eui64 : Eui64) :
    ∃ key, security.deviceLinkKey backend eui64 = .ok key := by
  unfold deviceLinkKey
  cases security.deviceKey eui64 with
  | none => exact unkeyedLinkKey_eq_ok backend security eui64
  | some linkKey => exact ⟨_, rfl⟩

end

/-- The key shared with a device is that of its entry, and else fixed by the
configuration. -/
theorem deviceLinkKey_congr {security' : ApsSecurity} {eui64 : Eui64}
    (hglobal : security'.globalLinkKey = security.globalLinkKey)
    (hseed : security'.tclkSeed = security.tclkSeed)
    (hkey : security'.deviceKey eui64 = security.deviceKey eui64) :
    security'.deviceLinkKey backend eui64 = security.deviceLinkKey backend eui64 := by
  unfold deviceLinkKey unkeyedLinkKey
  rw [hkey, hseed, hglobal]

theorem selectKey_eq_ok (backend : CryptoBackend) (linkKey : Key) {keyId : NwkSecurityHeaderKeyId}
    (h : keyId ≠ .networkKey) : ∃ key, selectKey backend linkKey keyId = .ok (some key) := by
  cases keyId with
  | networkKey => exact absurd rfl h
  | dataKey => exact ⟨_, rfl⟩
  | keyTransportKey =>
    obtain ⟨digest, hdigest⟩ := keyedHash_eq_ok backend linkKey [0x00]
      (by decide)
    exact ⟨_, by rw [selectKey, hdigest]; rfl⟩
  | keyLoadKey =>
    obtain ⟨digest, hdigest⟩ := keyedHash_eq_ok backend linkKey [0x02]
      (by decide)
    exact ⟨_, by rw [selectKey, hdigest]; rfl⟩

/-! ## Inbound frames -/

/-- Some key of the list decrypts the frame, or none does. -/
theorem firstKey_eq_ok (backend : CryptoBackend) {α : Type} {keyId : NwkSecurityHeaderKeyId}
    (hkeyId : keyId ≠ .networkKey)
    {decrypt : Key → Checked (Option α)} (hdecrypt : ∀ key, ∃ o, decrypt key = .ok o)
    (linkKeys : List Key) : ∃ o, firstKey backend keyId decrypt linkKeys = .ok o := by
  induction linkKeys with
  | nil => exact ⟨none, rfl⟩
  | cons linkKey linkKeys ih =>
    obtain ⟨key, hkey⟩ := selectKey_eq_ok backend linkKey hkeyId
    obtain ⟨o, ho⟩ := hdecrypt key
    rw [firstKey, hkey, Checked.ok_bind, Checked.expect_some, Checked.ok_bind, ho, Checked.ok_bind]
    cases o with
    | none => exact ih
    | some frame => exact ⟨_, rfl⟩

/-- Decrypting a frame of `source` with this counter: the key that was applied, and the
state it leaves. -/
inductive Decrypted (security : ApsSecurity) (source : Eui64) (counter : UInt32) :
    Option AppliedKey → ApsSecurity → Prop where
  /-- A frame that is rejected, or not under the device's own key, leaves no trace. -/
  | untouched {applied : Option AppliedKey} (other : applied ≠ some .device) :
      Decrypted security source counter applied security
  /-- A frame under the device's own key reaches the counter on record, which moves past
  it. -/
  | taken (room : counter.toNat + 1 < 2 ^ 32)
      (fresh : ∀ minimum, security.incomingFrameCounter source = some minimum →
        minimum.toNat ≤ counter.toNat) :
      Decrypted security source counter (some .device)
        (security.setEntry source
          { security.entry source with incomingFrameCounter := some (counter + 1) })

/-- Decryption returns for every frame. -/
theorem decryptFrame_eq_ok (backend : CryptoBackend) (security : ApsSecurity) {α : Type}
    {decrypt : Key → Checked (Option α)}
    (hdecrypt : ∀ key, ∃ o, decrypt key = .ok o) (source : Eui64) (auxHeader : ApsAuxHeader)
    (networkKey : Key) :
    ∃ o security', security.decryptFrame backend source auxHeader networkKey decrypt =
        .ok (o, security') ∧
      Decrypted security source auxHeader.frameCounter (o.map Prod.snd) security' := by
  have hlt := auxHeader.frameCounter.toNat_lt
  unfold decryptFrame
  dsimp only
  by_cases hmax : auxHeader.frameCounter.toNat = 2 ^ 32 - 1
  · rw [if_pos hmax]
    exact ⟨none, security, rfl, .untouched (by simp)⟩
  rw [if_neg hmax]
  by_cases hnetwork : auxHeader.securityControl.keyId = .networkKey
  · obtain ⟨o, ho⟩ := hdecrypt networkKey
    rw [if_pos hnetwork, ho]
    refine ⟨_, security, rfl, .untouched ?_⟩
    cases o <;> simp
  obtain ⟨deviceLinkKey, hkey⟩ := deviceLinkKey_eq_ok backend security
    source
  obtain ⟨found, hfound⟩ := firstKey_eq_ok backend hnetwork hdecrypt
    (if deviceLinkKey ≠ security.globalLinkKey then [deviceLinkKey, security.globalLinkKey]
      else [deviceLinkKey])
  rw [if_neg hnetwork, hkey, Checked.ok_bind, hfound, Checked.ok_bind]
  cases found with
  | none => exact ⟨none, security, rfl, .untouched (by simp)⟩
  | some found =>
    obtain ⟨linkKey, frame⟩ := found
    dsimp only
    split_ifs with hglobal hreplay
    · exact ⟨_, security, rfl, .untouched (by simp)⟩
    · exact ⟨none, security, rfl, .untouched (by simp)⟩
    · have hroom : auxHeader.frameCounter.toNat + 1 < 2 ^ 32 := by omega
      refine ⟨_, _, by rw [Checked.ensure_of _ hroom]; rfl, .taken hroom (fun minimum hmin => ?_)⟩
      rw [entry_incomingFrameCounter, hmin, Option.any_some, decide_eq_true_eq] at hreplay
      exact Nat.le_of_not_lt hreplay

/-- A fresh frame under the key shared with its source is taken. -/
theorem decryptFrame_of_linkKey {α : Type} (decrypt : Key → Checked (Option α)) {source : Eui64}
    {auxHeader : ApsAuxHeader} (networkKey : Key) {linkKey key : Key} {frame : α}
    (hmax : auxHeader.frameCounter.toNat ≠ 2 ^ 32 - 1)
    (hfresh : ∀ minimum, security.incomingFrameCounter source = some minimum →
      minimum.toNat ≤ auxHeader.frameCounter.toNat)
    (hlink : security.deviceLinkKey backend source = .ok linkKey)
    (hkey : selectKey backend linkKey auxHeader.securityControl.keyId = .ok (some key))
    (hframe : decrypt key = .ok (some frame)) :
    ∃ applied security', security.decryptFrame backend source auxHeader networkKey decrypt =
        .ok (some (frame, applied), security') ∧
      Decrypted security source auxHeader.frameCounter (some applied) security' ∧
      (applied = .device ∨ applied = .global ∧ linkKey = security.globalLinkKey) := by
  have hlt := auxHeader.frameCounter.toNat_lt
  have hnetwork : auxHeader.securityControl.keyId ≠ .networkKey := by
    intro h
    rw [h] at hkey
    cases hkey
  -- the device's key is the first that is tried
  have hfirst (rest : List Key) : firstKey backend auxHeader.securityControl.keyId decrypt
      (linkKey :: rest) = .ok (some (linkKey, frame)) := by
    rw [firstKey, hkey, Checked.ok_bind, Checked.expect_some, Checked.ok_bind, hframe]
    rfl
  have hfound : firstKey backend auxHeader.securityControl.keyId decrypt
      (if linkKey ≠ security.globalLinkKey then [linkKey, security.globalLinkKey]
        else [linkKey]) = .ok (some (linkKey, frame)) := by
    split <;> exact hfirst _
  unfold decryptFrame
  dsimp only
  rw [if_neg hmax, if_neg hnetwork, hlink, Checked.ok_bind, hfound, Checked.ok_bind]
  dsimp only
  split_ifs with hglobal hreplay
  · exact ⟨.global, security, rfl, .untouched (by simp), .inr ⟨rfl, hglobal⟩⟩
  · rw [entry_incomingFrameCounter, Option.any_eq_true] at hreplay
    obtain ⟨minimum, hmin, hlow⟩ := hreplay
    exact absurd (hfresh minimum hmin) (Nat.not_le_of_lt (of_decide_eq_true hlow))
  · have hroom : auxHeader.frameCounter.toNat + 1 < 2 ^ 32 := by omega
    exact ⟨.device, _, by rw [Checked.ensure_of _ hroom]; rfl, .taken hroom hfresh, .inl rfl⟩

section Views

variable {source : Eui64} {counter : UInt32} {applied : Option AppliedKey}
  {security' : ApsSecurity}

/-- Decryption changes the entry of the source alone. -/
theorem Decrypted.get_of_ne (h : Decrypted security source counter applied security')
    {other : Eui64} (hne : other ≠ source) :
    security'.devices.get other = security.devices.get other := by
  cases h with
  | untouched => rfl
  | taken => rw [get_setEntry, if_neg hne]

/-- Decryption changes no key. -/
theorem Decrypted.deviceKey (h : Decrypted security source counter applied security')
    (eui64 : Eui64) : security'.deviceKey eui64 = security.deviceKey eui64 := by
  cases h with
  | untouched => rfl
  | taken =>
    rw [deviceKey_setEntry]
    split
    next heq => rw [heq, ← entry_key]
    next => rfl

theorem Decrypted.config (h : Decrypted security source counter applied security') :
    security'.globalLinkKey = security.globalLinkKey ∧
      security'.tclkSeed = security.tclkSeed := by
  cases h <;> exact ⟨rfl, rfl⟩

end Views

/-! ## The operations of the key exchange -/

/-- The outcomes of a Verify-Key exchange. -/
inductive Verified (backend : CryptoBackend) (security : ApsSecurity) (eui64 : Eui64)
    (hash : Bytes) : Option Bool → ApsSecurity → Prop where
  | refused {o : Option Bool} (other : o ≠ some true) :
    Verified backend security eui64 hash o security
  /-- The pending key becomes the key in use. -/
  | promoted {pending : Key} (hpending : security.pendingKey eui64 = some pending)
      (hhash : verifyKeyHash backend pending = .ok hash) :
      Verified backend security eui64 hash (some true) (security.setEntry eui64
        { security.entry eui64 with key := some ⟨pending, .verified⟩, pendingKey := none })
  /-- The key in use is verified again. -/
  | confirmed {linkKey : DeviceLinkKey} (hpending : security.pendingKey eui64 = none)
      (hkey : security.deviceKey eui64 = some linkKey)
      (hhash : verifyKeyHash backend linkKey.key = .ok hash) :
      Verified backend security eui64 hash (some true) (security.setEntry eui64
        { security.entry eui64 with key := some { linkKey with attributes := .verified } })

theorem verifyDeviceKey_eq_ok (backend : CryptoBackend) (security : ApsSecurity) (eui64 : Eui64)
    (hash : Bytes) :
    ∃ o security', security.verifyDeviceKey backend eui64 hash = .ok (o, security') ∧
      Verified backend security eui64 hash o security' := by
  cases hget : security.devices.get eui64 with
  | none => exact ⟨none, security, by rw [verifyDeviceKey, hget], .refused nofun⟩
  | some entry =>
    have hentry : security.entry eui64 = entry := by rw [ApsSecurity.entry, hget]; rfl
    have hpending := (entry_pendingKey security eui64).symm
    have hkey := (entry_key security eui64).symm
    obtain ⟨key, pending, counter⟩ := entry
    rw [hentry] at hpending hkey
    rw [verifyDeviceKey, hget]
    cases pending with
    | some pending =>
      obtain ⟨digest, hdigest⟩ := verifyKeyHash_eq_ok backend pending
      dsimp only
      rw [hdigest]
      by_cases heq : digest = hash
      · have hpromoted := Verified.promoted hpending (heq ▸ hdigest)
        rw [hentry] at hpromoted
        exact ⟨some true, _, if_pos heq, hpromoted⟩
      · exact ⟨some false, security, if_neg heq, .refused nofun⟩
    | none =>
      cases key with
      | none => exact ⟨none, security, rfl, .refused nofun⟩
      | some linkKey =>
        obtain ⟨digest, hdigest⟩ := verifyKeyHash_eq_ok backend linkKey.key
        dsimp only
        rw [hdigest]
        by_cases heq : digest = hash
        · have hconfirmed := Verified.confirmed hpending hkey (heq ▸ hdigest)
          rw [hentry] at hconfirmed
          exact ⟨some true, _, if_pos heq, hconfirmed⟩
        · exact ⟨some false, security, if_neg heq, .refused nofun⟩

theorem issueDeviceKey_eq_ok (backend : CryptoBackend) (security : ApsSecurity) (eui64 : Eui64)
    (freshKey : Key) :
    ∃ key, security.issueDeviceKey backend eui64 freshKey = .ok (key,
      security.setEntry eui64 { security.entry eui64 with pendingKey := some key }) := by
  unfold issueDeviceKey TclkSeed.derive
  cases security.tclkSeed with
  | none => exact ⟨freshKey, rfl⟩
  | some seed =>
    obtain ⟨seedKey, flavor⟩ := seed
    cases flavor with
    | zStack => exact ⟨_, rfl⟩
    | ezsp =>
      obtain ⟨key, hkey⟩ := ezspTclk_eq_ok backend seedKey eui64
      exact ⟨key, by dsimp only; rw [hkey]; rfl⟩

/-- A join leaves the other devices alone. -/
theorem get_beginJoin_of_ne {eui64 other : Eui64} (h : other ≠ eui64) :
    (security.beginJoin eui64).2.devices.get other = security.devices.get other := by
  unfold beginJoin
  split
  · rfl
  · dsimp only
    split
    · split
      · rw [get_setEntry, if_neg h]
      · rw [get_pruneIfEmpty_of_ne h, get_setEntry, if_neg h]
    · rw [get_setEntry, if_neg h]

/-- A join does not forget the counter of the device. -/
theorem incomingFrameCounter_beginJoin (eui64 other : Eui64) :
    (security.beginJoin eui64).2.incomingFrameCounter other =
      security.incomingFrameCounter other := by
  by_cases h : other = eui64
  · subst h
    unfold beginJoin
    split
    · rfl
    next entry hentry =>
      have hcounter : security.incomingFrameCounter other = entry.incomingFrameCounter := by
        rw [incomingFrameCounter, hentry]
        rfl
      dsimp only
      split
      · split
        · rw [incomingFrameCounter_setEntry, if_pos rfl, hcounter]
        · rw [incomingFrameCounter, bind_get_pruneIfEmpty rfl, ← incomingFrameCounter,
            incomingFrameCounter_setEntry, if_pos rfl, hcounter]
      · rw [incomingFrameCounter_setEntry, if_pos rfl, hcounter]
  · rw [incomingFrameCounter, get_beginJoin_of_ne h]
    rfl

theorem globalLinkKey_beginJoin (eui64 : Eui64) :
    (security.beginJoin eui64).2.globalLinkKey = security.globalLinkKey ∧
      (security.beginJoin eui64).2.tclkSeed = security.tclkSeed := by
  unfold beginJoin
  split
  · exact ⟨rfl, rfl⟩
  · dsimp only
    split
    · split
      · exact ⟨rfl, rfl⟩
      · exact globalLinkKey_pruneIfEmpty eui64
    · exact ⟨rfl, rfl⟩

/-! ## Outgoing frames -/

/-- Securing a frame uses up a counter and changes nothing else. -/
def Advanced (security security' : ApsSecurity) : Prop :=
  ∃ counter, security' = { security with outgoingFrameCounter := counter }

/-- A frame that was secured has the next counter, which is the one to go on from.  Without a
frame nothing was done. -/
def Secures (security : ApsSecurity) : Option UInt32 → ApsSecurity → Prop
  | none, security' => security' = security
  | some counter, security' => counter.toNat = security.outgoingFrameCounter.toNat + 1 ∧
      security' = { security with outgoingFrameCounter := counter }

theorem Secures.advanced {counter : Option UInt32} {security' : ApsSecurity}
    (h : Secures security counter security') : Advanced security security' := by
  cases counter with
  | none =>
    cases h
    exact ⟨_, rfl⟩
  | some counter => exact ⟨counter, h.2⟩

/-- What becomes of the outgoing counter: the frame that is secured has the next one, and without
a frame it does not fall. -/
def Counts (before : UInt32) : Option UInt32 → UInt32 → Prop
  | some counter, after => counter.toNat = before.toNat + 1 ∧ after = counter
  | none, after => before.toNat ≤ after.toNat

theorem Secures.counts {counter : Option UInt32} {security' : ApsSecurity}
    (h : Secures security counter security') :
    Counts security.outgoingFrameCounter counter security'.outgoingFrameCounter := by
  cases counter with
  | none =>
    cases h
    exact Nat.le_refl _
  | some counter =>
    obtain ⟨hnext, rfl⟩ := h
    exact ⟨hnext, rfl⟩

theorem nextAuxHeader_secures {keyId : NwkSecurityHeaderKeyId} {auxHeader : ApsAuxHeader}
    {security' : ApsSecurity} (h : security.nextAuxHeader keyId = .ok (auxHeader, security')) :
    Secures security (some auxHeader.frameCounter) security' := by
  obtain ⟨⟨counter, advanced⟩, hnext, h⟩ := Checked.bind_eq_ok.mp h
  obtain ⟨_, hroom, hnext⟩ := Checked.bind_eq_ok.mp hnext
  cases hnext
  cases h
  refine ⟨?_, rfl⟩
  have hlt := Checked.of_ensure hroom
  change (security.outgoingFrameCounter + 1).toNat = _
  rw [UInt32.toNat_add]
  exact Nat.mod_eq_of_lt hlt

theorem encryptCommandWithLinkKey_secures {linkKey : Key} {keyId : NwkSecurityHeaderKeyId}
    {command : ApsCommandFrame} {frame : EncryptedApsCommandFrame} {security' : ApsSecurity}
    (h : security.encryptCommandWithLinkKey backend linkKey keyId command =
      .ok (frame, security')) : Secures security (some frame.auxHeader.frameCounter) security' := by
  obtain ⟨selected, -, h⟩ := Checked.bind_eq_ok.mp h
  obtain ⟨key, -, h⟩ := Checked.bind_eq_ok.mp h
  obtain ⟨⟨auxHeader, advanced⟩, hnext, h⟩ := Checked.bind_eq_ok.mp h
  obtain ⟨encrypted, hencrypt, h⟩ := Checked.bind_eq_ok.mp h
  cases h
  have haux := EncryptedApsCommandFrame.auxHeader_encrypt hencrypt
  exact haux ▸ nextAuxHeader_secures hnext

theorem encryptCommand_secures {destination : Eui64} {keyId : NwkSecurityHeaderKeyId}
    {command : ApsCommandFrame} {frame : EncryptedApsCommandFrame} {security' : ApsSecurity}
    (h : security.encryptCommand backend destination keyId command = .ok (frame, security')) :
    Secures security (some frame.auxHeader.frameCounter) security' := by
  obtain ⟨linkKey, -, h⟩ := Checked.bind_eq_ok.mp h
  exact encryptCommandWithLinkKey_secures h

theorem encryptCommandWithAppliedKey_secures {source : Eui64} {applied : AppliedKey}
    {keyId : NwkSecurityHeaderKeyId} {command : ApsCommandFrame}
    {frame : Option EncryptedApsCommandFrame} {security' : ApsSecurity}
    (h : security.encryptCommandWithAppliedKey backend source applied keyId command =
      .ok (frame, security')) :
    Secures security (frame.map (·.auxHeader.frameCounter)) security' := by
  cases applied with
  | network =>
    cases h
    rfl
  | device =>
    obtain ⟨⟨encrypted, advanced⟩, hencrypt, h⟩ := Checked.bind_eq_ok.mp h
    cases h
    exact encryptCommand_secures hencrypt
  | global =>
    obtain ⟨⟨encrypted, advanced⟩, hencrypt, h⟩ := Checked.bind_eq_ok.mp h
    cases h
    exact encryptCommandWithLinkKey_secures hencrypt

theorem encryptData_secures {destination : Eui64} {frame : ApsDataFrame}
    {o : Option EncryptedApsDataFrame} {security' : ApsSecurity}
    (h : security.encryptData backend destination frame = .ok (o, security')) :
    Secures security (o.map (·.auxHeader.frameCounter)) security' := by
  obtain ⟨key, -, h⟩ := Checked.bind_eq_ok.mp h
  cases key with
  | none =>
    cases h
    rfl
  | some key =>
    obtain ⟨⟨auxHeader, advanced⟩, hnext, h⟩ := Checked.bind_eq_ok.mp h
    obtain ⟨encrypted, hencrypt, h⟩ := Checked.bind_eq_ok.mp h
    cases h
    have haux := EncryptedApsDataFrame.auxHeader_encrypt hencrypt
    rw [Option.map_some, haux]
    exact nextAuxHeader_secures hnext

theorem encryptAck_secures {destination : Eui64} {ack : ApsAckFrame}
    {o : Option EncryptedApsAckFrame} {security' : ApsSecurity}
    (h : security.encryptAck backend destination ack = .ok (o, security')) :
    Secures security (o.map (·.auxHeader.frameCounter)) security' := by
  obtain ⟨key, -, h⟩ := Checked.bind_eq_ok.mp h
  cases key with
  | none =>
    cases h
    rfl
  | some key =>
    obtain ⟨⟨auxHeader, advanced⟩, hnext, h⟩ := Checked.bind_eq_ok.mp h
    obtain ⟨encrypted, hencrypt, h⟩ := Checked.bind_eq_ok.mp h
    cases h
    have haux := EncryptedApsAckFrame.auxHeader_encrypt hencrypt
    rw [Option.map_some, haux]
    exact nextAuxHeader_secures hnext

/-- A reply to a frame under the key in use, or under the well-known key, uses the key of
the frame. -/
theorem encryptCommandWithAppliedKey_eq {source : Eui64} {applied : AppliedKey} {linkKey : Key}
    (hlink : security.deviceLinkKey backend source = .ok linkKey)
    (happlied : applied = .device ∨ applied = .global ∧ linkKey = security.globalLinkKey)
    (keyId : NwkSecurityHeaderKeyId) (command : ApsCommandFrame) :
    security.encryptCommandWithAppliedKey backend source applied keyId command =
      (fun reply => (some reply.1, reply.2)) <$>
        security.encryptCommandWithLinkKey backend linkKey keyId command := by
  rcases happlied with rfl | ⟨rfl, rfl⟩
  · rw [encryptCommandWithAppliedKey, encryptCommand, hlink, Checked.ok_bind]
    rfl
  · rfl

/-! ## Runs -/

/-- One call of an operation. -/
inductive Call where
  | decryptCommand (source : Eui64) (frame : EncryptedApsCommandFrame) (networkKey : Key)
  | decryptData (source : Eui64) (frame : EncryptedApsDataFrame) (networkKey : Key)
  | decryptAck (source : Eui64) (frame : EncryptedApsAckFrame) (networkKey : Key)
  | issueDeviceKey (eui64 : Eui64) (freshKey : Key)
  | verifyDeviceKey (eui64 : Eui64) (hash : Bytes)
  | beginJoin (eui64 : Eui64)
  | setProvisionalKey (eui64 : Eui64) (key : Key)
  | encryptCommandWithLinkKey (linkKey : Key) (keyId : NwkSecurityHeaderKeyId)
      (command : ApsCommandFrame)
  | encryptCommand (destination : Eui64) (keyId : NwkSecurityHeaderKeyId)
      (command : ApsCommandFrame)
  | encryptCommandWithAppliedKey (source : Eui64) (applied : AppliedKey)
      (keyId : NwkSecurityHeaderKeyId) (command : ApsCommandFrame)
  | encryptData (destination : Eui64) (frame : ApsDataFrame)
  | encryptAck (destination : Eui64) (ack : ApsAckFrame)
  | restoreDeviceKey (eui64 : Eui64) (key : Key)
  | restoreIncomingFrameCounter (eui64 : Eui64) (counter : UInt32)
  | restoreOutgoingFrameCounter (counter : UInt32)

/-- What a call returns. -/
inductive Return where
  | command (o : Option (ApsCommandFrame × AppliedKey))
  | data (o : Option (ApsDataFrame × AppliedKey))
  | ack (o : Option (ApsAckFrame × AppliedKey))
  | issued (key : Key)
  | verified (o : Option Bool)
  | joined (o : Option Key)
  | securedCommand (o : Option EncryptedApsCommandFrame)
  | securedData (o : Option EncryptedApsDataFrame)
  | securedAck (o : Option EncryptedApsAckFrame)
  | done

/-- The frame counter of the frame that a call secured. -/
def Return.frameCounter : Return → Option UInt32
  | .securedCommand frame => frame.map (·.auxHeader.frameCounter)
  | .securedData frame => frame.map (·.auxHeader.frameCounter)
  | .securedAck frame => frame.map (·.auxHeader.frameCounter)
  | _ => none

section

variable (backend)

def call (security : ApsSecurity) : Call → Checked (Return × ApsSecurity)
  | .decryptCommand source frame networkKey =>
    Prod.map .command id <$> security.decryptCommand backend source frame networkKey
  | .decryptData source frame networkKey =>
    Prod.map .data id <$> security.decryptData backend source frame networkKey
  | .decryptAck source frame networkKey =>
    Prod.map .ack id <$> security.decryptAck backend source frame networkKey
  | .issueDeviceKey eui64 freshKey =>
    Prod.map .issued id <$> security.issueDeviceKey backend eui64 freshKey
  | .verifyDeviceKey eui64 hash =>
    Prod.map .verified id <$> security.verifyDeviceKey backend eui64 hash
  | .beginJoin eui64 => .ok (Prod.map .joined id (security.beginJoin eui64))
  | .setProvisionalKey eui64 key => .ok (.done, security.setProvisionalKey eui64 key)
  | .encryptCommandWithLinkKey linkKey keyId command =>
    Prod.map (.securedCommand ∘ some) id <$>
      security.encryptCommandWithLinkKey backend linkKey keyId command
  | .encryptCommand destination keyId command =>
    Prod.map (.securedCommand ∘ some) id <$>
      security.encryptCommand backend destination keyId command
  | .encryptCommandWithAppliedKey source applied keyId command =>
    Prod.map .securedCommand id <$>
      security.encryptCommandWithAppliedKey backend source applied keyId command
  | .encryptData destination frame =>
    Prod.map .securedData id <$> security.encryptData backend destination frame
  | .encryptAck destination ack =>
    Prod.map .securedAck id <$> security.encryptAck backend destination ack
  | .restoreDeviceKey eui64 key => .ok (.done, security.restoreDeviceKey eui64 key)
  | .restoreIncomingFrameCounter eui64 counter =>
    .ok (.done, security.restoreIncomingFrameCounter eui64 counter)
  | .restoreOutgoingFrameCounter counter =>
    .ok (.done, security.restoreOutgoingFrameCounter counter)

/-- Calls in any order, of any devices. -/
inductive Run : ApsSecurity → List (Call × Return) → ApsSecurity → Prop where
  | nil {security : ApsSecurity} : Run security [] security
  | cons {security security' security'' : ApsSecurity} {c : Call} {r : Return}
      {calls : List (Call × Return)} (hcall : security.call backend c = .ok (r, security'))
      (rest : Run security' calls security'') : Run security ((c, r) :: calls) security''

end

/-- The source and the counter of the frame that a call decrypts. -/
def Call.inbound : Call → Option (Eui64 × UInt32)
  | .decryptCommand source frame _ => some (source, frame.auxHeader.frameCounter)
  | .decryptData source frame _ => some (source, frame.auxHeader.frameCounter)
  | .decryptAck source frame _ => some (source, frame.auxHeader.frameCounter)
  | _ => none

/-- The key that was applied to a frame that a call decrypted. -/
def Return.applied : Return → Option AppliedKey
  | .command o => o.map Prod.snd
  | .data o => o.map Prod.snd
  | .ack o => o.map Prod.snd
  | _ => none

/-- What a call does. -/
inductive Effect (backend : CryptoBackend) (security : ApsSecurity) :
    Call → Return → ApsSecurity → Prop where
  | decrypted {c : Call} {r : Return} {source : Eui64} {counter : UInt32}
      {security' : ApsSecurity} (hinbound : c.inbound = some (source, counter))
      (hframe : r.frameCounter = none) (h : Decrypted security source counter r.applied security') :
      Effect backend security c r security'
  | secured {c : Call} {r : Return} {security' : ApsSecurity} (hinbound : c.inbound = none)
      (hcounts : Counts security.outgoingFrameCounter r.frameCounter
        security'.outgoingFrameCounter)
      (h : Advanced security security') : Effect backend security c r security'
  | issued {eui64 : Eui64} {freshKey key : Key} :
      Effect backend security (.issueDeviceKey eui64 freshKey) (.issued key)
        (security.setEntry eui64 { security.entry eui64 with pendingKey := some key })
  | verified {eui64 : Eui64} {hash : Bytes} {o : Option Bool} {security' : ApsSecurity}
      (h : Verified backend security eui64 hash o security') :
      Effect backend security (.verifyDeviceKey eui64 hash) (.verified o) security'
  | joined {eui64 : Eui64} : Effect backend security (.beginJoin eui64)
      (.joined (security.beginJoin eui64).1) (security.beginJoin eui64).2
  | provisioned {eui64 : Eui64} {key : Key} :
      Effect backend security (.setProvisionalKey eui64 key) .done
        (security.setProvisionalKey eui64 key)
  | restoredKey {eui64 : Eui64} {key : Key} :
      Effect backend security (.restoreDeviceKey eui64 key) .done
        (security.restoreDeviceKey eui64 key)
  | restoredCounter {eui64 : Eui64} {counter : UInt32} :
      Effect backend security (.restoreIncomingFrameCounter eui64 counter) .done
        (security.restoreIncomingFrameCounter eui64 counter)

theorem Secures.effect {c : Call} {r : Return} {security' : ApsSecurity}
    (h : Secures security r.frameCounter security') (hinbound : c.inbound = none) :
    Effect backend security c r security' :=
  .secured hinbound h.counts h.advanced

/-- A call that decrypts a frame returns. -/
theorem call_inbound (backend : CryptoBackend) (security : ApsSecurity) {c : Call} {source : Eui64}
    {counter : UInt32} (hinbound : c.inbound = some (source, counter)) :
    ∃ r security', security.call backend c = .ok (r, security') ∧ r.frameCounter = none ∧
      Decrypted security source counter r.applied security' := by
  cases c with
  | decryptCommand source frame networkKey =>
    cases hinbound
    obtain ⟨o, security', heq, h⟩ := decryptFrame_eq_ok backend security
      (fun key => (frame.decrypt_returns key).toOption.imp fun _ => And.left) source
      frame.auxHeader networkKey
    exact ⟨.command o, security', by rw [call, decryptCommand, heq]; rfl, rfl, h⟩
  | decryptData source frame networkKey =>
    cases hinbound
    obtain ⟨o, security', heq, h⟩ := decryptFrame_eq_ok backend security
      (fun key => (frame.decrypt_returns key source).toOption.imp fun _ => And.left) source
      frame.auxHeader networkKey
    exact ⟨.data o, security', by rw [call, decryptData, heq]; rfl, rfl, h⟩
  | decryptAck source frame networkKey =>
    cases hinbound
    obtain ⟨o, security', heq, h⟩ := decryptFrame_eq_ok backend security
      (fun key => (frame.decrypt_returns key source).toOption.imp fun _ => And.left) source
      frame.auxHeader networkKey
    exact ⟨.ack o, security', by rw [call, decryptAck, heq]; rfl, rfl, h⟩
  | _ => cases hinbound

theorem call_effect {c : Call} {r : Return} {security' : ApsSecurity}
    (hcall : security.call backend c = .ok (r, security')) :
    Effect backend security c r security' := by
  cases hinbound : c.inbound with
  | some inbound =>
    obtain ⟨_, _, heq, hframe, h⟩ := call_inbound backend security hinbound
    cases hcall.symm.trans heq
    exact .decrypted hinbound hframe h
  | none =>
    cases c with
    | decryptCommand | decryptData | decryptAck => cases hinbound
    | issueDeviceKey eui64 freshKey =>
      obtain ⟨key, hkey⟩ := issueDeviceKey_eq_ok backend security eui64 freshKey
      rw [call, hkey] at hcall
      cases hcall
      exact .issued
    | verifyDeviceKey eui64 hash =>
      obtain ⟨o, security', heq, h⟩ := verifyDeviceKey_eq_ok backend security eui64 hash
      rw [call, heq] at hcall
      cases hcall
      exact .verified h
    | beginJoin eui64 =>
      cases hcall
      exact .joined
    | setProvisionalKey eui64 key =>
      cases hcall
      exact .provisioned
    | encryptCommandWithLinkKey linkKey keyId command =>
      obtain ⟨⟨frame, _⟩, heq, h⟩ := Checked.map_eq_ok.mp hcall
      cases h
      exact (encryptCommandWithLinkKey_secures heq).effect rfl
    | encryptCommand destination keyId command =>
      obtain ⟨⟨frame, _⟩, heq, h⟩ := Checked.map_eq_ok.mp hcall
      cases h
      exact (encryptCommand_secures heq).effect rfl
    | encryptCommandWithAppliedKey source applied keyId command =>
      obtain ⟨⟨frame, _⟩, heq, h⟩ := Checked.map_eq_ok.mp hcall
      cases h
      exact (encryptCommandWithAppliedKey_secures heq).effect rfl
    | encryptData destination frame =>
      obtain ⟨⟨o, _⟩, heq, h⟩ := Checked.map_eq_ok.mp hcall
      cases h
      exact (encryptData_secures heq).effect rfl
    | encryptAck destination ack =>
      obtain ⟨⟨o, _⟩, heq, h⟩ := Checked.map_eq_ok.mp hcall
      cases h
      exact (encryptAck_secures heq).effect rfl
    | restoreDeviceKey eui64 key =>
      cases hcall
      exact .restoredKey
    | restoreIncomingFrameCounter eui64 counter =>
      cases hcall
      exact .restoredCounter
    | restoreOutgoingFrameCounter counter =>
      cases hcall
      refine .secured rfl ?_ ⟨_, rfl⟩
      change _ ≤ (if _ ≤ _ then _ else _ : UInt32).toNat
      split
      next hle => exact hle
      next => exact Nat.le_refl _

section Views

variable {c : Call} {r : Return} {security' : ApsSecurity}

/-- Changing the keys of an entry keeps its counter. -/
theorem incomingFrameCounter_setEntry_keys (eui64 other : Eui64) (key : Option DeviceLinkKey)
    (pending : Option Key) :
    (security.setEntry eui64
      { security.entry eui64 with key := key, pendingKey := pending }).incomingFrameCounter other =
      security.incomingFrameCounter other := by
  rw [incomingFrameCounter_setEntry]
  split
  next h => rw [h, ← entry_incomingFrameCounter]
  next => rfl

/-- A call that neither decrypts nor restores a counter keeps the counters. -/
theorem Effect.incomingFrameCounter (h : Effect backend security c r security')
    (hinbound : c.inbound = none)
    (hrestore : ∀ eui64 counter, c ≠ .restoreIncomingFrameCounter eui64 counter) (eui64 : Eui64) :
    security'.incomingFrameCounter eui64 = security.incomingFrameCounter eui64 := by
  cases h with
  | decrypted hinbound' => cases hinbound'.symm.trans hinbound
  | secured _ _ h =>
    obtain ⟨_, rfl⟩ := h
    rfl
  | verified h =>
    cases h with
    | refused => rfl
    | promoted | confirmed => exact incomingFrameCounter_setEntry_keys ..
  | joined => exact incomingFrameCounter_beginJoin ..
  | issued | provisioned | restoredKey => exact incomingFrameCounter_setEntry_keys ..
  | restoredCounter => exact absurd rfl (hrestore _ _)

theorem Effect.config (h : Effect backend security c r security') :
    security'.globalLinkKey = security.globalLinkKey ∧
      security'.tclkSeed = security.tclkSeed := by
  cases h with
  | decrypted _ _ h => exact h.config
  | secured _ _ h =>
    obtain ⟨_, rfl⟩ := h
    exact ⟨rfl, rfl⟩
  | verified h => cases h <;> exact ⟨rfl, rfl⟩
  | joined => exact globalLinkKey_beginJoin _
  | issued | provisioned | restoredKey | restoredCounter => exact ⟨rfl, rfl⟩

/-- The calls that are meant to change the key shared with a device. -/
def Rekeys (eui64 : Eui64) : Call → Return → Prop
  | .verifyDeviceKey device _, .verified (some true) => device = eui64
  | .beginJoin device, _ => device = eui64
  | .setProvisionalKey device _, _ => device = eui64
  | .restoreDeviceKey device _, _ => device = eui64
  | _, _ => False

/-- Every other call keeps the key in use. -/
theorem Effect.deviceKey (h : Effect backend security c r security') {eui64 : Eui64}
    (hkeep : ¬ Rekeys eui64 c r) : security'.deviceKey eui64 = security.deviceKey eui64 := by
  cases h with
  | decrypted _ _ h => exact h.deviceKey eui64
  | secured _ _ h =>
    obtain ⟨_, rfl⟩ := h
    rfl
  | verified h =>
    cases h with
    | refused => rfl
    | promoted | confirmed => rw [deviceKey_setEntry, if_neg (Ne.symm hkeep)]
  | joined =>
    rw [ApsSecurity.deviceKey, get_beginJoin_of_ne (Ne.symm hkeep)]
    rfl
  | provisioned | restoredKey =>
    exact (deviceKey_setEntry ..).trans (if_neg (Ne.symm hkeep))
  | issued | restoredCounter =>
    refine (deviceKey_setEntry ..).trans ?_
    split
    next h => rw [h, ← entry_key]
    next => rfl

/-- So the key shared with a device changes only at those calls. -/
theorem Effect.deviceLinkKey (h : Effect backend security c r security') {eui64 : Eui64}
    (hkeep : ¬ Rekeys eui64 c r) :
    security'.deviceLinkKey backend eui64 = security.deviceLinkKey backend eui64 :=
  deviceLinkKey_congr h.config.1 h.config.2 (h.deviceKey hkeep)

end Views

/-! ## Replays -/

/-- The least counter that a frame of a device may have under its own key. -/
def floor (security : ApsSecurity) (eui64 : Eui64) : Nat :=
  (security.incomingFrameCounter eui64).elim 0 UInt32.toNat

/-- The counter of a frame that a call accepted under the key of its source. -/
def accepted (event : Call × Return) : List (Eui64 × Nat) :=
  match event.1.inbound with
  | some (source, counter) =>
    if event.2.applied = some .device then [(source, counter.toNat)] else []
  | none => []

/-- Decryption takes a frame at the floor of its source or above, and raises it past the
frame. -/
theorem Decrypted.guarded {c : Call} {r : Return} {source : Eui64} {counter : UInt32}
    {security' : ApsSecurity} (hinbound : c.inbound = some (source, counter))
    (h : Decrypted security source counter r.applied security') :
    Guarded security.floor (accepted (c, r)) security'.floor := by
  have haccepted : accepted (c, r) =
      if r.applied = some .device then [(source, counter.toNat)] else [] := by
    rw [accepted, hinbound]
  rw [haccepted]
  generalize r.applied = applied at h
  cases h with
  | untouched other =>
    rw [if_neg other]
    exact .idle fun _ => le_refl _
  | taken room fresh =>
    have hnext : (counter + 1).toNat = counter.toNat + 1 := by
      rw [UInt32.toNat_add]
      exact Nat.mod_eq_of_lt room
    have habove : security.floor source ≤ counter.toNat := by
      unfold floor
      cases hmin : security.incomingFrameCounter source with
      | none => exact Nat.zero_le _
      | some minimum => exact fresh minimum hmin
    have hfloor (other : Eui64) : (security.setEntry source { security.entry source with
        incomingFrameCounter := some (counter + 1) }).floor other =
          if other = source then counter.toNat + 1 else security.floor other := by
      unfold floor
      rw [incomingFrameCounter_setEntry]
      split
      · exact hnext
      · rfl
    rw [if_pos rfl]
    refine .take (fun other => ?_) habove ?_
    · rw [hfloor]
      split
      next h => rw [h]; omega
      next => exact le_refl _
    · rw [hfloor, if_pos rfl]
      exact Nat.lt_succ_self _

theorem Effect.guarded {c : Call} {r : Return} {security' : ApsSecurity}
    (h : Effect backend security c r security')
    (hrestore : ∀ eui64 counter, c ≠ .restoreIncomingFrameCounter eui64 counter) :
    Guarded security.floor (accepted (c, r)) security'.floor := by
  cases hinbound : c.inbound with
  | none =>
    have hfloor : security'.floor = security.floor := by
      funext eui64
      rw [floor, floor, h.incomingFrameCounter hinbound hrestore]
    rw [accepted, hinbound, hfloor]
    exact .idle fun _ => le_refl _
  | some inbound =>
    cases h with
    | decrypted hinbound' _ h => exact h.guarded hinbound'
    | secured hinbound' => cases hinbound'.symm.trans hinbound
    | _ => cases hinbound

theorem Run.guarded {calls : List (Call × Return)} {security' : ApsSecurity}
    (h : Run backend security calls security')
    (hrestore : ∀ c ∈ calls, ∀ eui64 counter, c.1 ≠ .restoreIncomingFrameCounter eui64 counter) :
    Guarded security.floor (calls.flatMap accepted) security'.floor := by
  induction h with
  | nil => exact .idle fun _ => le_refl _
  | cons hcall _ ih =>
    rw [List.forall_mem_cons] at hrestore
    rw [List.flatMap_cons]
    exact ((call_effect hcall).guarded hrestore.1).trans (ih hrestore.2)

/-- From any state and for any calls but a restore of a counter, the counters accepted
from a device under its own key are strictly increasing, whatever happens to the key
meanwhile.  Each decryption returns; one that rejects its frame changes nothing, and none
changes the entry of another device. -/
theorem aps_replay_protection (backend : CryptoBackend) :
    (∀ security calls security', Run backend security calls security' →
      (∀ c ∈ calls, ∀ eui64 counter, c.1 ≠ .restoreIncomingFrameCounter eui64 counter) →
      ∀ source, (countersOf source (calls.flatMap accepted)).Pairwise (· < ·)) ∧
    ∀ (security : ApsSecurity) (c : Call) source counter, c.inbound = some (source, counter) →
      ∃ r security', security.call backend c = .ok (r, security') ∧
        (r.applied = none → security' = security) ∧
        ∀ other ≠ source, security'.devices.get other = security.devices.get other := by
  refine ⟨fun security calls security' hrun hrestore => (hrun.guarded hrestore).increasing,
    fun security c source counter hinbound => ?_⟩
  obtain ⟨r, security', hcall, -, h⟩ := call_inbound backend security hinbound
  refine ⟨r, security', hcall, fun hnone => ?_, fun other hne => h.get_of_ne hne⟩
  rw [hnone] at h
  cases h
  rfl

/-! ## The key exchange -/

theorem Run.deviceLinkKey {calls : List (Call × Return)} {security' : ApsSecurity}
    (h : Run backend security calls security') {eui64 : Eui64}
    (hkeep : ∀ c ∈ calls, ¬ Rekeys eui64 c.1 c.2) :
    security'.deviceLinkKey backend eui64 = security.deviceLinkKey backend eui64 := by
  induction h with
  | nil => rfl
  | cons hcall _ ih =>
    rw [List.forall_mem_cons] at hkeep
    rw [ih hkeep.2, (call_effect hcall).deviceLinkKey hkeep.1]

/-- The call that decrypts a frame that `source` secured with `key` under this auxiliary
header, and what it returns if the frame is accepted. -/
inductive Carries (backend : CryptoBackend) (source : Eui64) (key : Key)
    (auxHeader : ApsAuxHeader) (networkKey : Key) : Call → (AppliedKey → Return) → Prop where
  | command {frame : ApsCommandFrame} {encrypted : EncryptedApsCommandFrame}
      (hwf : frame.command.WellFormed)
      (h : frame.encrypt backend key auxHeader = .ok encrypted) :
      Carries backend source key auxHeader networkKey
        (.decryptCommand source encrypted networkKey)
        (fun applied => .command (some (frame, applied)))
  | data {frame : ApsDataFrame} {encrypted : EncryptedApsDataFrame}
      (h : frame.encrypt backend key auxHeader = .ok encrypted) :
      Carries backend source key auxHeader networkKey
        (.decryptData source encrypted networkKey) (fun applied => .data (some (frame, applied)))
  | ack {frame : ApsAckFrame} {encrypted : EncryptedApsAckFrame}
      (h : frame.encrypt backend key auxHeader = .ok encrypted) :
      Carries backend source key auxHeader networkKey
        (.decryptAck source encrypted networkKey) (fun applied => .ack (some (frame, applied)))

/-- A fresh frame under the key shared with its source is delivered. -/
theorem call_of_carries (inverts : backend.Inverts) {source : Eui64} {linkKey key networkKey : Key}
    {auxHeader : ApsAuxHeader} {c : Call} {delivered : AppliedKey → Return}
    (hlink : security.deviceLinkKey backend source = .ok linkKey)
    (hkey : selectKey backend linkKey auxHeader.securityControl.keyId = .ok (some key))
    (hmax : auxHeader.frameCounter.toNat ≠ 2 ^ 32 - 1)
    (hfloor : security.floor source ≤ auxHeader.frameCounter.toNat)
    (h : Carries backend source key auxHeader networkKey c delivered) :
    ∃ applied security', security.call backend c = .ok (delivered applied, security') ∧
      Decrypted security source auxHeader.frameCounter (some applied) security' ∧
      (applied = .device ∨ applied = .global ∧ linkKey = security.globalLinkKey) := by
  have hfresh (minimum : UInt32) (hmin : security.incomingFrameCounter source = some minimum) :
      minimum.toNat ≤ auxHeader.frameCounter.toNat := by
    rw [floor, hmin] at hfloor
    exact hfloor
  cases h with
  | @command frame encrypted hwf h =>
    have haux : encrypted.auxHeader = auxHeader := EncryptedApsCommandFrame.auxHeader_encrypt h
    subst haux
    obtain ⟨applied, security', heq, hdecrypted⟩ := decryptFrame_of_linkKey
      (fun key => (encrypted.decrypt backend key).toOption) networkKey hmax hfresh hlink hkey
      (by rw [EncryptedApsCommandFrame.decrypt_encrypt inverts hwf h, Parse.toOption_pure])
    exact ⟨applied, security', by rw [call, decryptCommand, heq]; rfl, hdecrypted⟩
  | @data frame encrypted h =>
    have haux : encrypted.auxHeader = auxHeader := EncryptedApsDataFrame.auxHeader_encrypt h
    subst haux
    obtain ⟨applied, security', heq, hdecrypted⟩ := decryptFrame_of_linkKey
      (fun key => (encrypted.decrypt backend key source).toOption) networkKey hmax hfresh hlink hkey
      (by rw [EncryptedApsDataFrame.decrypt_encrypt inverts h, Parse.toOption_pure])
    exact ⟨applied, security', by rw [call, decryptData, heq]; rfl, hdecrypted⟩
  | @ack frame encrypted h =>
    have haux : encrypted.auxHeader = auxHeader := EncryptedApsAckFrame.auxHeader_encrypt h
    subst haux
    obtain ⟨applied, security', heq, hdecrypted⟩ := decryptFrame_of_linkKey
      (fun key => (encrypted.decrypt backend key source).toOption) networkKey hmax hfresh hlink hkey
      (by rw [EncryptedApsAckFrame.decrypt_encrypt inverts h, Parse.toOption_pure])
    exact ⟨applied, security', by rw [call, decryptAck, heq]; rfl, hdecrypted⟩

/-- A verification that succeeds leaves the device with the key that was verified. -/
theorem Verified.deviceKey {eui64 : Eui64} {hash : Bytes} {security' : ApsSecurity}
    (h : Verified backend security eui64 hash (some true) security') :
    ∃ key, security'.deviceKey eui64 = some ⟨key, .verified⟩ ∧
      security'.pendingKey eui64 = none ∧ verifyKeyHash backend key = .ok hash := by
  cases h with
  | refused other => exact absurd rfl other
  | @promoted pending hpending hhash =>
    refine ⟨pending, ?_, ?_, hhash⟩
    · rw [deviceKey_setEntry, if_pos rfl]
    · rw [pendingKey_setEntry, if_pos rfl]
  | @confirmed linkKey hpending hkey hhash =>
    refine ⟨linkKey.key, ?_, ?_, hhash⟩
    · rw [deviceKey_setEntry, if_pos rfl]
    · rw [pendingKey_setEntry, if_pos rfl, entry_pendingKey, hpending]

theorem Run.globalLinkKey {calls : List (Call × Return)} {security' : ApsSecurity}
    (h : Run backend security calls security') :
    security'.globalLinkKey = security.globalLinkKey := by
  induction h with
  | nil => rfl
  | cons hcall _ ih => rw [ih, (call_effect hcall).config.1]

/-- The two sides agree on the link key, whatever the order of the calls and the devices
they are about:

* the key shared with a device changes only at the calls that `Rekeys` lists;
* after a verification that succeeds it is the key that was verified, and no key is
  pending;
* any other verification changes nothing;
* while a key is issued and not yet verified, a fresh frame under the key in use before is
  delivered, and a reply to it uses that key. -/
theorem link_key_agreement (inverts : backend.Inverts) :
    (∀ (security : ApsSecurity) c r security', security.call backend c = .ok (r, security') →
      ∀ eui64, ¬ Rekeys eui64 c r →
        security'.deviceLinkKey backend eui64 = security.deviceLinkKey backend eui64) ∧
    (∀ (security : ApsSecurity) eui64 hash security',
      security.verifyDeviceKey backend eui64 hash = .ok (some true, security') →
      ∃ key, security'.deviceLinkKey backend eui64 = .ok key ∧
        security'.deviceKey eui64 = some ⟨key, .verified⟩ ∧
        security'.pendingKey eui64 = none ∧ verifyKeyHash backend key = .ok hash ∧
        (Function.Injective (verifyKeyHash backend) →
          ∀ other, verifyKeyHash backend other = .ok hash → other = key)) ∧
    (∀ (security : ApsSecurity) eui64 hash o security',
      security.verifyDeviceKey backend eui64 hash = .ok (o, security') → o ≠ some true →
        security' = security) ∧
    (∀ (security : ApsSecurity) eui64 freshKey issued issuing calls security' linkKey,
      security.issueDeviceKey backend eui64 freshKey = .ok (issued, issuing) →
      Run backend issuing calls security' → (∀ c ∈ calls, ¬ Rekeys eui64 c.1 c.2) →
      security.deviceLinkKey backend eui64 = .ok linkKey →
      ∀ auxHeader key networkKey c delivered,
        selectKey backend linkKey auxHeader.securityControl.keyId = .ok (some key) →
        auxHeader.frameCounter.toNat ≠ 2 ^ 32 - 1 →
        security'.floor eui64 ≤ auxHeader.frameCounter.toNat →
        Carries backend eui64 key auxHeader networkKey c delivered →
        ∃ applied taken, security'.call backend c = .ok (delivered applied, taken) ∧
          ∀ later replying, Run backend taken later replying →
            (∀ c ∈ later, ¬ Rekeys eui64 c.1 c.2) → ∀ keyId command,
              replying.encryptCommandWithAppliedKey backend eui64 applied keyId command =
                (fun reply => (some reply.1, reply.2)) <$>
                  replying.encryptCommandWithLinkKey backend linkKey keyId command) := by
  refine ⟨?_, ?_, ?_, ?_⟩
  · intro security c r security' hcall eui64 hkeep
    exact (call_effect hcall).deviceLinkKey hkeep
  · intro security eui64 hash security' hverify
    obtain ⟨o, _, heq, h⟩ := verifyDeviceKey_eq_ok backend security eui64 hash
    cases hverify.symm.trans heq
    obtain ⟨key, hkey, hpending, hhash⟩ := h.deviceKey
    refine ⟨key, by rw [deviceLinkKey, hkey], hkey, hpending, hhash, ?_⟩
    intro hinjective other hother
    exact hinjective (hother.trans hhash.symm)
  · intro security eui64 hash o security' hverify hother
    obtain ⟨o, _, heq, h⟩ := verifyDeviceKey_eq_ok backend security eui64 hash
    cases hverify.symm.trans heq
    cases h with
    | refused => rfl
    | promoted | confirmed => exact absurd rfl hother
  · intro security eui64 freshKey issued issuing calls security' linkKey hissue hrun hkeep hlink
      auxHeader key networkKey c delivered hkey hmax hfloor hcarries
    -- the issue and the calls after it leave the key in use alone
    have hissued : security.call backend (.issueDeviceKey eui64 freshKey) =
        .ok (.issued issued, issuing) := by
      rw [call, hissue]
      rfl
    have hlink' : security'.deviceLinkKey backend eui64 = .ok linkKey := by
      rw [hrun.deviceLinkKey hkeep, (call_effect hissued).deviceLinkKey id, hlink]
    obtain ⟨applied, taken, hcall, hdecrypted, happlied⟩ :=
      call_of_carries inverts hlink' hkey hmax hfloor hcarries
    refine ⟨applied, taken, hcall, ?_⟩
    intro later replying hlater hkeep' keyId command
    have hreply : replying.deviceLinkKey backend eui64 = .ok linkKey := by
      rw [hlater.deviceLinkKey hkeep', deviceLinkKey_congr hdecrypted.config.1
        hdecrypted.config.2 (hdecrypted.deviceKey eui64), hlink']
    refine encryptCommandWithAppliedKey_eq hreply ?_ keyId command
    rwa [hlater.globalLinkKey, hdecrypted.config.1]

namespace Exchange

/-- A device that holds the key 5. -/
def keyed : ApsSecurity := (new 1 2 none).restoreDeviceKey 7 5

/-- The device was issued the key 6. -/
def issuing : ApsSecurity := keyed.setEntry 7 { keyed.entry 7 with pendingKey := some 6 }

def auxHeader : ApsAuxHeader where
  securityControl :=
    { securityLevel := .noSecurity, keyId := .dataKey, extendedNonce := true,
      requireVerifiedFrameCounter := false }
  frameCounter := 9
  extendedSource := some 7
  keySequenceNumber := none

/-- A report that the device sends. -/
def report : ApsDataFrame where
  frameControl :=
    { frameType := .data, deliveryMode := .unicast, reserved1 := 0, security := true,
      ackRequest := false, extendedHeader := false }
  groupId := none
  destinationEndpoint := some 1
  clusterId := 6
  profileId := 0x0104
  sourceEndpoint := 1
  counter := 33
  asdu := ⟨[0x18, 0x01, 0x0A], by decide⟩

end Exchange

open Exchange in
/-- The device reports under its old key while the new one is pending. -/
theorem link_key_agreement_report : ∃ encrypted applied taken,
    report.encrypt SoftwareBackend 5 auxHeader = .ok encrypted ∧
    issuing.call SoftwareBackend (.decryptData 7 encrypted 3) =
      .ok (.data (some (report, applied)), taken) := by
  obtain ⟨encrypted, hencrypted, -⟩ : ∃ encrypted,
      report.encrypt SoftwareBackend 5 auxHeader = .ok encrypted ∧ _ :=
    ApsDataFrame.encrypt_eq_ok rfl (by decide)
  obtain ⟨applied, taken, hcall, -⟩ := (link_key_agreement SoftwareBackend.inverts).2.2.2
    keyed 7 6 6 issuing [] issuing 5 rfl .nil (List.forall_mem_nil _) rfl auxHeader 5 3
    (.decryptData 7 encrypted 3) (fun applied => .data (some (report, applied))) rfl (by decide)
    (by decide) (.data hencrypted)
  exact ⟨encrypted, applied, taken, hencrypted, hcall⟩

end ApsSecurity

end Ziggurat
