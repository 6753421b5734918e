import Ziggurat.Aps.KeyExchange

/-!
# The key table across a restart

`key_entries` hands the link keys to the client as flat records, and `apply_key_table`
loads such records into a fresh stack.  A record has no room for the attributes of a key,
and writes an absent counter as zero; the load takes every key for a verified one, and
restores no counter of zero.

`Indistinct` says that two states answer every query about a device alike, and `Survives`
that they still do after the device joins.  A key comes through a restart in this sense
unless it is provisional: the join that was to keep it then drops it.
-/

namespace Ziggurat

/-- One record of the key table on the wire. -/
structure KeyEntry where
  key : Key
  txCounter : UInt32
  rxCounter : UInt32
  seq : UInt8
  partnerIeee : Eui64
  deriving DecidableEq, Repr

namespace ApsSecurity

/-- `device_keys`. -/
def deviceKeys (security : ApsSecurity) : List (Eui64 × DeviceLinkKey) :=
  security.devices.answers DeviceState.key

/-- `key_entries`: the records that the client persists. -/
def keyEntries (security : ApsSecurity) : List KeyEntry :=
  security.deviceKeys.map fun (partner, entry) =>
    { key := entry.key
      txCounter := security.outgoingFrameCounter
      rxCounter := (security.incomingFrameCounter partner).getD 0
      seq := 0
      partnerIeee := partner }

/-- One round of the loop of `apply_key_table`. -/
def applyKeyEntry (security : ApsSecurity) (entry : KeyEntry) : ApsSecurity :=
  let security := security.restoreDeviceKey entry.partnerIeee entry.key
  if entry.rxCounter ≠ 0 then
    security.restoreIncomingFrameCounter entry.partnerIeee entry.rxCounter
  else security

/-- `apply_key_table`: load persisted records. -/
def applyKeyTable (security : ApsSecurity) (entries : List KeyEntry) : ApsSecurity :=
  entries.foldl applyKeyEntry security

/-- A fresh stack of the same configuration, with the key table loaded. -/
def restarted (security : ApsSecurity) : ApsSecurity :=
  (ApsSecurity.new security.globalLinkKey security.localEui64 security.tclkSeed).applyKeyTable
    security.keyEntries

variable {backend : CryptoBackend} {security security' : ApsSecurity} {eui64 : Eui64}

/-! ## What a load leaves on record -/

theorem get_applyKeyEntry_of_ne {entry : KeyEntry} (h : eui64 ≠ entry.partnerIeee) :
    (security.applyKeyEntry entry).devices.get eui64 = security.devices.get eui64 := by
  unfold applyKeyEntry restoreIncomingFrameCounter restoreDeviceKey
  dsimp only
  split
  · rw [get_setEntry, if_neg h, get_setEntry, if_neg h]
  · rw [get_setEntry, if_neg h]

/-- Loading the record of a device that is not on record yet. -/
theorem get_applyKeyEntry {entry : KeyEntry}
    (h : security.devices.get entry.partnerIeee = none) :
    (security.applyKeyEntry entry).devices.get entry.partnerIeee =
      some { key := some ⟨entry.key, .verified⟩
             incomingFrameCounter :=
               if entry.rxCounter ≠ 0 then some entry.rxCounter else none } := by
  have hentry : security.entry entry.partnerIeee = {} := by
    rw [ApsSecurity.entry, h]
    rfl
  unfold applyKeyEntry restoreIncomingFrameCounter restoreDeviceKey
  dsimp only
  split
  · rw [get_setEntry, if_pos rfl, ApsSecurity.entry, get_setEntry, if_pos rfl, hentry]
    rfl
  · rw [get_setEntry, if_pos rfl, hentry]

theorem get_applyKeyTable_of_notMem (entries : List KeyEntry) :
    ∀ security : ApsSecurity, eui64 ∉ entries.map KeyEntry.partnerIeee →
      (security.applyKeyTable entries).devices.get eui64 = security.devices.get eui64 := by
  induction entries with
  | nil =>
    intro security _
    rfl
  | cons entry entries ih =>
    intro security hmem
    rw [List.map_cons, List.mem_cons, not_or] at hmem
    have hrest := ih (security.applyKeyEntry entry) hmem.2
    exact hrest.trans (get_applyKeyEntry_of_ne hmem.1)

/-- With one record for each device, the record of a device is what the load leaves. -/
theorem get_applyKeyTable {entries : List KeyEntry} {entry : KeyEntry}
    (hnodup : (entries.map KeyEntry.partnerIeee).Nodup) (hmem : entry ∈ entries)
    (hfresh : security.devices.get entry.partnerIeee = none) :
    (security.applyKeyTable entries).devices.get entry.partnerIeee =
      some { key := some ⟨entry.key, .verified⟩
             incomingFrameCounter :=
               if entry.rxCounter ≠ 0 then some entry.rxCounter else none } := by
  obtain ⟨before, after, rfl⟩ := List.append_of_mem hmem
  rw [List.map_append, List.map_cons] at hnodup
  have hbefore : entry.partnerIeee ∉ before.map KeyEntry.partnerIeee := by
    intro h
    exact (List.nodup_append.mp hnodup).2.2 _ h _ List.mem_cons_self rfl
  have hafter : entry.partnerIeee ∉ after.map KeyEntry.partnerIeee :=
    (List.nodup_cons.mp (List.nodup_append.mp hnodup).2.1).1
  have hskip := get_applyKeyTable_of_notMem before security hbefore
  have hload := get_applyKeyEntry (hskip.trans hfresh)
  have hrest := get_applyKeyTable_of_notMem after
    ((security.applyKeyTable before).applyKeyEntry entry) hafter
  rw [applyKeyTable, List.foldl_append, List.foldl_cons]
  exact hrest.trans hload

theorem nodup_keyEntries (security : ApsSecurity) :
    (security.keyEntries.map KeyEntry.partnerIeee).Nodup := by
  have hpartners : security.keyEntries.map KeyEntry.partnerIeee =
      security.deviceKeys.map Prod.fst := by
    rw [keyEntries, List.map_map]
    rfl
  rw [hpartners]
  exact FlatMap.nodup_answers ..

/-- What is on record for a device after a restart: its key, as a verified one, and its
counter unless that is zero. -/
theorem get_restarted {linkKey : DeviceLinkKey} (hkey : security.deviceKey eui64 = some linkKey) :
    security.restarted.devices.get eui64 =
      some { key := some ⟨linkKey.key, .verified⟩
             incomingFrameCounter :=
               if (security.incomingFrameCounter eui64).getD 0 ≠ 0 then
                 some ((security.incomingFrameCounter eui64).getD 0)
               else none } := by
  have hmem : (eui64, linkKey) ∈ security.deviceKeys := FlatMap.mem_answers.mpr hkey
  have hentry : KeyEntry.mk linkKey.key security.outgoingFrameCounter
      ((security.incomingFrameCounter eui64).getD 0) 0 eui64 ∈ security.keyEntries :=
    List.mem_map.mpr ⟨_, hmem, rfl⟩
  exact get_applyKeyTable security.nodup_keyEntries hentry (FlatMap.get_new _)

/-! ## States that answer alike -/

/-- Two states answer every query about a device alike: the keys shared with it, and which
of its frames they take. -/
structure Indistinct (backend : CryptoBackend) (security security' : ApsSecurity)
    (eui64 : Eui64) : Prop where
  deviceLinkKey : security'.deviceLinkKey backend eui64 = security.deviceLinkKey backend eui64
  joinLinkKey : security'.joinLinkKey eui64 = security.joinLinkKey eui64
  hasUniqueLinkKey : security'.hasUniqueLinkKey eui64 = security.hasUniqueLinkKey eui64
  decryptFrame : ∀ {α : Type} (auxHeader : ApsAuxHeader) (networkKey : Key)
    (decrypt : Key → Checked (Option α)),
    Prod.fst <$> security'.decryptFrame backend eui64 auxHeader networkKey decrypt =
      Prod.fst <$> security.decryptFrame backend eui64 auxHeader networkKey decrypt

/-- A device comes through a restart: every query about it is answered alike, before and
after its next join, and the join returns the same key and leaves the same keys. -/
structure Survives (backend : CryptoBackend) (security security' : ApsSecurity)
    (eui64 : Eui64) : Prop where
  indistinct : Indistinct backend security security' eui64
  joined : (security'.beginJoin eui64).1 = (security.beginJoin eui64).1
  deviceKey : (security'.beginJoin eui64).2.deviceKey eui64 =
    (security.beginJoin eui64).2.deviceKey eui64
  pendingKey : (security'.beginJoin eui64).2.pendingKey eui64 =
    (security.beginJoin eui64).2.pendingKey eui64
  indistinctJoined : Indistinct backend (security.beginJoin eui64).2
    (security'.beginJoin eui64).2 eui64

/-- A frame is taken or not by the key on record and by the counters that are too low. -/
theorem decryptFrame_congr {α : Type} {auxHeader : ApsAuxHeader} {networkKey : Key}
    {decrypt : Key → Checked (Option α)}
    (hglobal : security'.globalLinkKey = security.globalLinkKey)
    (hlink : security'.deviceLinkKey backend eui64 = security.deviceLinkKey backend eui64)
    (hcounter : ∀ counter : UInt32, (security'.incomingFrameCounter eui64).any (counter < ·) =
      (security.incomingFrameCounter eui64).any (counter < ·)) :
    Prod.fst <$> security'.decryptFrame backend eui64 auxHeader networkKey decrypt =
      Prod.fst <$> security.decryptFrame backend eui64 auxHeader networkKey decrypt := by
  unfold ApsSecurity.decryptFrame
  dsimp only
  rw [hglobal, hlink, entry_incomingFrameCounter, entry_incomingFrameCounter, hcounter]
  by_cases hmax : auxHeader.frameCounter.toNat = 2 ^ 32 - 1
  · rw [if_pos hmax, if_pos hmax]
    rfl
  rw [if_neg hmax, if_neg hmax]
  by_cases hnetwork : auxHeader.securityControl.keyId = .networkKey
  · rw [if_pos hnetwork, if_pos hnetwork, map_bind, map_bind]
    rfl
  rw [if_neg hnetwork, if_neg hnetwork]
  simp only [map_bind]
  refine bind_congr fun deviceLinkKey => bind_congr fun found => ?_
  cases found with
  | none => rfl
  | some found =>
    -- the state that is left differs, and is not looked at
    dsimp only
    split_ifs
    · rfl
    · rfl
    · simp only [map_bind]
      rfl

/-- Only the key on record counts, not its attributes, and a counter of zero is as good as
none. -/
theorem Indistinct.of_views (hglobal : security'.globalLinkKey = security.globalLinkKey)
    (hseed : security'.tclkSeed = security.tclkSeed)
    (hkey : (security'.deviceKey eui64).map DeviceLinkKey.key =
      (security.deviceKey eui64).map DeviceLinkKey.key)
    (hcounter : (security'.incomingFrameCounter eui64).getD 0 =
      (security.incomingFrameCounter eui64).getD 0) :
    Indistinct backend security security' eui64 := by
  have hlink : security'.deviceLinkKey backend eui64 = security.deviceLinkKey backend eui64 := by
    unfold ApsSecurity.deviceLinkKey unkeyedLinkKey
    rw [hseed, hglobal]
    cases hk : security.deviceKey eui64 <;> cases hk' : security'.deviceKey eui64 <;>
      simp_all
  have hlow (security : ApsSecurity) (counter : UInt32) :
      (security.incomingFrameCounter eui64).any (counter < ·) =
        decide (counter < (security.incomingFrameCounter eui64).getD 0) := by
    cases security.incomingFrameCounter eui64 with
    | none => simp
    | some minimum => rfl
  refine ⟨hlink, ?_, ?_, fun auxHeader networkKey decrypt => ?_⟩
  · unfold ApsSecurity.joinLinkKey
    rw [hglobal]
    cases hk : security.deviceKey eui64 <;> cases hk' : security'.deviceKey eui64 <;>
      simp_all
  · have hsome := congrArg Option.isSome hkey
    rw [Option.isSome_map, Option.isSome_map] at hsome
    rw [ApsSecurity.hasUniqueLinkKey, ApsSecurity.hasUniqueLinkKey, hsome, hseed]
  · refine decryptFrame_congr hglobal hlink fun counter => ?_
    rw [hlow, hlow, hcounter]

/-! ## The next join -/

/-- A provisional key is what the device joins with. -/
theorem beginJoin_of_provisional {linkKey : DeviceLinkKey}
    (hkey : security.deviceKey eui64 = some linkKey) (h : linkKey.attributes = .provisional) :
    (security.beginJoin eui64).1 = some linkKey.key := by
  obtain ⟨entry, hget, hentry⟩ := Option.bind_eq_some_iff.mp hkey
  unfold beginJoin
  rw [hget]
  dsimp only
  rw [hentry]
  dsimp only
  rw [if_pos h]

/-- Any other key is dropped. -/
theorem beginJoin_of_not_provisional {linkKey : DeviceLinkKey}
    (hkey : security.deviceKey eui64 = some linkKey) (h : linkKey.attributes ≠ .provisional) :
    (security.beginJoin eui64).1 = none ∧
      (security.beginJoin eui64).2.deviceKey eui64 = none ∧
      (security.beginJoin eui64).2.pendingKey eui64 = none := by
  obtain ⟨entry, hget, hentry⟩ := Option.bind_eq_some_iff.mp hkey
  unfold beginJoin
  rw [hget]
  dsimp only
  rw [hentry]
  dsimp only
  rw [if_neg h]
  refine ⟨rfl, ?_, ?_⟩
  · rw [ApsSecurity.deviceKey, bind_get_pruneIfEmpty rfl, ← ApsSecurity.deviceKey,
      deviceKey_setEntry, if_pos rfl]
  · rw [ApsSecurity.pendingKey, bind_get_pruneIfEmpty rfl, ← ApsSecurity.pendingKey,
      pendingKey_setEntry, if_pos rfl]

/-! ## The restart -/

/-- The load changes no configuration. -/
theorem config_applyKeyTable (entries : List KeyEntry) :
    ∀ security : ApsSecurity,
      (security.applyKeyTable entries).globalLinkKey = security.globalLinkKey ∧
        (security.applyKeyTable entries).tclkSeed = security.tclkSeed := by
  induction entries with
  | nil =>
    intro security
    exact ⟨rfl, rfl⟩
  | cons entry entries ih =>
    intro security
    have hentry : (security.applyKeyEntry entry).globalLinkKey = security.globalLinkKey ∧
        (security.applyKeyEntry entry).tclkSeed = security.tclkSeed := by
      unfold applyKeyEntry
      dsimp only
      split <;> exact ⟨rfl, rfl⟩
    have hrest := ih (security.applyKeyEntry entry)
    exact ⟨hrest.1.trans hentry.1, hrest.2.trans hentry.2⟩

theorem config_restarted (security : ApsSecurity) :
    security.restarted.globalLinkKey = security.globalLinkKey ∧
      security.restarted.tclkSeed = security.tclkSeed :=
  config_applyKeyTable security.keyEntries _

section

variable {linkKey : DeviceLinkKey} (hkey : security.deviceKey eui64 = some linkKey)
include hkey

theorem deviceKey_restarted :
    security.restarted.deviceKey eui64 = some ⟨linkKey.key, .verified⟩ := by
  rw [ApsSecurity.deviceKey, get_restarted hkey]
  rfl

theorem incomingFrameCounter_restarted :
    (security.restarted.incomingFrameCounter eui64).getD 0 =
      (security.incomingFrameCounter eui64).getD 0 := by
  rw [incomingFrameCounter, get_restarted hkey, Option.bind_some]
  dsimp only
  split
  next => rfl
  next hzero => exact (not_not.mp hzero).symm

/-- Before the next join the restart does not show. -/
theorem indistinct_restarted : Indistinct backend security security.restarted eui64 := by
  have hconfig := security.config_restarted
  refine .of_views hconfig.1 hconfig.2 ?_ (incomingFrameCounter_restarted hkey)
  rw [deviceKey_restarted hkey, hkey]
  rfl

/-- A join drops a key that is not provisional, before the restart as after it. -/
theorem survives_of_not_provisional (hattributes : linkKey.attributes ≠ .provisional) :
    Survives backend security security.restarted eui64 := by
  have hjoined := beginJoin_of_not_provisional hkey hattributes
  have hjoined' := beginJoin_of_not_provisional (deviceKey_restarted hkey) nofun
  have hconfig := security.globalLinkKey_beginJoin eui64
  have hconfig' := security.restarted.globalLinkKey_beginJoin eui64
  refine ⟨indistinct_restarted hkey, hjoined'.1.trans hjoined.1.symm,
    hjoined'.2.1.trans hjoined.2.1.symm, hjoined'.2.2.trans hjoined.2.2.symm, .of_views ?_ ?_ ?_ ?_⟩
  · rw [hconfig'.1, security.config_restarted.1, hconfig.1]
  · rw [hconfig'.2, security.config_restarted.2, hconfig.2]
  · rw [hjoined'.2.1, hjoined.2.1]
  · rw [incomingFrameCounter_beginJoin, incomingFrameCounter_beginJoin,
      incomingFrameCounter_restarted hkey]

end

/-- A link key survives a restart exactly if it is not provisional.  A provisional key is
there after the restart, and is dropped by the join that it was provisioned for. -/
theorem link_key_survives_iff (backend : CryptoBackend) (security : ApsSecurity)
    {eui64 : Eui64} {linkKey : DeviceLinkKey}
    (hkey : security.deviceKey eui64 = some linkKey) :
    Survives backend security security.restarted eui64 ↔
      linkKey.attributes ≠ .provisional := by
  constructor
  · intro h hprovisional
    have hkept := beginJoin_of_provisional hkey hprovisional
    have hdropped := beginJoin_of_not_provisional (deviceKey_restarted hkey) nofun
    rw [← h.joined, hdropped.1] at hkept
    cases hkept
  · exact survives_of_not_provisional hkey

namespace Example

/-- A stack that was just configured. -/
def configured : ApsSecurity := .new (Key.ofBytes []) 0 none

/-- It takes in a key that was negotiated before. -/
def negotiated : ApsSecurity := configured.restoreDeviceKey 1 (Key.ofBytes [1])

/-- It expects a device that knows an install code. -/
def provisioned : ApsSecurity := configured.setProvisionalKey 1 (Key.ofBytes [1])

end Example

theorem link_key_survives_iff_negotiated :
    Example.negotiated.deviceKey 1 = some ⟨Key.ofBytes [1], .verified⟩ ∧
      Survives SoftwareBackend Example.negotiated Example.negotiated.restarted 1 := by
  have hkey : Example.negotiated.deviceKey 1 = some ⟨Key.ofBytes [1], .verified⟩ := rfl
  exact ⟨hkey, (link_key_survives_iff SoftwareBackend _ hkey).mpr nofun⟩

/-- A device that was to join with its install code is sent the well-known key instead, if
the stack restarts before it joins. -/
theorem provisional_key_lost :
    Run SoftwareBackend Example.configured [(.setProvisionalKey 1 (Key.ofBytes [1]), .done)]
        Example.provisioned ∧
      (∀ eui64, Example.provisioned.pendingKey eui64 = none) ∧
      Example.provisioned.deviceKey 1 = some ⟨Key.ofBytes [1], .provisional⟩ ∧
      (Example.provisioned.beginJoin 1).1 = some (Key.ofBytes [1]) ∧
      (Example.provisioned.restarted.beginJoin 1).1 = none ∧
      (Example.provisioned.restarted.beginJoin 1).2.joinLinkKey 1 = Key.ofBytes [] ∧
      ¬ Survives SoftwareBackend Example.provisioned Example.provisioned.restarted 1 := by
  refine ⟨.cons rfl .nil, fun eui64 => ?_, rfl, rfl, rfl, rfl, fun h => ?_⟩
  · rw [Example.provisioned, setProvisionalKey, pendingKey_setEntry]
    split <;> rfl
  · cases h.joined

end ApsSecurity

end Ziggurat
