import Ziggurat.Nwk.NeighborUpdates

/-!
# The deadlines of the children

The maintenance task of the driver sleeps until the earliest deadline of an end device child.  It
is only woken for a new child and for a renegotiated timeout, so no other operation on the
neighbor table may bring that deadline forward.

`Op` has all the operations.  `Change` says what one of them can do to an entry that is there
afterwards: it keeps the deadline, or starts it over, and only a waking operation makes an end
device child.  A deadline that is started over with the old period is never brought forward,
because no deadline is further away than its period (`Timely`).

* `next_child_timeout_sooner`: the earliest deadline moves forward in waking operations alone,
  and an eviction removes exactly what is due.
* `Maintenance.Reached.due`: so the task is never asleep past the deadline of a child.
-/

namespace Ziggurat.Neighbors

/-! ## The operations -/

inductive Op where
  | recordLqa (senderNwk : Nwk) (lqi : UInt8)
  | refreshChildTimeout (eui64 : Option Eui64) (nwk : Option Nwk)
  | setChildTimeout (nwk : Nwk) (timeout : Duration) (configuration : UInt16)
  | updateNetworkAddress (eui64 : Eui64) (nwk : Nwk)
  | takeChild (eui64 : Eui64)
  | removeClaimedChildren (claimed : List Eui64)
  | processParentAnnce (announced : List Eui64)
  | evictTimedOutChildren
  | upsertChild (child : ChildDescriptor)
  | remove (eui64 : Eui64)
  | age (maxAge : Duration)
  | decayActivity
  | recordOutboundActivity (eui64 : Eui64)
  | recordInboundActivity (nwk : Nwk)
  | recordTransmitFailure (eui64 : Eui64)
  | resetTransmitFailures
  | onLinkStatus (ownAddress : Nwk) (sourceIeee : Eui64) (sourceNwk : Nwk) (lqi : UInt8)
      (command : NwkLinkStatusCommand)

def Op.apply (neighbors : Neighbors) (now : Instant) : Op → Neighbors
  | .recordLqa senderNwk lqi => neighbors.recordLqa senderNwk lqi
  | .refreshChildTimeout eui64 nwk => (neighbors.refreshChildTimeout eui64 nwk now).2
  | .setChildTimeout nwk timeout configuration =>
    (neighbors.setChildTimeout nwk timeout configuration now).2
  | .updateNetworkAddress eui64 nwk => neighbors.updateNetworkAddress eui64 nwk
  | .takeChild eui64 => (neighbors.takeChild eui64).2
  | .removeClaimedChildren claimed => (neighbors.removeClaimedChildren claimed).2
  | .processParentAnnce announced => (neighbors.processParentAnnce announced).2.2
  | .evictTimedOutChildren => (neighbors.evictTimedOutChildren now).2
  | .upsertChild child => neighbors.upsertChild child now
  | .remove eui64 => neighbors.remove eui64
  | .age maxAge => (neighbors.age now maxAge).2
  | .decayActivity => neighbors.decayActivity
  | .recordOutboundActivity eui64 => neighbors.recordOutboundActivity eui64
  | .recordInboundActivity nwk => neighbors.recordInboundActivity nwk
  | .recordTransmitFailure eui64 => neighbors.recordTransmitFailure eui64
  | .resetTransmitFailures => neighbors.resetTransmitFailures
  | .onLinkStatus ownAddress sourceIeee sourceNwk lqi command =>
    (neighbors.onLinkStatus ownAddress sourceIeee sourceNwk lqi command now).2

/-- Whether the driver wakes its maintenance task for an operation: for a new child, and for a
timeout that a child of ours negotiated. -/
def Op.notifies (neighbors : Neighbors) (now : Instant) : Op → Bool
  | .upsertChild _ => true
  | .setChildTimeout nwk timeout configuration =>
    (neighbors.setChildTimeout nwk timeout configuration now).1
  | _ => false

/-- The tables that operations at nondecreasing times lead to, with the time of the last. -/
inductive Reached : Instant → Neighbors → Prop where
  | start (now : Instant) : Reached now {}
  | step {now later : Instant} {neighbors : Neighbors} (reached : Reached now neighbors)
      (op : Op) (nondecreasing : now ≤ later) : Reached later (op.apply neighbors later)

/-! ## What an operation does to an entry -/

/-- The entry of a device after an operation, by the one that it had before. -/
inductive Change (now : Instant) (notifies : Bool) (eui64 : Eui64) :
    Option TableEntry → TableEntry → Prop where
  /-- The deadline stays, or is started over with the same period. -/
  | kept {entry entry' : TableEntry} (extendedAddress : entry'.extendedAddress =
        entry.extendedAddress)
      (deviceTimeout : entry'.deviceTimeout = entry.deviceTimeout)
      (timeoutAt : entry'.timeoutAt = entry.timeoutAt ∨
        entry'.timeoutAt = now.add entry.deviceTimeout)
      (child : entry'.isEndDeviceChild = true → entry.isEndDeviceChild = true) :
      Change now notifies eui64 (some entry) entry'
  | made {entry' : TableEntry} (extendedAddress : entry'.extendedAddress = eui64)
      (timeoutAt : entry'.timeoutAt = now.add entry'.deviceTimeout)
      (child : entry'.isEndDeviceChild = true → notifies = true) :
      Change now notifies eui64 none entry'
  | renegotiated {entry entry' : TableEntry} (notified : notifies = true)
      (extendedAddress : entry'.extendedAddress = entry.extendedAddress)
      (timeoutAt : entry'.timeoutAt = now.add entry'.deviceTimeout) :
      Change now notifies eui64 (some entry) entry'

/-- Every entry of the second table comes from the first by a change. -/
def Changes (now : Instant) (notifies : Bool) (neighbors neighbors' : Neighbors) : Prop :=
  ∀ eui64 entry', neighbors'.table.get eui64 = some entry' →
    Change now notifies eui64 (neighbors.table.get eui64) entry'

section Changes

variable {neighbors neighbors' : Neighbors} {now : Instant} {notifies : Bool}

theorem Change.refl (eui64 : Eui64) (entry : TableEntry) :
    Change now notifies eui64 (some entry) entry :=
  .kept rfl rfl (.inl rfl) id

theorem Changes.refl (neighbors : Neighbors) : Changes now notifies neighbors neighbors := by
  intro eui64 entry' hget
  rw [hget]
  exact Change.refl eui64 entry'

/-- One entry is replaced. -/
theorem changes_insert {eui64 : Eui64} {entry' : TableEntry}
    {pendingLqas : FlatMap Nwk LqaSamples}
    (h : Change now notifies eui64 (neighbors.table.get eui64) entry') :
    Changes now notifies neighbors ⟨neighbors.table.insert eui64 entry', pendingLqas⟩ := by
  intro other found hget
  rw [FlatMap.get_insert] at hget
  split at hget
  next heq =>
    cases hget
    rw [heq]
    exact h
  next =>
    rw [hget]
    exact Change.refl other found

theorem changes_set {eui64 : Eui64} {entry entry' : TableEntry}
    {pendingLqas : FlatMap Nwk LqaSamples} (hentry : neighbors.table.get eui64 = some entry)
    (h : Change now notifies eui64 (some entry) entry') :
    Changes now notifies neighbors ⟨neighbors.table.set eui64 entry', pendingLqas⟩ := by
  apply changes_insert
  rw [hentry]
  exact h

theorem changes_mapVal {f : Eui64 → TableEntry → TableEntry}
    (h : ∀ eui64 entry, Change now notifies eui64 (some entry) (f eui64 entry)) :
    Changes now notifies neighbors { neighbors with table := neighbors.table.mapVal f } := by
  intro eui64 entry' hget
  rw [FlatMap.get_mapVal] at hget
  obtain ⟨entry, hentry, heq⟩ := Option.map_eq_some_iff.mp hget
  rw [hentry, ← heq]
  exact h eui64 entry

theorem Removes.changes {removed : List Eui64} (h : neighbors.Removes neighbors' removed) :
    Changes now notifies neighbors neighbors' := by
  intro eui64 entry' hget
  rw [h eui64] at hget
  split at hget
  next => cases hget
  next =>
    rw [hget]
    exact Change.refl eui64 entry'

theorem changes_refreshChildTimeout (eui64 : Option Eui64) (nwk : Option Nwk) :
    Changes now notifies neighbors (neighbors.refreshChildTimeout eui64 nwk now).2 := by
  unfold refreshChildTimeout
  dsimp only
  split
  next found entry hfound =>
    obtain ⟨named, -, hget⟩ := Option.bind_eq_some_iff.mp hfound
    obtain ⟨entry, hentry, hpair⟩ := Option.map_eq_some_iff.mp hget
    cases hpair
    exact changes_set hentry (.kept rfl rfl (.inr rfl) id)
  next =>
    split
    next found entry hfound =>
      obtain ⟨nwk, -, hfound⟩ := Option.bind_eq_some_iff.mp hfound
      exact changes_set (FlatMap.get_of_findValue hfound).1 (.kept rfl rfl (.inr rfl) id)
    next => exact Changes.refl neighbors

theorem changes_setChildTimeout (nwk : Nwk) (timeout : Duration) (configuration : UInt16) :
    Changes now (neighbors.setChildTimeout nwk timeout configuration now).1 neighbors
      (neighbors.setChildTimeout nwk timeout configuration now).2 := by
  unfold setChildTimeout
  split
  next eui64 entry hfound =>
    exact changes_set (FlatMap.get_of_findValue hfound).1 (.renegotiated rfl rfl rfl)
  next => exact Changes.refl neighbors

theorem changes_upsertChild (child : ChildDescriptor) :
    Changes now true neighbors (neighbors.upsertChild child now) := by
  apply changes_insert
  cases neighbors.table.get child.eui64 with
  | none => exact .made rfl rfl fun _ => rfl
  | some entry => exact .renegotiated rfl rfl rfl

theorem changes_updateNetworkAddress (eui64 : Eui64) (nwk : Nwk) :
    Changes now notifies neighbors (neighbors.updateNetworkAddress eui64 nwk) := by
  unfold updateNetworkAddress
  split
  next entry hentry =>
    split
    next => exact changes_set hentry (.kept rfl rfl (.inl rfl) id)
    next => exact Changes.refl neighbors
  next => exact Changes.refl neighbors

theorem changes_age (maxAge : Duration) :
    Changes now notifies neighbors (neighbors.age now maxAge).2 := by
  refine changes_mapVal fun eui64 entry => ?_
  split
  next => exact .kept rfl rfl (.inl rfl) id
  next => exact Change.refl eui64 entry

/-- A link status makes a sibling, or a router of what was an end device. -/
theorem changes_onLinkStatus (ownAddress : Nwk) (sourceIeee : Eui64) (sourceNwk : Nwk)
    (lqi : UInt8) (command : NwkLinkStatusCommand) :
    Changes now notifies neighbors
      (neighbors.onLinkStatus ownAddress sourceIeee sourceNwk lqi command now).2 := by
  obtain ⟨entry, _, _, _, _, hentry, htable⟩ := neighbors.exists_onLinkStatus_table ownAddress
    sourceIeee sourceNwk lqi command now
  intro eui64 entry' hget
  rw [htable] at hget
  refine @changes_insert neighbors now notifies sourceIeee _ neighbors.pendingLqas ?_ eui64 entry'
    hget
  cases hold : neighbors.table.get sourceIeee with
  | none =>
    rw [hold, Option.getD_none] at hentry
    subst hentry
    exact .made rfl rfl nofun
  | some old =>
    rw [hold, Option.getD_some] at hentry
    subst hentry
    refine .kept rfl rfl (.inl rfl) fun hchild => ?_
    unfold TableEntry.isEndDeviceChild at hchild ⊢
    rw [Bool.and_eq_true, decide_eq_true_eq] at hchild
    have htype := hchild.2
    dsimp only at htype
    split at htype
    next => cases htype
    next => exact absurd htype ‹_›

theorem changes_recordLqa (senderNwk : Nwk) (lqi : UInt8) :
    Changes now notifies neighbors (neighbors.recordLqa senderNwk lqi) := by
  unfold recordLqa
  split
  next eui64 entry hfound =>
    exact changes_set (FlatMap.get_of_findValue hfound).1 (.kept rfl rfl (.inl rfl) id)
  next => exact Changes.refl neighbors

theorem changes_recordInboundActivity (nwk : Nwk) :
    Changes now notifies neighbors (neighbors.recordInboundActivity nwk) := by
  unfold recordInboundActivity FlatMap.modifyFirst
  split
  next eui64 entry hfound =>
    exact changes_set (FlatMap.get_of_findValue hfound).1 (.kept rfl rfl (.inl rfl) id)
  next => exact Changes.refl neighbors

theorem changes_recordOutboundActivity (eui64 : Eui64) :
    Changes now notifies neighbors (neighbors.recordOutboundActivity eui64) := by
  unfold recordOutboundActivity
  split
  next entry hentry => exact changes_set hentry (.kept rfl rfl (.inl rfl) id)
  next => exact Changes.refl neighbors

theorem changes_recordTransmitFailure (eui64 : Eui64) :
    Changes now notifies neighbors (neighbors.recordTransmitFailure eui64) := by
  unfold recordTransmitFailure
  split
  next entry hentry => exact changes_set hentry (.kept rfl rfl (.inl rfl) id)
  next => exact Changes.refl neighbors

theorem Op.changes (op : Op) :
    Changes now (op.notifies neighbors now) neighbors (op.apply neighbors now) := by
  cases op with
  | recordLqa senderNwk lqi => exact changes_recordLqa senderNwk lqi
  | refreshChildTimeout eui64 nwk => exact changes_refreshChildTimeout eui64 nwk
  | setChildTimeout nwk timeout configuration =>
    exact changes_setChildTimeout nwk timeout configuration
  | updateNetworkAddress eui64 nwk => exact changes_updateNetworkAddress eui64 nwk
  | takeChild eui64 => exact (removes_takeChild neighbors eui64).changes
  | removeClaimedChildren claimed =>
    exact (removes_removeClaimedChildren claimed neighbors).changes
  | processParentAnnce announced => exact (removes_processParentAnnce announced neighbors).changes
  | evictTimedOutChildren => exact (removes_evictTimedOutChildren neighbors now).changes
  | upsertChild child => exact changes_upsertChild child
  | remove eui64 => exact (removes_remove neighbors eui64).changes
  | age maxAge => exact changes_age maxAge
  | decayActivity => exact changes_mapVal fun _ _ => .kept rfl rfl (.inl rfl) id
  | recordOutboundActivity eui64 => exact changes_recordOutboundActivity eui64
  | recordInboundActivity nwk => exact changes_recordInboundActivity nwk
  | recordTransmitFailure eui64 => exact changes_recordTransmitFailure eui64
  | resetTransmitFailures => exact changes_mapVal fun _ _ => .kept rfl rfl (.inl rfl) id
  | onLinkStatus ownAddress sourceIeee sourceNwk lqi command =>
    exact changes_onLinkStatus ownAddress sourceIeee sourceNwk lqi command

end Changes

/-! ## Deadlines over runs -/

/-- The entries are under their own EUI64, and no deadline is further away than its period. -/
structure Timely (now : Instant) (neighbors : Neighbors) : Prop where
  keyed : ∀ eui64 entry, neighbors.table.get eui64 = some entry → entry.extendedAddress = eui64
  timeoutAt_le : ∀ eui64 entry, neighbors.table.get eui64 = some entry →
    entry.timeoutAt ≤ now.add entry.deviceTimeout

section Timely

variable {neighbors neighbors' : Neighbors} {now later : Instant} {notifies : Bool}

theorem Timely.mono (h : Timely now neighbors) (hle : now ≤ later) : Timely later neighbors where
  keyed := h.keyed
  timeoutAt_le eui64 entry hget :=
    (h.timeoutAt_le eui64 entry hget).trans (Instant.add_le_add hle le_rfl)

/-- An entry stays under its own EUI64. -/
theorem Changes.keyed (hchanges : Changes now notifies neighbors neighbors')
    (h : ∀ eui64 entry, neighbors.table.get eui64 = some entry → entry.extendedAddress = eui64)
    (eui64 : Eui64) (entry' : TableEntry) (hget : neighbors'.table.get eui64 = some entry') :
    entry'.extendedAddress = eui64 := by
  have hchange := hchanges eui64 entry' hget
  generalize hold : neighbors.table.get eui64 = old at hchange
  cases hchange with
  | kept extendedAddress => exact extendedAddress.trans (h eui64 _ hold)
  | made extendedAddress => exact extendedAddress
  | renegotiated _ extendedAddress => exact extendedAddress.trans (h eui64 _ hold)

theorem Timely.changes (h : Timely now neighbors)
    (hchanges : Changes now notifies neighbors neighbors') : Timely now neighbors' := by
  refine ⟨hchanges.keyed h.keyed, fun eui64 entry' hget => ?_⟩
  have hchange := hchanges eui64 entry' hget
  generalize hold : neighbors.table.get eui64 = old at hchange
  cases hchange with
  | kept _ deviceTimeout timeoutAt =>
    rw [deviceTimeout]
    obtain hsame | hover := timeoutAt
    · rw [hsame]
      exact h.timeoutAt_le eui64 _ hold
    · exact hover.le
  | made _ timeoutAt => exact timeoutAt.le
  | renegotiated _ _ timeoutAt => exact timeoutAt.le

theorem Reached.timely (h : Reached now neighbors) : Timely now neighbors := by
  induction h with
  | start now =>
    have hnone (eui64 : Eui64) (entry : TableEntry) :
        ({} : Neighbors).table.get eui64 ≠ some entry := Option.some_ne_none entry ∘ Eq.symm
    exact ⟨fun eui64 entry hget => absurd hget (hnone eui64 entry),
      fun eui64 entry hget => absurd hget (hnone eui64 entry)⟩
  | step reached op nondecreasing ih => exact (ih.mono nondecreasing).changes op.changes

/-- A deadline of a child, and the earliest one. -/
theorem nextChildTimeout_eq_some {deadline : Instant} :
    neighbors.nextChildTimeout = some deadline ↔
      (∃ eui64 entry, neighbors.table.get eui64 = some entry ∧ entry.isEndDeviceChild = true ∧
        entry.timeoutAt = deadline) ∧
      ∀ eui64 entry, neighbors.table.get eui64 = some entry → entry.isEndDeviceChild = true →
        deadline ≤ entry.timeoutAt := by
  unfold nextChildTimeout
  rw [List.min?_eq_some_iff]
  simp only [List.mem_map, List.mem_filter, FlatMap.mem_values]
  constructor
  · rintro ⟨⟨entry, ⟨⟨eui64, hget⟩, hchild⟩, heq⟩, hle⟩
    exact ⟨⟨eui64, entry, hget, hchild, heq⟩, fun eui64 entry hget hchild =>
      hle entry.timeoutAt ⟨entry, ⟨⟨eui64, hget⟩, hchild⟩, rfl⟩⟩
  · rintro ⟨⟨eui64, entry, hget, hchild, heq⟩, hle⟩
    refine ⟨⟨entry, ⟨⟨eui64, hget⟩, hchild⟩, heq⟩, ?_⟩
    rintro deadline ⟨entry, ⟨⟨eui64, hget⟩, hchild⟩, rfl⟩
    exact hle eui64 entry hget hchild

theorem exists_nextChildTimeout_le {eui64 : Eui64} {entry : TableEntry}
    (hget : neighbors.table.get eui64 = some entry) (hchild : entry.isEndDeviceChild = true) :
    ∃ deadline, neighbors.nextChildTimeout = some deadline ∧ deadline ≤ entry.timeoutAt := by
  cases hnext : neighbors.nextChildTimeout with
  | some deadline =>
    exact ⟨deadline, rfl, (nextChildTimeout_eq_some.mp hnext).2 eui64 entry hget hchild⟩
  | none =>
    unfold nextChildTimeout at hnext
    rw [List.min?_eq_none_iff, List.map_eq_nil_iff, List.filter_eq_nil_iff] at hnext
    exact absurd hchild (hnext entry (FlatMap.mem_values.mpr ⟨eui64, hget⟩))

/-- The earliest deadline is new, or before the one that was the earliest. -/
def Sooner (neighbors neighbors' : Neighbors) : Prop :=
  ∃ deadline', neighbors'.nextChildTimeout = some deadline' ∧
    ∀ deadline, neighbors.nextChildTimeout = some deadline → deadline' < deadline

/-- Without a wake, the earliest child was one before, and its deadline no later. -/
theorem Timely.not_sooner (h : Timely now neighbors)
    (hchanges : Changes now false neighbors neighbors') : ¬ neighbors.Sooner neighbors' := by
  rintro ⟨deadline', hnext', hsooner⟩
  obtain ⟨⟨eui64, entry', hget, hchild, rfl⟩, -⟩ := nextChildTimeout_eq_some.mp hnext'
  have hchange := hchanges eui64 entry' hget
  generalize hold : neighbors.table.get eui64 = old at hchange
  cases hchange with
  | @kept entry _ _ _ timeoutAt child =>
    obtain ⟨deadline, hnext, hle⟩ := exists_nextChildTimeout_le hold (child hchild)
    have hlt := hsooner deadline hnext
    obtain hsame | hover := timeoutAt
    · exact absurd (hsame ▸ hlt) (Nat.not_lt.mpr hle)
    · exact absurd (hover ▸ hlt) (Nat.not_lt.mpr (hle.trans (h.timeoutAt_le eui64 entry hold)))
  | made _ _ child => exact Bool.false_ne_true (child hchild)
  | renegotiated notified => exact Bool.false_ne_true notified

/-- An eviction removes what is due, and leaves the rest. -/
theorem Timely.get_evictTimedOutChildren (h : Timely now neighbors) (eui64 : Eui64) :
    (neighbors.evictTimedOutChildren later).2.table.get eui64 =
      (neighbors.table.get eui64).filter fun entry =>
        !(entry.isEndDeviceChild && entry.timeoutAt ≤ later) := by
  have hevicted : eui64 ∈ (neighbors.evictTimedOutChildren later).1.map Prod.fst ↔
      ∃ entry, neighbors.table.get eui64 = some entry ∧
        (entry.isEndDeviceChild && entry.timeoutAt ≤ later) = true := by
    unfold evictTimedOutChildren
    simp only [List.map_map, List.mem_map, List.mem_filter, FlatMap.mem_values]
    constructor
    · rintro ⟨entry, ⟨⟨key, hget⟩, hdue⟩, rfl⟩
      rw [← h.keyed key entry hget] at hget
      exact ⟨entry, hget, hdue⟩
    · rintro ⟨entry, hget, hdue⟩
      exact ⟨entry, ⟨⟨eui64, hget⟩, hdue⟩, h.keyed eui64 entry hget⟩
  rw [removes_evictTimedOutChildren neighbors later eui64]
  cases hget : neighbors.table.get eui64 with
  | none => rw [ite_self, Option.filter_none]
  | some entry =>
    rw [hget] at hevicted
    rw [Option.filter_some]
    by_cases hdue : (entry.isEndDeviceChild && entry.timeoutAt ≤ later) = true
    · rw [if_pos (hevicted.mpr ⟨entry, rfl, hdue⟩), hdue]
      rfl
    · have hnot : ¬ eui64 ∈ (neighbors.evictTimedOutChildren later).1.map Prod.fst := by
        intro hmem
        obtain ⟨found, hfound, hdue'⟩ := hevicted.mp hmem
        cases hfound
        exact hdue hdue'
      rw [if_neg hnot, Bool.eq_false_iff.mpr hdue]
      rfl

/-- What a table without a due child has as its earliest deadline. -/
theorem Timely.lt_of_nextChildTimeout_evicted (h : Timely now neighbors) {deadline : Instant}
    (hnext : (neighbors.evictTimedOutChildren later).2.nextChildTimeout = some deadline) :
    later < deadline := by
  obtain ⟨⟨eui64, entry, hget, hchild, rfl⟩, -⟩ := nextChildTimeout_eq_some.mp hnext
  rw [h.get_evictTimedOutChildren, Option.filter_eq_some_iff] at hget
  have hahead := hget.2
  rw [hchild, Bool.true_and, Bool.not_eq_true', decide_eq_false_iff_not] at hahead
  exact Nat.not_le.mp hahead

theorem Timely.notifies_of_sooner (h : Timely now neighbors) {op : Op}
    (hsooner : neighbors.Sooner (op.apply neighbors now)) : op.notifies neighbors now = true := by
  cases hnotifies : op.notifies neighbors now with
  | true => rfl
  | false => exact absurd hsooner (h.not_sooner (hnotifies ▸ op.changes))

end Timely

/-- The earliest deadline of a child moves forward only in the operations that wake the
maintenance task.  An eviction removes the end device children that are due and nothing else,
and the deadline that it leaves is ahead. -/
theorem next_child_timeout_sooner {now later : Instant} {neighbors : Neighbors}
    (h : Reached now neighbors) (hlater : now ≤ later) :
    (∀ op : Op, neighbors.Sooner (op.apply neighbors later) →
      op.notifies neighbors later = true) ∧
      (∀ eui64, (neighbors.evictTimedOutChildren later).2.table.get eui64 =
        (neighbors.table.get eui64).filter fun entry =>
          !(entry.isEndDeviceChild && entry.timeoutAt ≤ later)) ∧
      ∀ deadline, (neighbors.evictTimedOutChildren later).2.nextChildTimeout = some deadline →
        later < deadline := by
  have htimely := h.timely.mono hlater
  refine ⟨fun op => ?_, fun eui64 => ?_, fun deadline => ?_⟩
  · exact htimely.notifies_of_sooner
  · exact htimely.get_evictTimedOutChildren eui64
  · exact htimely.lt_of_nextChildTimeout_evicted

/-- A child that joins at time zero for a second is evicted at its deadline, and no earlier. -/
theorem next_child_timeout_sooner_joined :
    let child : ChildDescriptor := ⟨1, 0x1234, .endDevice, false, 1000000, .child⟩
    let joined := upsertChild {} child 0
    Reached 0 joined ∧ joined.nextChildTimeout = some 1000000 ∧
      ((evictTimedOutChildren joined 999999).2.table.get 1).isSome = true ∧
      (evictTimedOutChildren joined 1000000).2.table.get 1 = none := by
  intro child joined
  have hjoined : Reached 0 joined := (Reached.start 0).step (.upsertChild child) (Nat.le_refl 0)
  refine ⟨hjoined, by decide, ?_, ?_⟩
  · rw [(next_child_timeout_sooner hjoined (Nat.zero_le 999999)).2.1]
    decide
  · rw [(next_child_timeout_sooner hjoined (Nat.zero_le 1000000)).2.1]
    decide

/-! ## The maintenance task -/

/-- `child_timeout_task`: what it sleeps until, and whether it was woken since. -/
structure Maintenance where
  neighbors : Neighbors := {}
  alarm : Option Instant := none
  notified : Bool := true

namespace Maintenance

def apply (task : Maintenance) (now : Instant) (op : Op) : Maintenance :=
  { task with
    neighbors := op.apply task.neighbors now
    notified := task.notified || op.notifies task.neighbors now }

/-- One turn of the loop, up to the next sleep. -/
def pass (task : Maintenance) (now : Instant) : Maintenance :=
  let neighbors := (task.neighbors.evictTimedOutChildren now).2
  ⟨neighbors, neighbors.nextChildTimeout, false⟩

/-- The sleep of the task is over. -/
def Due (task : Maintenance) (now : Instant) : Prop :=
  task.notified = true ∨ ∃ alarm, task.alarm = some alarm ∧ alarm ≤ now

/-- Operations on the table while the task sleeps, and turns of the task. -/
inductive Reached : Instant → Maintenance → Prop where
  | start (now : Instant) : Reached now {}
  | op {now later : Instant} {task : Maintenance} (reached : Reached now task) (op : Op)
      (nondecreasing : now ≤ later) : Reached later (task.apply later op)
  | pass {now later : Instant} {task : Maintenance} (reached : Reached now task)
      (due : task.Due later) (nondecreasing : now ≤ later) : Reached later (task.pass later)

variable {now : Instant} {task : Maintenance}

theorem Reached.neighbors (h : Reached now task) : Neighbors.Reached now task.neighbors := by
  induction h with
  | start now => exact .start now
  | op reached op nondecreasing ih => exact ih.step op nondecreasing
  | pass reached due nondecreasing ih => exact ih.step .evictTimedOutChildren nondecreasing

/-- A task that was not woken has an alarm at the earliest deadline or before it. -/
theorem Reached.alarm_le (h : Reached now task) (hnotified : task.notified = false)
    {deadline : Instant} (hnext : task.neighbors.nextChildTimeout = some deadline) :
    ∃ alarm, task.alarm = some alarm ∧ alarm ≤ deadline := by
  induction h generalizing deadline with
  | start now => cases hnotified
  | @op _ later task reached op nondecreasing ih =>
    rw [apply, Bool.or_eq_false_iff] at hnotified
    have hsooner : ¬ task.neighbors.Sooner (op.apply task.neighbors later) := fun hsooner =>
      Bool.false_ne_true (hnotified.2.symm.trans
        ((reached.neighbors.timely.mono nondecreasing).notifies_of_sooner hsooner))
    -- the deadline did not move forward, so one was set before, and no later
    have hbefore : ∃ before, task.neighbors.nextChildTimeout = some before ∧ before ≤ deadline := by
      by_contra hnone
      exact hsooner ⟨deadline, hnext, fun before hbefore =>
        Nat.not_le.mp fun hle => hnone ⟨before, hbefore, hle⟩⟩
    obtain ⟨before, hbefore, hle⟩ := hbefore
    obtain ⟨alarm, halarm, halarm_le⟩ := ih hnotified.1 hbefore
    exact ⟨alarm, halarm, halarm_le.trans hle⟩
  | pass reached due nondecreasing ih => exact ⟨deadline, hnext, Nat.le_refl deadline⟩

/-- The task is never asleep past the deadline of a child. -/
theorem Reached.due (h : Reached now task) {later : Instant} {eui64 : Eui64}
    {entry : TableEntry} (hget : task.neighbors.table.get eui64 = some entry)
    (hchild : entry.isEndDeviceChild = true) (hdue : entry.timeoutAt ≤ later) : task.Due later := by
  cases hnotified : task.notified with
  | true => exact .inl hnotified
  | false =>
    obtain ⟨deadline, hnext, hle⟩ := exists_nextChildTimeout_le hget hchild
    obtain ⟨alarm, halarm, halarm_le⟩ := h.alarm_le hnotified hnext
    exact .inr ⟨alarm, halarm, (halarm_le.trans hle).trans hdue⟩

/-- No child outlives its deadline, whatever happened to the table while the task slept: an overdue
child has the task awake, a turn takes out the overdue children and no other device, and the task
then sleeps for a while. -/
theorem Reached.overdue_evicted (h : Reached now task) {later : Instant} (hlater : now ≤ later) :
    (∀ eui64 entry, task.neighbors.table.get eui64 = some entry →
      entry.isEndDeviceChild = true → entry.timeoutAt ≤ later → task.Due later) ∧
      (∀ eui64, (task.pass later).neighbors.table.get eui64 =
        (task.neighbors.table.get eui64).filter fun entry =>
          !(entry.isEndDeviceChild && entry.timeoutAt ≤ later)) ∧
      ¬ (task.pass later).Due later := by
  have htimely := h.neighbors.timely.mono hlater
  refine ⟨fun _ _ => h.due, htimely.get_evictTimedOutChildren, ?_⟩
  rintro (hnotified | ⟨alarm, halarm, hle⟩)
  · cases hnotified
  · exact absurd hle (Nat.not_le_of_lt (htimely.lt_of_nextChildTimeout_evicted halarm))

/-- A child joins while the task sleeps.  The task wakes and sleeps again, now with an alarm at the
deadline of the child, which is gone after the turn then. -/
theorem Reached.overdue_evicted_joined :
    let joined := (Maintenance.pass {} 0).apply 0
      (.upsertChild ⟨1, 0x1234, .endDevice, false, 1000000, .child⟩)
    let task := joined.pass 0
    task.notified = false ∧ task.Due 1000000 ∧
      (task.pass 1000000).neighbors.table.get 1 = none := by
  intro joined task
  have hslept : Reached 0 (Maintenance.pass {} 0) :=
    (Reached.start 0).pass (.inl rfl) (Nat.le_refl 0)
  have htask : Reached 0 task :=
    (hslept.op _ (Nat.le_refl 0)).pass (.inl rfl) (Nat.le_refl 0)
  obtain ⟨hdue, hget, -⟩ := htask.overdue_evicted (Nat.zero_le 1000000)
  exact ⟨rfl, hdue 1 _ rfl rfl (Nat.le_refl _), (hget 1).trans (by decide)⟩

end Maintenance

end Ziggurat.Neighbors
