import Ziggurat.Sends.Attempts
import Ziggurat.Sends.Scheduling

/-!
# The source match table

A sleepy device hears about a frame that waits for it in the acknowledgment of its poll.  The
radio writes that acknowledgment on its own, from a table of addresses that `poll_addresses`
makes: the device polls again if its address is there, and sleeps if it is not.

A device has two addresses, and may poll under either.  A frame is kept under one of them, and
`poll` finds it under both.  The table lists a frame that is kept under the EUI64 under both as
well, by way of the address map.  It lists a frame that is kept under the network address under
that one alone, so the device that polls under its EUI64 does not hear of it
(`polled_addresses_listed_iff`).  The leave for a stale child is such a frame.
-/

namespace Ziggurat

/-! ## The table -/

/-- The addresses that are acknowledged with frame-pending. -/
structure SrcMatchTable where
  shortAddresses : FlatMap Nwk Unit := .new
  extendedAddresses : FlatMap Eui64 Unit := .new

namespace SrcMatchTable

def contains (table : SrcMatchTable) : Ieee802154Address → Bool
  | .nwk nwk => table.shortAddresses.containsKey nwk
  | .eui64 eui64 => table.extendedAddresses.containsKey eui64

/-- The loop body of `poll_addresses`. -/
def add (addressMap : FlatMap Eui64 Nwk) (table : SrcMatchTable) :
    Ieee802154Address → SrcMatchTable
  | .eui64 eui64 =>
    let table := { table with extendedAddresses := table.extendedAddresses.insert eui64 () }
    match addressMap.get eui64 with
    | some nwk => { table with shortAddresses := table.shortAddresses.insert nwk () }
    | none => table
  | .nwk nwk => { table with shortAddresses := table.shortAddresses.insert nwk () }

end SrcMatchTable

namespace Unicasts

variable {F W : Type}

def pollAddresses (t : Unicasts F W) (addressMap : FlatMap Eui64 Nwk) : SrcMatchTable :=
  (t.records.values.filterMap Record.pendingFor).foldl (SrcMatchTable.add addressMap) {}

end Unicasts

def Sends.pollAddresses {F W E : Type} (s : Sends F W E) (addressMap : FlatMap Eui64 Nwk) :
    SrcMatchTable :=
  s.unicasts.pollAddresses addressMap

/-! ## What is listed -/

namespace SrcMatchTable

variable {addressMap : FlatMap Eui64 Nwk} {table : SrcMatchTable}

theorem contains_add_eui64 {address : Ieee802154Address} {eui64 : Eui64} :
    (table.add addressMap address).contains (.eui64 eui64) = true ↔
      address = .eui64 eui64 ∨ table.contains (.eui64 eui64) = true := by
  unfold add contains
  cases address with
  | nwk nwk => simp
  | eui64 added =>
    dsimp only
    split <;> simp only [FlatMap.containsKey_eq_isSome, FlatMap.get_insert] <;> grind

theorem contains_add_nwk {address : Ieee802154Address} {nwk : Nwk} :
    (table.add addressMap address).contains (.nwk nwk) = true ↔
      (address = .nwk nwk ∨ ∃ eui64, address = .eui64 eui64 ∧ addressMap.get eui64 = some nwk) ∨
        table.contains (.nwk nwk) = true := by
  unfold add contains
  cases address with
  | nwk added =>
    simp only [FlatMap.containsKey_eq_isSome, FlatMap.get_insert]
    grind
  | eui64 eui64 =>
    simp only [reduceCtorEq, false_or, Ieee802154Address.eui64.injEq, exists_eq_left']
    split <;> simp only [FlatMap.containsKey_eq_isSome, FlatMap.get_insert] <;> grind

theorem contains_foldl_eui64 (addresses : List Ieee802154Address) {eui64 : Eui64} :
    (addresses.foldl (add addressMap) table).contains (.eui64 eui64) = true ↔
      .eui64 eui64 ∈ addresses ∨ table.contains (.eui64 eui64) = true := by
  induction addresses generalizing table with
  | nil => simp
  | cons address addresses ih =>
    rw [List.foldl_cons, ih, contains_add_eui64, List.mem_cons]
    tauto

theorem contains_foldl_nwk (addresses : List Ieee802154Address) {nwk : Nwk} :
    (addresses.foldl (add addressMap) table).contains (.nwk nwk) = true ↔
      (.nwk nwk ∈ addresses ∨
        ∃ eui64, .eui64 eui64 ∈ addresses ∧ addressMap.get eui64 = some nwk) ∨
        table.contains (.nwk nwk) = true := by
  induction addresses generalizing table with
  | nil => simp
  | cons address addresses ih =>
    rw [List.foldl_cons, ih, contains_add_nwk]
    simp only [List.mem_cons]
    grind

end SrcMatchTable

namespace Sends

variable {F W E : Type} {s : Sends F W E} {addressMap : FlatMap Eui64 Nwk} {eui64 : Eui64}
  {nwk : Nwk} {now : Instant}

theorem hasUnicastAwaitingPoll_iff {address : Ieee802154Address} :
    s.hasUnicastAwaitingPoll address = true ↔
      address ∈ s.unicasts.records.values.filterMap Unicasts.Record.pendingFor := by
  unfold hasUnicastAwaitingPoll Unicasts.hasAwaitingPoll
  simp only [List.any_eq_true, decide_eq_true_eq, List.mem_filterMap]

theorem contains_pollAddresses_eui64 :
    (s.pollAddresses addressMap).contains (.eui64 eui64) =
      s.hasUnicastAwaitingPoll (.eui64 eui64) := by
  rw [Bool.eq_iff_iff, hasUnicastAwaitingPoll_iff, pollAddresses, Unicasts.pollAddresses,
    SrcMatchTable.contains_foldl_eui64]
  exact or_iff_left Bool.false_ne_true

theorem contains_pollAddresses_nwk :
    (s.pollAddresses addressMap).contains (.nwk nwk) = true ↔
      s.hasUnicastAwaitingPoll (.nwk nwk) = true ∨
        ∃ eui64, s.hasUnicastAwaitingPoll (.eui64 eui64) = true ∧
          addressMap.get eui64 = some nwk := by
  simp only [hasUnicastAwaitingPoll_iff]
  rw [pollAddresses, Unicasts.pollAddresses, SrcMatchTable.contains_foldl_nwk]
  exact or_iff_left Bool.false_ne_true

/-- A frame is held under the address, before its deadline. -/
def Holds (s : Sends F W E) (address : Ieee802154Address) (now : Instant) : Prop :=
  ∃ record ∈ s.unicasts.records.values, record.pollAddress = some address ∧
    record.stage = .awaitingPoll ∧ now < record.deadline

theorem Holds.hasUnicastAwaitingPoll {address : Ieee802154Address} (h : s.Holds address now) :
    s.hasUnicastAwaitingPoll address = true := by
  obtain ⟨record, hmem, haddress, hstage, -⟩ := h
  rw [hasUnicastAwaitingPoll_iff, List.mem_filterMap]
  refine ⟨record, hmem, ?_⟩
  rw [Unicasts.Record.pendingFor, haddress, hstage]

/-- A poll is answered for what is held under either address of the device. -/
theorem poll_answers_iff_holds :
    (∃ actions s', s.poll (some eui64) (some nwk) now = .ok (true, actions, s')) ↔
      s.Holds (.eui64 eui64) now ∨ s.Holds (.nwk nwk) now := by
  rw [poll_answers_iff]
  simp only [Unicasts.Record.pollable_iff, Unicasts.Record.HeldFor, Holds, FlatMap.mem_values,
    Option.some.injEq]
  constructor
  · rintro ⟨id, record, hget, hstage, hdeadline, haddress⟩
    obtain ⟨_, haddress, rfl⟩ | ⟨_, haddress, rfl⟩ := haddress
    · exact .inl ⟨record, ⟨id, hget⟩, haddress, hstage, hdeadline⟩
    · exact .inr ⟨record, ⟨id, hget⟩, haddress, hstage, hdeadline⟩
  · intro h
    obtain ⟨record, ⟨id, hget⟩, haddress, hstage, hdeadline⟩ |
      ⟨record, ⟨id, hget⟩, haddress, hstage, hdeadline⟩ := h
    · exact ⟨id, record, hget, hstage, hdeadline, .inl ⟨eui64, haddress, rfl⟩⟩
    · exact ⟨id, record, hget, hstage, hdeadline, .inr ⟨nwk, haddress, rfl⟩⟩

/-- A device whose poll would be answered is listed under both its addresses exactly if no frame
is held under its network address alone. -/
theorem polled_addresses_listed_iff (s : Sends F W E) (addressMap : FlatMap Eui64 Nwk)
    (eui64 : Eui64) (nwk : Nwk) (now : Instant) (hmapped : addressMap.get eui64 = some nwk) :
    ((∃ actions s', s.poll (some eui64) (some nwk) now = .ok (true, actions, s')) →
      (s.pollAddresses addressMap).contains (.eui64 eui64) = true ∧
        (s.pollAddresses addressMap).contains (.nwk nwk) = true) ↔
      (s.Holds (.nwk nwk) now → s.hasUnicastAwaitingPoll (.eui64 eui64) = true) := by
  rw [poll_answers_iff_holds, contains_pollAddresses_eui64, contains_pollAddresses_nwk]
  constructor
  · intro h hheld
    exact (h (.inr hheld)).1
  · intro h hpolled
    have hlisted : s.hasUnicastAwaitingPoll (.eui64 eui64) = true := by
      obtain hheld | hheld := hpolled
      · exact hheld.hasUnicastAwaitingPoll
      · exact h hheld
    exact ⟨hlisted, .inr ⟨eui64, hlisted, hmapped⟩⟩

end Sends

namespace Example

/-- One frame for a device that is mapped to `0x1234`, under one of its addresses. -/
def heldUnder (address : Ieee802154Address) : List (Op Nat Nat SendFailure) :=
  [.enqueueUnicast
    { frame := 7, priority := .stackCritical, waiter := 0, confirm := .onHandoff,
      nextHop := 0x1234, pollAddress := some address } 0 {}]

def mapped : FlatMap Eui64 Nwk := FlatMap.new.insert 5 0x1234

theorem heldUnder_replays (address : Ieee802154Address) :
    (replay World.empty (heldUnder address)).isSome = true :=
  rfl

end Example

open Example in
/-- The leave for a stale child waits under its network address.  The device is not listed under
its EUI64, although its poll would be answered. -/
theorem Sends.stale_child_not_listed :
    ∃ (w : World Nat Nat SendFailure) (es : List (Event Nat Nat SendFailure)), Run w es ∧
      mapped.get 5 = some 0x1234 ∧
      (∃ actions s', w.sends.poll (some 5) (some 0x1234) 1 = .ok (true, actions, s')) ∧
      (w.sends.pollAddresses mapped).contains (.eui64 5) = false ∧
      (w.sends.pollAddresses mapped).contains (.nwk 0x1234) = true :=
  ⟨_, _, run_outcome _ (heldUnder_replays (.nwk 0x1234)), by decide, ⟨_, _, rfl⟩,
    by decide +kernel, by decide +kernel⟩

open Example in
/-- A frame under the EUI64 is listed under both addresses. -/
theorem Sends.polled_addresses_listed_iff_joiner :
    ∃ (w : World Nat Nat SendFailure) (es : List (Event Nat Nat SendFailure)), Run w es ∧
      (∃ actions s', w.sends.poll (some 5) (some 0x1234) 1 = .ok (true, actions, s')) ∧
      (w.sends.pollAddresses mapped).contains (.eui64 5) = true ∧
      (w.sends.pollAddresses mapped).contains (.nwk 0x1234) = true := by
  have hrun := run_outcome _ (heldUnder_replays (.eui64 5))
  have hpoll : ∃ actions s', (outcome _ (heldUnder_replays (.eui64 5))).1.sends.poll (some 5)
      (some 0x1234) 1 = .ok (true, actions, s') := ⟨_, _, rfl⟩
  have hlisted := (Sends.polled_addresses_listed_iff
    (outcome _ (heldUnder_replays (.eui64 5))).1.sends mapped 5 0x1234 1 (by decide)).mpr
      fun _ => by decide +kernel
  exact ⟨_, _, hrun, hpoll, hlisted hpoll⟩

end Ziggurat
