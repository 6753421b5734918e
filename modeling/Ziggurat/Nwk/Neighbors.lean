import Ziggurat.FlatMap
import Ziggurat.Nwk.Frame

/-!
# The neighbor table

`nwk/neighbors.rs`: the devices in radio range, with the quality of the link to each, and
the children among them.

The table is keyed by the EUI64 and searched by the network address where a frame only
carries that one: the first entry in key order answers.  The last link quality samples are
kept in a ring of three of which only the median is read, so the model keeps them as a
list.  Fields that the code writes once and never reads are left out of `TableEntry`.
-/

namespace Ziggurat

inductive NwkDeviceType where
  | coordinator
  | router
  | endDevice
  deriving DecidableEq, Repr

inductive Relationship where
  | parent
  | child
  | sibling
  | noneOfTheAbove
  | previousChild
  | unauthenticatedChild
  | unauthorizedChildWithRelayAllowed
  | lostChild
  | addressConflictChild
  | backboneMeshSibling
  deriving DecidableEq, Repr

/-! ## Link quality -/

/-- The last samples of one transmitter, at most three. -/
abbrev LqaSamples := List UInt8

def LqaSamples.push (samples : LqaSamples) (lqi : UInt8) : LqaSamples :=
  (samples ++ [lqi]).drop (samples.length + 1 - 3)

/-- The link cost of a link quality. -/
def lqiToLinkCost (lqi : UInt8) : UInt8 :=
  if lqi ≤ 16 then 7
  else if lqi ≤ 32 then 6
  else if lqi ≤ 64 then 5
  else if lqi ≤ 96 then 4
  else if lqi ≤ 128 then 3
  else if lqi ≤ 192 then 2
  else 1

/-! ## Entries -/

namespace Neighbors

structure TableEntry where
  extendedAddress : Eui64
  networkAddress : Nwk
  deviceType : NwkDeviceType
  rxOnWhenIdle : Bool
  endDeviceConfiguration : UInt16 := 0
  timeoutAt : Instant
  deviceTimeout : Duration
  relationship : Relationship
  transmitFailure : UInt8 := 0
  lqas : LqaSamples := []
  /-- The cost that the neighbor measured.  Zero if it never reported one. -/
  outgoingCost : UInt8 := 0
  lastLinkStatusTimestamp : Instant
  keepaliveReceived : Bool := false
  routerConnectivity : UInt8 := 0
  routerNeighborSetDiversity : UInt8 := 0
  routerOutboundActivity : UInt8 := 0
  routerInboundActivity : UInt8 := 0
  deriving DecidableEq, Repr

namespace TableEntry

/-- The median of a full window. -/
def lqa (entry : TableEntry) : Option UInt8 :=
  if entry.lqas.length = 3 then (entry.lqas.mergeSort (· ≤ ·))[1]? else none

def incomingLinkCost (entry : TableEntry) : UInt8 :=
  (entry.lqa.map lqiToLinkCost).getD 0

def isChild (entry : TableEntry) : Bool :=
  entry.relationship = .child || entry.relationship = .unauthenticatedChild

def isEndDeviceChild (entry : TableEntry) : Bool :=
  entry.isChild && entry.deviceType = .endDevice

end TableEntry

end Neighbors

/-- What a joining or rejoining child says of itself. -/
structure ChildDescriptor where
  eui64 : Eui64
  networkAddress : Nwk
  deviceType : NwkDeviceType
  rxOnWhenIdle : Bool
  deviceTimeout : Duration
  relationship : Relationship

/-- The link to one neighbor. -/
structure NeighborLink where
  eui64 : Eui64
  outgoingCost : UInt8
  incomingCost : UInt8
  deriving DecidableEq, Repr

structure Neighbors where
  table : FlatMap Eui64 Neighbors.TableEntry := .new
  /-- Samples of senders that have no entry yet. -/
  pendingLqas : FlatMap Nwk LqaSamples := .new

namespace Neighbors

/-- `PENDING_LQA_CAP`. -/
def pendingLqaCap : Nat := 64

/-- The timeout of a device that does not age: `0xFFFFFFFF` seconds. -/
def noTimeout : Duration := 4294967295000000

/-! ## Queries -/

/-- The radio link to a neighbor. -/
def link (neighbors : Neighbors) (nwk : Nwk) : Option NeighborLink :=
  (neighbors.table.findValue (·.networkAddress = nwk)).map fun (_, entry) =>
    { eui64 := entry.extendedAddress
      outgoingCost := entry.outgoingCost
      incomingCost := entry.incomingLinkCost }

def hasNetworkAddress (neighbors : Neighbors) (nwk : Nwk) : Bool :=
  neighbors.table.values.any (·.networkAddress = nwk)

/-- The end device child with a network address. -/
def endDeviceChildEui64 (neighbors : Neighbors) (nwk : Nwk) : Option Eui64 :=
  (neighbors.table.findValue fun entry =>
    entry.networkAddress = nwk && entry.isEndDeviceChild).map (·.2.extendedAddress)

/-- A relayed frame of an end device child of ours loses the initiator bit. -/
def clearEndDeviceInitiatorForRelay (neighbors : Neighbors) (header : NwkHeader) : NwkHeader :=
  if !header.frameControl.endDeviceInitiator ∨
      (neighbors.endDeviceChildEui64 header.source).isNone then header
  else { header with frameControl.endDeviceInitiator := false }

/-- The child with a network address that sleeps, so that its frames await its poll. -/
def sleepyChildEui64 (neighbors : Neighbors) (nwk : Nwk) : Option Eui64 :=
  (neighbors.table.findValue fun entry =>
    entry.networkAddress = nwk && !entry.rxOnWhenIdle && entry.isChild).map (·.2.extendedAddress)

def sleepyChildren (neighbors : Neighbors) : List (Eui64 × Nwk) :=
  (neighbors.table.values.filter fun entry => !entry.rxOnWhenIdle && entry.isChild).map
    fun entry => (entry.extendedAddress, entry.networkAddress)

def contains (neighbors : Neighbors) (eui64 : Eui64) : Bool :=
  neighbors.table.containsKey eui64

def deviceCapability (neighbors : Neighbors) (eui64 : Eui64) : Option (NwkDeviceType × Bool) :=
  (neighbors.table.get eui64).map fun entry => (entry.deviceType, entry.rxOnWhenIdle)

def endDeviceChildCount (neighbors : Neighbors) : Nat :=
  (neighbors.table.values.filter TableEntry.isEndDeviceChild).length

/-- The routers with a live link, which are expected to relay our broadcasts. -/
def expectedBroadcastRelayers (neighbors : Neighbors) : List Nwk :=
  (neighbors.table.values.filter fun entry =>
    entry.deviceType = .router && 0 < entry.outgoingCost).map (·.networkAddress)

/-- The earliest deadline of an end device child. -/
def nextChildTimeout (neighbors : Neighbors) : Option Instant :=
  ((neighbors.table.values.filter TableEntry.isEndDeviceChild).map (·.timeoutAt)).min?

/-- The link statuses that we advertise. -/
def linkStatusEntries (neighbors : Neighbors) : List (Nwk × UInt8 × UInt8) :=
  (neighbors.table.values.filter (·.deviceType = .router)).filterMap fun entry =>
    entry.lqa.map fun lqa => (entry.networkAddress, lqiToLinkCost lqa, entry.outgoingCost)

/-! ## Updates -/

/-- Record a sample of the device that transmitted a frame to us. -/
def recordLqa (neighbors : Neighbors) (senderNwk : Nwk) (lqi : UInt8) : Neighbors :=
  match neighbors.table.findValue (·.networkAddress = senderNwk) with
  | some (eui64, entry) =>
    { neighbors with table := neighbors.table.set eui64 { entry with lqas := entry.lqas.push lqi } }
  | none =>
    let pending :=
      if pendingLqaCap ≤ neighbors.pendingLqas.entries.length ∧
          !neighbors.pendingLqas.containsKey senderNwk then neighbors.pendingLqas.popFirst
      else neighbors.pendingLqas
    { neighbors with
      pendingLqas := pending.insert senderNwk (((pending.get senderNwk).getD []).push lqi) }

/-- A poll refreshes the deadline of a known device.  Whether the device is one. -/
def refreshChildTimeout (neighbors : Neighbors) (eui64 : Option Eui64) (nwk : Option Nwk)
    (now : Instant) : Bool × Neighbors :=
  let refresh (entry : TableEntry) :=
    { entry with timeoutAt := now.add entry.deviceTimeout, keepaliveReceived := true }
  match eui64.bind fun eui64 => (neighbors.table.get eui64).map (eui64, ·) with
  | some (eui64, entry) =>
    (true, { neighbors with table := neighbors.table.set eui64 (refresh entry) })
  | none =>
    match nwk.bind fun nwk => neighbors.table.findValue (·.networkAddress = nwk) with
    | some (eui64, entry) =>
      (true, { neighbors with table := neighbors.table.set eui64 (refresh entry) })
    | none => (false, neighbors)

/-- The timeout that an end device child negotiated.  Whether the device is one. -/
def setChildTimeout (neighbors : Neighbors) (nwk : Nwk) (timeout : Duration)
    (configuration : UInt16) (now : Instant) : Bool × Neighbors :=
  match neighbors.table.findValue fun entry =>
      entry.networkAddress = nwk && entry.isEndDeviceChild with
  | some (eui64, entry) =>
    (true, { neighbors with
      table := neighbors.table.set eui64
        { entry with
          deviceTimeout := timeout
          timeoutAt := now.add timeout
          endDeviceConfiguration := configuration
          keepaliveReceived := true } })
  | none => (false, neighbors)

/-- A known device announced a new network address. -/
def updateNetworkAddress (neighbors : Neighbors) (eui64 : Eui64) (nwk : Nwk) : Neighbors :=
  match neighbors.table.get eui64 with
  | some entry =>
    if entry.networkAddress ≠ nwk then
      { neighbors with table := neighbors.table.set eui64 { entry with networkAddress := nwk } }
    else neighbors
  | none => neighbors

/-- Remove a child that attached to another parent. -/
def takeChild (neighbors : Neighbors) (eui64 : Eui64) : Option Nwk × Neighbors :=
  match neighbors.table.get eui64 with
  | none => (none, neighbors)
  | some entry =>
    if !entry.isChild then (none, neighbors)
    else (some entry.networkAddress, { neighbors with table := neighbors.table.remove eui64 })

/-- Remove the end devices that another router claimed. -/
def removeClaimedChildren (neighbors : Neighbors) :
    List Eui64 → List (Eui64 × Nwk) × Neighbors
  | [] => ([], neighbors)
  | eui64 :: claimed =>
    match neighbors.table.get eui64 with
    | none => neighbors.removeClaimedChildren claimed
    | some entry =>
      if entry.deviceType ≠ .endDevice then neighbors.removeClaimedChildren claimed
      else
        let (removed, neighbors) := removeClaimedChildren
          { neighbors with table := neighbors.table.remove eui64 } claimed
        ((eui64, entry.networkAddress) :: removed, neighbors)

/-- Another router announced its children: those that we heard a keepalive from, to be
claimed back, and the stale entries that were removed. -/
def processParentAnnce (neighbors : Neighbors) :
    List Eui64 → List Eui64 × List (Eui64 × Nwk) × Neighbors
  | [] => ([], [], neighbors)
  | eui64 :: announced =>
    match neighbors.table.get eui64 with
    | none => neighbors.processParentAnnce announced
    | some entry =>
      if entry.deviceType ≠ .endDevice then neighbors.processParentAnnce announced
      else if entry.keepaliveReceived then
        let (claimed, removed, neighbors) := neighbors.processParentAnnce announced
        (eui64 :: claimed, removed, neighbors)
      else
        let (claimed, removed, neighbors) := processParentAnnce
          { neighbors with table := neighbors.table.remove eui64 } announced
        (claimed, (eui64, entry.networkAddress) :: removed, neighbors)

/-- Remove the end device children whose deadline has passed. -/
def evictTimedOutChildren (neighbors : Neighbors) (now : Instant) :
    List (Eui64 × Nwk) × Neighbors :=
  let evicted := (neighbors.table.values.filter fun entry =>
    entry.isEndDeviceChild && entry.timeoutAt ≤ now).map
      fun entry => (entry.extendedAddress, entry.networkAddress)
  (evicted, { neighbors with
    table := evicted.foldl (fun table child => table.remove child.1) neighbors.table })

/-- Get or create the entry of a joining or rejoining child.  What a device may change
between attachments is refreshed. -/
def upsertChild (neighbors : Neighbors) (child : ChildDescriptor) (now : Instant) : Neighbors :=
  let entry := (neighbors.table.get child.eui64).getD
    { extendedAddress := child.eui64
      networkAddress := child.networkAddress
      deviceType := child.deviceType
      rxOnWhenIdle := child.rxOnWhenIdle
      timeoutAt := now.add child.deviceTimeout
      deviceTimeout := child.deviceTimeout
      relationship := .child
      lastLinkStatusTimestamp := now }
  { neighbors with
    table := neighbors.table.insert child.eui64
      { entry with
        networkAddress := child.networkAddress
        deviceType := child.deviceType
        rxOnWhenIdle := child.rxOnWhenIdle
        deviceTimeout := child.deviceTimeout
        timeoutAt := now.add child.deviceTimeout
        relationship := child.relationship } }

def remove (neighbors : Neighbors) (eui64 : Eui64) : Neighbors :=
  { neighbors with table := neighbors.table.remove eui64 }

/-- Reset the costs of the neighbors that went silent, and return them. -/
def age (neighbors : Neighbors) (now : Instant) (maxAge : Duration) : List Nwk × Neighbors :=
  let stale (entry : TableEntry) :=
    0 < entry.outgoingCost ∧ entry.lastLinkStatusTimestamp.add maxAge ≤ now
  ((neighbors.table.values.filter stale).map (·.networkAddress),
    { neighbors with
      table := neighbors.table.mapVal fun _ entry =>
        if stale entry then { entry with lqas := [], outgoingCost := 0 } else entry })

/-- Once in a link status period. -/
def decayActivity (neighbors : Neighbors) : Neighbors :=
  { neighbors with
    table := neighbors.table.mapVal fun _ entry =>
      { entry with
        routerOutboundActivity := UInt8.saturatingSub entry.routerOutboundActivity 1
        routerInboundActivity := UInt8.saturatingSub entry.routerInboundActivity 1 } }

/-- A unicast was forwarded through a neighbor. -/
def recordOutboundActivity (neighbors : Neighbors) (eui64 : Eui64) : Neighbors :=
  match neighbors.table.get eui64 with
  | some entry =>
    { neighbors with
      table := neighbors.table.set eui64
        { entry with
          routerOutboundActivity := UInt8.saturatingAdd entry.routerOutboundActivity 1 } }
  | none => neighbors

/-- A unicast of a neighbor was received for relaying. -/
def recordInboundActivity (neighbors : Neighbors) (nwk : Nwk) : Neighbors :=
  { neighbors with
    table := neighbors.table.modifyFirst (·.networkAddress = nwk) fun entry =>
      { entry with
        routerInboundActivity := UInt8.saturatingAdd entry.routerInboundActivity 1 } }

/-- A unicast to a neighbor went unacknowledged. -/
def recordTransmitFailure (neighbors : Neighbors) (eui64 : Eui64) : Neighbors :=
  match neighbors.table.get eui64 with
  | some entry =>
    { neighbors with
      table := neighbors.table.set eui64
        { entry with transmitFailure := UInt8.saturatingAdd entry.transmitFailure 1 } }
  | none => neighbors

def resetTransmitFailures (neighbors : Neighbors) : Neighbors :=
  { neighbors with
    table := neighbors.table.mapVal fun _ entry => { entry with transmitFailure := 0 } }

/-- One entry of a received link status, digested into the entry of its sender. -/
def digestLinkStatus (ownAddress : Nwk) (connected : List Nwk) (entry : TableEntry)
    (status : NwkLinkStatus) : TableEntry :=
  let entry :=
    if 0 < status.outgoingCost then
      -- the costs have three bits, so the difference does not underflow
      let connectivity := UInt8.ofNat (7 - max status.incomingCost.val status.outgoingCost.val)
      { entry with
        routerConnectivity := UInt8.saturatingAdd entry.routerConnectivity connectivity
        routerNeighborSetDiversity :=
          if status.address ∈ connected then entry.routerNeighborSetDiversity
          else UInt8.saturatingAdd entry.routerNeighborSetDiversity connectivity }
    else entry
  if status.address = ownAddress then
    { entry with outgoingCost := UInt8.ofNat status.incomingCost.val }
  else entry

/-- The entry of a router that is first heard by its link status. -/
def sibling (sourceIeee : Eui64) (sourceNwk : Nwk) (lqas : LqaSamples) (now : Instant) :
    TableEntry where
  extendedAddress := sourceIeee
  networkAddress := sourceNwk
  deviceType := .router
  rxOnWhenIdle := true
  timeoutAt := now.add noTimeout
  deviceTimeout := noTimeout
  relationship := .sibling
  lqas := lqas
  lastLinkStatusTimestamp := now
  keepaliveReceived := true

/-- Digest a link status command.  The address of the sender if its link broke. -/
def onLinkStatus (neighbors : Neighbors) (ownAddress : Nwk) (sourceIeee : Eui64)
    (sourceNwk : Nwk) (lqi : UInt8) (command : NwkLinkStatusCommand) (now : Instant) :
    Option Nwk × Neighbors :=
  let connected :=
    (neighbors.table.values.filter (0 < ·.outgoingCost)).map (·.networkAddress)
  let bufferedLqas := (neighbors.pendingLqas.get sourceNwk).getD []
  let entry := (neighbors.table.get sourceIeee).getD
    (sibling sourceIeee sourceNwk (bufferedLqas.push lqi) now)
  -- end devices do not send link statuses
  let entry :=
    if entry.deviceType = .endDevice then { entry with deviceType := .router, rxOnWhenIdle := true }
    else entry
  let previousOutgoingCost := entry.outgoingCost
  let entry := { entry with lastLinkStatusTimestamp := now }
  let entry :=
    if command.isFirstFrame then
      { entry with routerConnectivity := 0, routerNeighborSetDiversity := 0, outgoingCost := 0 }
    else entry
  let entry := command.linkStatuses.foldl (digestLinkStatus ownAddress connected) entry
  (if 0 < previousOutgoingCost ∧ entry.outgoingCost = 0 then some entry.networkAddress else none,
    { table := neighbors.table.insert sourceIeee entry
      pendingLqas := neighbors.pendingLqas.remove sourceNwk })

/-! ## Lookups that updates do not change -/

section Lookup

variable {neighbors : Neighbors}

theorem isSome_endDeviceChildEui64 {nwk : Nwk} :
    (neighbors.endDeviceChildEui64 nwk).isSome = true ↔
      ∃ eui64 entry, neighbors.table.get eui64 = some entry ∧ entry.networkAddress = nwk ∧
        entry.isEndDeviceChild = true := by
  unfold endDeviceChildEui64
  rw [Option.isSome_map]
  constructor
  · intro h
    obtain ⟨⟨eui64, entry⟩, hfound⟩ := Option.isSome_iff_exists.mp h
    obtain ⟨hget, hp⟩ := FlatMap.get_of_findValue hfound
    rw [Bool.and_eq_true, decide_eq_true_eq] at hp
    exact ⟨eui64, entry, hget, hp⟩
  · rintro ⟨eui64, entry, hget, hnwk, hchild⟩
    rw [Option.isSome_iff_ne_none]
    intro hnone
    have := FlatMap.findValue_eq_none.mp hnone eui64 entry hget
    rw [hchild, hnwk, decide_eq_true rfl] at this
    cases this

theorem endDeviceChildEui64_set {eui64 : Eui64} {entry entry' : TableEntry} {nwk : Nwk}
    (hentry : neighbors.table.get eui64 = some entry)
    (hnwk : entry'.networkAddress = entry.networkAddress)
    (hchild : entry'.isEndDeviceChild = entry.isEndDeviceChild)
    (h : (neighbors.endDeviceChildEui64 nwk).isSome = false) :
    ((Neighbors.mk (neighbors.table.set eui64 entry') neighbors.pendingLqas).endDeviceChildEui64
      nwk).isSome = false := by
  rw [Bool.eq_false_iff, ne_eq, isSome_endDeviceChildEui64] at h ⊢
  rintro ⟨other, found, hget, hfound⟩
  rw [FlatMap.get_set] at hget
  split at hget
  next =>
    cases hget
    exact h ⟨eui64, entry, hentry, hnwk ▸ hfound.1, hchild ▸ hfound.2⟩
  next => exact h ⟨other, found, hget, hfound⟩

/-- A sample of the link does not make a child. -/
theorem endDeviceChildEui64_recordLqa {nwk : Nwk} (senderNwk : Nwk) (lqi : UInt8)
    (h : (neighbors.endDeviceChildEui64 nwk).isSome = false) :
    ((neighbors.recordLqa senderNwk lqi).endDeviceChildEui64 nwk).isSome = false := by
  unfold recordLqa
  split
  next eui64 entry hfound =>
    exact endDeviceChildEui64_set (FlatMap.get_of_findValue hfound).1 rfl rfl h
  next => exact h

theorem endDeviceChildEui64_recordInboundActivity {nwk : Nwk} (sender : Nwk)
    (h : (neighbors.endDeviceChildEui64 nwk).isSome = false) :
    ((neighbors.recordInboundActivity sender).endDeviceChildEui64 nwk).isSome = false := by
  unfold recordInboundActivity FlatMap.modifyFirst
  split
  next eui64 entry hfound =>
    exact endDeviceChildEui64_set (FlatMap.get_of_findValue hfound).1 rfl rfl h
  next => exact h

end Lookup

/-- Only the initiator bit may change on a relay. -/
theorem clearEndDeviceInitiatorForRelay_eq (neighbors : Neighbors) (header : NwkHeader) :
    ∃ endDeviceInitiator, neighbors.clearEndDeviceInitiatorForRelay header =
      { header with frameControl.endDeviceInitiator := endDeviceInitiator } := by
  unfold clearEndDeviceInitiatorForRelay
  split
  next => exact ⟨header.frameControl.endDeviceInitiator, rfl⟩
  next => exact ⟨false, rfl⟩

end Neighbors

end Ziggurat
