import Ziggurat.FlatMap
import Ziggurat.Nwk.Frame

/-!
# Routing

`nwk/routing.rs`: the route table, the table of the route discoveries under way, and the
route records of the devices that a concentrator reaches by source routes.

A route request is known by its originator and the identifier that the originator gave it.
The discovery entry has the cheapest way back that any copy took, and the route table has
the cheapest way back of all requests: an active route is only replaced by a strictly
cheaper one.
-/

namespace Ziggurat

abbrev RouteRequestId := UInt8

/-- `UNKNOWN_NEXT_HOP`. -/
def unknownNextHop : Nwk := 0xFFFF

namespace Routing

inductive Status where
  | active
  | discoveryUnderway
  | discoveryFailed
  | inactive
  deriving DecidableEq, Repr

structure TableEntry where
  destination : Nwk
  status : Status
  noRouteCache : Bool := false
  manyToOne : Bool := false
  routeRecordRequired : Bool := false
  nextHopAddress : Nwk
  /-- The cost of the route.  255 if it is not known. -/
  pathCost : UInt8 := 255
  totalUsageCount : UInt32 := 0
  recentActivity : UInt8 := 0
  deriving DecidableEq, Repr

namespace TableEntry

def new (destination : Nwk) (status : Status) (nextHopAddress : Nwk) : TableEntry :=
  { destination, status, nextHopAddress }

/-- Route through a next hop, unless the route is active and no dearer.  Whether the next
hop changed. -/
def considerRoute (entry : TableEntry) (nextHop : Nwk) (cost : UInt8) : Bool × TableEntry :=
  if entry.status = .active ∧ entry.pathCost ≤ cost then (false, entry)
  else
    (¬(entry.status = .active ∧ entry.nextHopAddress = nextHop),
      { entry with status := .active, nextHopAddress := nextHop, pathCost := cost })

end TableEntry

structure DiscoveryEntry where
  routeRequestId : RouteRequestId
  sourceAddress : Nwk
  /-- The neighbor that relayed the cheapest copy of the request. -/
  senderAddress : Nwk
  /-- The cost from the source of the request to this device. -/
  forwardCost : UInt8
  /-- The cost from this device to the destination. -/
  residualCost : UInt8
  expirationTime : Instant
  destinationAddress : Nwk
  deriving DecidableEq, Repr

/-- The route of a frame that we originate. -/
inductive Route where
  | nextHop (nextHop : Nwk)
  | sourceRouted (relays : List Nwk)
  deriving DecidableEq, Repr

inductive RouteReplyDisposition where
  | drop
  | established
  | relay (nextHop : Nwk) (pathCost : UInt8)
  deriving DecidableEq, Repr

structure RouteUpdate where
  destination : Nwk
  nextHop : Nwk
  pathCost : UInt8
  deriving DecidableEq, Repr

structure RouteRequestOutcome where
  accepted : Bool
  update : Option RouteUpdate
  deriving DecidableEq, Repr

structure RouteReplyOutcome where
  disposition : RouteReplyDisposition
  update : Option RouteUpdate
  deriving DecidableEq, Repr

end Routing

open Routing in
structure Routing where
  mtorrRouteErrors : UInt8 := 0
  mtorrDeliveryFailures : UInt8 := 0
  routeTable : FlatMap Nwk TableEntry := .new
  discoveryTable : FlatMap SourceNumber DiscoveryEntry := .new
  routeRecordTable : FlatMap Nwk (List Nwk) := .new
  requestSequenceNumber : RouteRequestId := 0

namespace Routing

/-! ## The signals that call for an early many-to-one request -/

/-- Whether the route errors reach the threshold. -/
def noteRouteError (routing : Routing) (threshold : UInt8) : Bool × Routing :=
  let errors := UInt8.saturatingAdd routing.mtorrRouteErrors 1
  (threshold ≤ errors, { routing with mtorrRouteErrors := errors })

/-- Whether the delivery failures reach the threshold. -/
def noteDeliveryFailure (routing : Routing) (threshold : UInt8) : Bool × Routing :=
  let failures := UInt8.saturatingAdd routing.mtorrDeliveryFailures 1
  (threshold ≤ failures, { routing with mtorrDeliveryFailures := failures })

/-! ## The route table -/

def routeStatus (routing : Routing) (destination : Nwk) : Option Status :=
  (routing.routeTable.get destination).map (·.status)

/-- The next hop of an active route. -/
def nextHop (routing : Routing) (destination : Nwk) : Checked (Option Nwk) :=
  match (routing.routeTable.get destination).filter (·.status = .active) with
  | none => .ok none
  | some entry => do
    Checked.ensure (entry.nextHopAddress ≠ unknownNextHop)
      (.explicit "assertion failed: entry.next_hop_address != UNKNOWN_NEXT_HOP")
    return some entry.nextHopAddress

/-- Rewrite the entry of a destination that has one. -/
def modifyRoute (routing : Routing) (destination : Nwk) (f : TableEntry → TableEntry) : Routing :=
  match routing.routeTable.get destination with
  | some entry => { routing with routeTable := routing.routeTable.set destination (f entry) }
  | none => routing

def markDiscoveryFailed (routing : Routing) (destination : Nwk) : Routing :=
  routing.modifyRoute destination fun entry => { entry with status := .discoveryFailed }

def recordUsage (routing : Routing) (destination : Nwk) : Routing :=
  routing.modifyRoute destination fun entry =>
    { entry with
      recentActivity := UInt8.saturatingAdd entry.recentActivity 1
      totalUsageCount := UInt32.saturatingAdd entry.totalUsageCount 1 }

/-- Once in a link status period. -/
def decayActivity (routing : Routing) : Routing :=
  { routing with
    routeTable := routing.routeTable.mapVal fun _ entry =>
      if entry.status = .active then
        { entry with recentActivity := UInt8.saturatingSub entry.recentActivity 1 }
      else entry }

/-- The routes through a dead next hop become inactive. -/
def invalidateVia (routing : Routing) (nextHop : Nwk) : Routing :=
  { routing with
    routeTable := routing.routeTable.mapVal fun _ entry =>
      if entry.status = .active ∧ entry.nextHopAddress = nextHop then
        { entry with status := .inactive }
      else entry }

def removeRoute (routing : Routing) (destination : Nwk) : Bool × Routing :=
  (routing.routeTable.containsKey destination,
    { routing with routeTable := routing.routeTable.remove destination })

/-- A route that the client kept over a restart. -/
def restoreRoute (routing : Routing) (destination nextHop : Nwk) (pathCost : UInt8) : Routing :=
  { routing with
    routeTable := routing.routeTable.insert destination
      { TableEntry.new destination .active nextHop with pathCost } }

/-! ## Route records -/

/-- The records of the relays of a path: what is left of the path at each of them. -/
def storeRelays (table : FlatMap Nwk (List Nwk)) : List Nwk → FlatMap Nwk (List Nwk)
  | [] => table
  | relay :: relays => storeRelays (table.insert relay relays) relays

/-- Store the path of a route record, and that of each relay on it.  Whether the path of
the source changed. -/
def storeRouteRecord (routing : Routing) (source : Nwk) (relays : List Nwk) : Bool × Routing :=
  let table := storeRelays routing.routeRecordTable relays
  (table.get source ≠ some relays, { routing with routeRecordTable := table.insert source relays })

def removeRouteRecord (routing : Routing) (destination : Nwk) : Bool × Routing :=
  (routing.routeRecordTable.containsKey destination,
    { routing with routeRecordTable := routing.routeRecordTable.remove destination })

/-- A source-routed frame shows that its concentrator has our route record. -/
def noteSourceRoutedFrame (routing : Routing) (concentrator : Nwk) : Routing :=
  routing.modifyRoute concentrator fun entry =>
    if !entry.noRouteCache then { entry with routeRecordRequired := false } else entry

/-- The route of a frame that we originate: a route record wins over the route table. -/
def routeTo (routing : Routing) (destination : Nwk) (maxSourceRoute : UInt8) :
    Checked (Option Route) :=
  let fallback := do return (← routing.nextHop destination).map Route.nextHop
  match routing.routeRecordTable.get destination with
  | some [] => .ok (some (.nextHop destination))
  | some (relay :: relays) =>
    if (relay :: relays).length < maxSourceRoute.toNat then
      .ok (some (.sourceRouted (relay :: relays)))
    else fallback
  | none => fallback

/-! ## Discoveries -/

/-- Remove the discoveries that have expired.  A route that only waited for one of them is
removed with it, unless another discovery is under way for it. -/
def expireDiscoveries (routing : Routing) (now : Instant) : Routing :=
  let expired := (routing.discoveryTable.values.filter (·.expirationTime ≤ now)).map
    (·.destinationAddress)
  let discoveryTable := routing.discoveryTable.retain fun _ entry => now < entry.expirationTime
  { routing with
    discoveryTable
    routeTable := expired.foldl (fun table destination =>
      if discoveryTable.values.any (·.destinationAddress = destination) then table
      else if (table.get destination).any (·.status = .discoveryUnderway) then
        table.remove destination
      else table) routing.routeTable }

/-- The entry of a destination, or a blank one. -/
def entryOrNew (routing : Routing) (destination : Nwk) : TableEntry :=
  (routing.routeTable.get destination).getD
    (TableEntry.new destination .inactive unknownNextHop)

/-- The entry of a request that we originate. -/
def ownDiscovery (ownAddress destination : Nwk) (requestId : RouteRequestId) (now : Instant)
    (routeDiscoveryTime : Duration) : DiscoveryEntry where
  routeRequestId := requestId
  sourceAddress := ownAddress
  senderAddress := unknownNextHop
  forwardCost := 0
  residualCost := 255
  expirationTime := now.add routeDiscoveryTime
  destinationAddress := destination

/-- Begin the discovery of a route.  The identifier of its request. -/
def beginDiscovery (routing : Routing) (ownAddress destination : Nwk) (now : Instant)
    (routeDiscoveryTime : Duration) : RouteRequestId × Routing :=
  let routing := routing.expireDiscoveries now
  let requestId := routing.requestSequenceNumber + 1
  let key := SourceNumber.mk ownAddress requestId
  (requestId,
    { routing with
      routeTable := routing.routeTable.insert destination
        { routing.entryOrNew destination with status := .discoveryUnderway }
      requestSequenceNumber := requestId
      -- an entry that the identifier had before stays
      discoveryTable := routing.discoveryTable.insert key
        ((routing.discoveryTable.get key).getD
          (ownDiscovery ownAddress destination requestId now routeDiscoveryTime)) })

/-- Begin a many-to-one advertisement.  Its entry only drops the copies that come back. -/
def beginManyToOneAdvertisement (routing : Routing) (ownAddress : Nwk) (now : Instant)
    (routeDiscoveryTime : Duration) : RouteRequestId × Routing :=
  let requestId := routing.requestSequenceNumber + 1
  let routing := { routing with requestSequenceNumber := requestId }.expireDiscoveries now
  (requestId,
    { routing with
      discoveryTable := routing.discoveryTable.insert (SourceNumber.mk ownAddress requestId)
        (ownDiscovery ownAddress broadcastAllRoutersAndCoordinator requestId now
          routeDiscoveryTime) })

/-- The discovery entry after a copy of the request arrived, unless the copy is dearer. -/
def offerRouteRequest (known : Option DiscoveryEntry) (originator : Nwk)
    (requestId : RouteRequestId) (destination sender : Nwk) (updatedPathCost : UInt8)
    (now : Instant) (routeDiscoveryTime : Duration) : Option DiscoveryEntry :=
  match known with
  | some entry =>
    if entry.forwardCost < updatedPathCost then none
    else some { entry with forwardCost := updatedPathCost, senderAddress := sender }
  | none =>
    some
      { routeRequestId := requestId
        sourceAddress := originator
        senderAddress := sender
        forwardCost := updatedPathCost
        residualCost := 255
        expirationTime := now.add routeDiscoveryTime
        destinationAddress := destination }

/-- A many-to-one request marks its originator as a concentrator. -/
def TableEntry.noteManyToOne (entry : TableEntry) (manyToOne : NwkRouteRequestManyToOne) :
    TableEntry :=
  if manyToOne ≠ .notManyToOne then
    { entry with
      manyToOne := true
      routeRecordRequired := true
      noRouteCache := manyToOne = .manyToOneSenderDoesntSupportRouteRecordTable }
  else entry

/-- Digest a received route request: only a copy that is no dearer than the known ones is
accepted, and the route back to the originator runs through its sender. -/
def acceptRouteRequest (routing : Routing) (originator : Nwk) (requestId : RouteRequestId)
    (destination sender : Nwk) (updatedPathCost : UInt8) (manyToOne : NwkRouteRequestManyToOne)
    (now : Instant) (routeDiscoveryTime : Duration) : RouteRequestOutcome × Routing :=
  let routing := routing.expireDiscoveries now
  let key := SourceNumber.mk originator requestId
  match offerRouteRequest (routing.discoveryTable.get key) originator requestId destination
      sender updatedPathCost now routeDiscoveryTime with
  | none => ({ accepted := false, update := none }, routing)
  | some discovery =>
    let (routeChanged, entry) :=
      (routing.entryOrNew originator).considerRoute sender updatedPathCost
    ({ accepted := true
       update :=
        if routeChanged then
          some { destination := originator, nextHop := sender, pathCost := updatedPathCost }
        else none },
      { routing with
        discoveryTable := routing.discoveryTable.insert key discovery
        routeTable := routing.routeTable.insert originator (entry.noteManyToOne manyToOne) })

/-- Before a request is relayed: a route that is not active waits for the discovery. -/
def noteRelayedDiscovery (routing : Routing) (destination : Nwk) : Routing :=
  { routing with
    routeTable := routing.routeTable.insert destination
      (match routing.routeTable.get destination with
        | some entry =>
          if entry.status ≠ .active then { entry with status := .discoveryUnderway } else entry
        | none => TableEntry.new destination .discoveryUnderway unknownNextHop) }

/-- Digest a received route reply. -/
def acceptRouteReply (routing : Routing) (ownAddress originator : Nwk)
    (requestId : RouteRequestId) (responder sender : Nwk) (updatedPathCost : UInt8) :
    RouteReplyOutcome × Routing :=
  let dropped := { disposition := .drop, update := none }
  let key := SourceNumber.mk originator requestId
  match routing.discoveryTable.get key with
  | none => (dropped, routing)
  | some discovery =>
    match routing.routeTable.get responder with
    | none => (dropped, routing)
    | some entry =>
      let routed :=
        { routing with
          routeTable := routing.routeTable.set responder
            { entry with
              status := .active, nextHopAddress := sender, pathCost := updatedPathCost }
          discoveryTable := routing.discoveryTable.set key
            { discovery with residualCost := updatedPathCost } }
      if originator = ownAddress then
        if entry.status = .active ∧ discovery.residualCost ≤ updatedPathCost then
          (dropped, routing)
        else
          ({ disposition := .established
             update :=
              if entry.status = .active ∧ entry.nextHopAddress = sender then none
              else some
                { destination := responder, nextHop := sender, pathCost := updatedPathCost } },
            routed)
      else if discovery.residualCost ≤ updatedPathCost then (dropped, routing)
      else
        -- relaying the reply also establishes the route back to the originator
        let (changed, reverse) := (routed.entryOrNew originator).considerRoute
          discovery.senderAddress discovery.forwardCost
        ({ disposition := .relay discovery.senderAddress updatedPathCost
           update :=
            if changed then
              some
                { destination := originator
                  nextHop := discovery.senderAddress
                  pathCost := discovery.forwardCost }
            else none },
          { routed with routeTable := routed.routeTable.insert originator reverse })

end Routing

end Ziggurat
