import Ziggurat.Aps.Security
import Ziggurat.Driver.BroadcastBudget
import Ziggurat.Driver.SendSlot
import Ziggurat.Lib.Stateful
import Ziggurat.Nwk.Addresses
import Ziggurat.Nwk.NextHop
import Ziggurat.Nwk.Security
import Ziggurat.Nwk.Transactions
import Ziggurat.Sends.Sends

/-!
# The state of the stack

`zigbee_stack.rs`: the configuration of a network, the protocol state that its handlers
share, and the notifications for the client.

The state is cut by what a handler may write.  `Net` has the tables of the network layer,
the sends and the bookkeeping around them, and most handlers are `NetM` computations, which
cannot touch a key or a frame counter.  `ZigbeeStack` adds the security material of the two
layers.  A handler runs to its end before the next one begins: the driver takes its locks
one after another within a handler, but never holds one over an `await`, and every handler
is driven by the one receive loop, by the tasklet runner or by a timer task.

What a handler reads beside the state is in `Env`: the configuration, the tunables, the
clock, and the random draws.  The clock is read once for a handler.
-/

namespace Ziggurat

/-- `MAX_DEPTH`. -/
def maxDepth : UInt8 := 15

/-- `PROTOCOL_VERSION`. -/
def protocolVersion : Fin (2 ^ 4) := 2

namespace Driver

inductive EnqueueError where
  | rateLimited (retryIn : Duration)
  | payloadTooLong
  | securityUnavailable
  | routeDiscoverySuppressed
  | notStarted
  deriving DecidableEq, Repr

/-- How a transmit is treated under contention. -/
structure TxPolicy where
  priority : TxPriority
  trafficClass : TrafficClass
  deriving DecidableEq, Repr

/-- `TxPolicy::STACK_CRITICAL`. -/
def TxPolicy.stackCritical : TxPolicy := ⟨.stackCritical, .critical⟩

inductive NwkSecurityMode where
  | networkKey
  | unsecured
  deriving DecidableEq, Repr

/-- Whether a device attaches fresh or comes back. -/
inductive JoinKind where
  | new
  | rejoin
  deriving DecidableEq, Repr

/-- How an address conflict came to our attention. -/
inductive AddrConflictSource where
  /-- `Local`: we noticed it in a received frame. -/
  | locally
  /-- Another device reported it. -/
  | network
  deriving DecidableEq, Repr

structure AddressConflict where
  handledAt : Instant
  heardFromNetwork : Bool
  /-- When our own report is due, if one is owed. -/
  reportAt : Option Instant
  deriving DecidableEq, Repr

/-- The frame that a send holds.  A NWK frame is secured when it is transmitted. -/
inductive Frame where
  | nwk (nwkFrame : NwkFrame) (security : NwkSecurityMode)
  | raw (frame : Ieee802154Frame FrameBytes)
  deriving DecidableEq

/-- The send table of the driver.  No handler reads the slot of a send, so a waiter carries
nothing. -/
abbrev SendTable := Sends Frame Unit DeliveryError

abbrev SendActions := Actions Frame Unit DeliveryError

/-- What `send_unicast` is given. -/
structure Unicast where
  frame : NwkFrame
  security : NwkSecurityMode
  mode : SendMode
  policy : TxPolicy
  confirm : Confirm

/-- What `send_broadcast` is given. -/
structure Broadcast where
  frame : NwkFrame
  security : NwkSecurityMode
  policy : TxPolicy

inductive DeviceLeaveReason where
  | announced (rejoin : Bool)
  | routerReported (router : Nwk) (routerIeee : Option Eui64)
  | keepaliveTimeout
  deriving DecidableEq, Repr

inductive ZigbeeNotification where
  | receivedApsCommand (source destination : Nwk) (group : Option UInt16)
      (profileId clusterId : UInt16) (srcEp dstEp lqi : UInt8) (rssi : Int8)
      (apsEncrypted : Bool) (data : Bytes)
  | receivedGpdf (macSequenceNumber : UInt8) (sourceIeee : Option Eui64) (lqi : UInt8)
      (rssi : Int8) (data : Bytes)
  | frameCounterUpdate (frameCounter : UInt32)
  | linkKeyUpdate (ieee : Eui64) (key : Key)
  | deviceJoined (nwk : Nwk) (ieee : Eui64) (parent : Nwk) (deviceType : Option NwkDeviceType)
      (rxOnWhenIdle : Bool)
  | routeRecord (destination : Nwk) (relays : List Nwk)
  | apsFrameCounterUpdate (frameCounter : UInt32)
  | deviceLeft (nwk : Nwk) (ieee : Option Eui64) (reason : DeviceLeaveReason)
  | apsDecryptionFailure (source : Nwk) (sourceIeee : Eui64) (frameCounter : UInt32)
      (keyId : NwkSecurityHeaderKeyId)
  deriving DecidableEq

/-- `NOTIFICATION_QUEUE_CAP`. -/
def notificationQueueCap : Nat := 64

/-- A flow of several steps: what is left of it at its next step. -/
inductive Tasklet where
  /-- `run_join`, not begun. -/
  | runJoin (eui64 : Eui64) (shortAddress : Nwk)
  /-- `run_join`, awaiting the extraction of the association response. -/
  | awaitResponse (eui64 : Eui64) (shortAddress : Nwk) (response : SendId)
  /-- `deliver_key_and_announce`, not begun. -/
  | deliverKeyAndAnnounce (nwk : Nwk) (eui64 : Eui64) (joinKind : JoinKind)
  /-- `deliver_key_and_announce`, awaiting the delivery of the key transport. -/
  | awaitTransport (nwk : Nwk) (eui64 : Eui64) (keyTransport : SendId)
  deriving DecidableEq

/-- The configuration of a network. -/
structure Config where
  role : NwkDeviceType
  networkAddress : Nwk
  ieeeAddress : Eui64
  extendedPanId : Eui64
  isConcentrator : Bool
  hackIgnoreBroadcastStartupWaitPeriod : Bool := true
  hackDisableTx : Bool := false
  hackForceRouteDiscovery : Bool := false

/-- What a handler reads beside the state. -/
structure Env extends Config where
  tunables : Tunables
  now : Instant
  /-- The draw of `broadcast_jitter`. -/
  broadcastJitter : Duration
  /-- The jitter of a relayed route request. -/
  rreqJitter : Duration
  /-- The candidates for the address of a joining device. -/
  joinCandidates : List Nwk
  /-- The candidates for the new address of a child with a conflict. -/
  conflictCandidates : List Nwk
  /-- The draw for a new link key. -/
  freshKey : Key
  /-- `fp_advertised`: the radio told the device that polls that a frame awaits it. -/
  fpAdvertised : Bool

/-- A device with the default tunables, whose draws are all zero. -/
def Env.plain (role : NwkDeviceType) (networkAddress : Nwk) (ieeeAddress : Eui64) : Env where
  role := role
  networkAddress := networkAddress
  ieeeAddress := ieeeAddress
  extendedPanId := 0
  isConcentrator := false
  tunables := {}
  now := 0
  broadcastJitter := 0
  rreqJitter := 0
  joinCandidates := []
  conflictCandidates := []
  freshKey := 0
  fpAdvertised := false

/-- The state of the network layer, of the sends, and of what the handlers of both keep. -/
structure Net where
  sequenceNumber : UInt8
  neighbors : Neighbors
  routing : Routing
  broadcasts : NwkBroadcasts
  addressMap : AddressMap
  sends : SendTable
  panId : PanId
  ieee802154SequenceNumber : UInt8
  permittingJoinsUntil : Option Instant
  trustCenterJoinsUntil : Option Instant
  apsCounter : UInt8
  addressConflicts : FlatMap Nwk AddressConflict
  apsDuplicates : FlatMap SourceNumber Instant
  broadcastBudget : BroadcastBudget
  notifications : List ZigbeeNotification
  tasklets : List Tasklet

/-- A handler of the network layer. -/
abbrev NetM := StateT Net Checked

/-- The whole state. -/
structure ZigbeeStack where
  net : Net
  nwkSecurity : NwkSecurity
  apsSecurity : ApsSecurity
  lastPersistedApsCounter : UInt32

/-- A handler that may use keys. -/
abbrev StackM := StateT ZigbeeStack Checked

/-- Run a handler of the network layer on its part of the state. -/
def liftNet {α : Type} (x : NetM α) : StackM α := fun stack => do
  let (a, net) ← x stack.net
  return (a, { stack with net })

theorem liftNet_eq_ok {α : Type} {x : NetM α} {stack stack' : ZigbeeStack} {a : α} :
    liftNet x stack = .ok (a, stack') ↔
      ∃ net, x stack.net = .ok (a, net) ∧ stack' = { stack with net } := by
  unfold liftNet
  rw [Checked.bind_eq_ok]
  constructor
  · rintro ⟨⟨_, net⟩, hx, h⟩
    cases h
    exact ⟨net, hx, rfl⟩
  · rintro ⟨net, hx, rfl⟩
    exact ⟨(a, net), hx, rfl⟩

/-- The state of a stack that was just configured. -/
def ZigbeeStack.new (config : Config) (tunables : Tunables) (panId : PanId) (networkKey : Key)
    (networkKeySeqNumber : UInt8) (networkKeyTxCounter : UInt32) (tcLinkKey : Key)
    (tclkSeed : Option TclkSeed) (apsCounter : UInt8) : ZigbeeStack where
  net :=
    { sequenceNumber := 0
      neighbors := {}
      routing := {}
      broadcasts := {}
      addressMap := .new config.networkAddress config.ieeeAddress
      sends := .empty
      panId
      ieee802154SequenceNumber := 0
      permittingJoinsUntil := none
      trustCenterJoinsUntil := none
      apsCounter
      addressConflicts := .new
      apsDuplicates := .new
      broadcastBudget := .new tunables.broadcastBudgetTokens
      notifications := []
      tasklets := [] }
  nwkSecurity := .new networkKey networkKeySeqNumber networkKeyTxCounter 100
  apsSecurity := .new tcLinkKey config.ieeeAddress tclkSeed
  lastPersistedApsCounter := 0

/-- A stack that was just configured, with a network key of zero. -/
def ZigbeeStack.plain (env : Env) (tcLinkKey : Key) : ZigbeeStack :=
  .new env.toConfig env.tunables 0 0 0 0 tcLinkKey none 0

namespace Net

/-- Queue an event for the client.  A full queue loses its oldest one. -/
def pushNotification (net : Net) (notification : ZigbeeNotification) : Net :=
  { net with
    notifications := (net.notifications ++ [notification]).drop
      (net.notifications.length + 1 - notificationQueueCap) }

end Net

def pushNotification (notification : ZigbeeNotification) : NetM Unit :=
  modify (·.pushNotification notification)

/-- `next_nwk_sequence_number`. -/
def nextSequenceNumber : NetM UInt8 := do
  modify fun net => { net with sequenceNumber := net.sequenceNumber + 1 }
  return (← get).sequenceNumber

def nextApsCounter : NetM UInt8 := do
  modify fun net => { net with apsCounter := net.apsCounter + 1 }
  return (← get).apsCounter

end Driver

/-! ## Frames that we originate -/

namespace NwkFrame

def withRadius (frame : NwkFrame) (radius : UInt8) : NwkFrame :=
  { frame with nwkHeader.radius := radius }

def withSequenceNumber (frame : NwkFrame) (sequenceNumber : UInt8) : NwkFrame :=
  { frame with nwkHeader.sequenceNumber := sequenceNumber }

def withSource (frame : NwkFrame) (source : Nwk) : NwkFrame :=
  { frame with nwkHeader.source := source }

def withDestinationIeee (frame : NwkFrame) (ieee : Option Eui64) : NwkFrame :=
  { frame with
    nwkHeader.frameControl.destination := ieee.isSome
    nwkHeader.destinationIeee := ieee }

def withSourceIeee (frame : NwkFrame) (ieee : Option Eui64) : NwkFrame :=
  { frame with
    nwkHeader.frameControl.extendedSource := ieee.isSome
    nwkHeader.sourceIeee := ieee }

def withDiscoverRoute (frame : NwkFrame) (discoverRoute : NwkRouteDiscovery) : NwkFrame :=
  { frame with nwkHeader.frameControl.discoverRoute := discoverRoute }

def unsecured (frame : NwkFrame) : NwkFrame :=
  { frame with nwkHeader.frameControl.security := false }

end NwkFrame

namespace Driver

open Lib.Stateful

section

variable (env : Env)

/-- The header of a frame that we originate.  The sequence number is assigned on send. -/
def ownHeader (frameType : NwkFrameType) (destination : Nwk) (sourceIeee : Option Eui64) :
    NwkHeader where
  frameControl :=
    { frameType
      protocolVersion
      discoverRoute := .suppress
      multicast := false
      security := true
      sourceRoute := false
      destination := false
      extendedSource := sourceIeee.isSome
      endDeviceInitiator := false
      reserved1 := 0 }
  destination := destination
  source := env.networkAddress
  radius := 2 * maxDepth
  sequenceNumber := 0
  destinationIeee := none
  sourceIeee := sourceIeee
  multicastControl := none
  sourceRoute := none

def nwkCommandFrame (destination : Nwk) (command : NwkCommand) : NwkFrame where
  nwkHeader := ownHeader env .command destination (some env.ieeeAddress)
  auxHeader := none
  payload := .command command

def nwkDataFrame (destination : Nwk) (payload : Bytes) : Except EnqueueError NwkFrame :=
  match FrameBytes.fromSlice payload with
  | some bytes =>
    .ok
      { nwkHeader := ownHeader env .data destination none
        auxHeader := none
        payload := .opaqueBytes bytes }
  | none => .error .payloadTooLong

/-! ## Enqueueing

An admission to the send table returns no actions, so there is nothing to carry out. -/

/-- Every admission draws an identifier first, so one that returns had one left. -/
theorem room_of_admission {α β : Type} {net : Net} {r : β × Net}
    {use : Net → SendId × SendTable → Checked α} {rest : Net → α → NetM β}
    (h : (do
      let net ← get
      let admitted ← (net.sends.allocate >>= use net : Checked α)
      rest net admitted : NetM β) net = .ok r) :
    net.sends.nextId + 1 < 2 ^ 32 := by
  by_contra hroom
  obtain ⟨_, _, hget, h⟩ := bind_eq_ok.mp h
  cases hget
  rw [Sends.allocate, Checked.ensure, if_neg hroom] at h
  cases h

def enqueueUnicast (frame : Frame) (policy : TxPolicy) (confirm : Confirm) (nextHop : Nwk)
    (pollAddress : Option Ieee802154Address) : NetM SendId := do
  let net ← get
  let (id, _, sends) ← net.sends.enqueueUnicast
    { frame, priority := policy.priority, waiter := (), confirm, nextHop, pollAddress } env.now
    env.tunables
  set { net with sends }
  return id

/-- A unicast is admitted while there is an identifier left for it. -/
theorem enqueueUnicast_eq_ok (net : Net) (h : net.sends.nextId + 1 < 2 ^ 32) (frame : Frame)
    (policy : TxPolicy) (confirm : Confirm) (nextHop : Nwk)
    (pollAddress : Option Ieee802154Address) :
    enqueueUnicast env frame policy confirm nextHop pollAddress net =
      .ok (net.sends.nextId,
        { net with
          sends :=
            { net.sends with
              nextId := net.sends.nextId + 1
              unicasts := net.sends.unicasts.enqueue net.sends.nextId
                { frame, priority := policy.priority, waiter := (), confirm, nextHop, pollAddress }
                env.now none none env.tunables } }) := by
  rw [enqueueUnicast, bind_of_ok rfl]
  unfold Sends.enqueueUnicast
  rw [Sends.allocate_eq_ok h]
  rfl

def enqueueBroadcast (frame : Frame) (policy : TxPolicy) (schedule : Schedule) : NetM SendId := do
  let net ← get
  let (id, _, sends) ← net.sends.enqueueBroadcast
    { frame, priority := policy.priority, waiter := (), schedule } env.now env.tunables
  set { net with sends }
  return id

theorem enqueueBroadcast_eq_ok (net : Net) (h : net.sends.nextId + 1 < 2 ^ 32) (frame : Frame)
    (policy : TxPolicy) (schedule : Schedule) :
    enqueueBroadcast env frame policy schedule net =
      .ok (net.sends.nextId,
        { net with
          sends :=
            { net.sends with
              nextId := net.sends.nextId + 1
              broadcasts := net.sends.broadcasts.enqueue net.sends.nextId
                { frame, priority := policy.priority, waiter := (), schedule } env.now
                env.tunables } }) := by
  rw [enqueueBroadcast, bind_of_ok rfl]
  unfold Sends.enqueueBroadcast
  rw [Sends.allocate_eq_ok h]
  rfl

def enqueueUnroutedUnicast (frame : Frame) (priority : TxPriority) (confirm : Confirm)
    (destination : Nwk) : NetM SendId := do
  let net ← get
  let (id, _, sends) ← net.sends.enqueueUnroutedUnicast
    { frame, priority, waiter := (), confirm, destination } env.now env.tunables
  set { net with sends }
  return id

theorem enqueueUnroutedUnicast_eq_ok (net : Net) (h : net.sends.nextId + 1 < 2 ^ 32)
    (frame : Frame) (priority : TxPriority) (confirm : Confirm) (destination : Nwk) :
    enqueueUnroutedUnicast env frame priority confirm destination net =
      .ok (net.sends.nextId,
        { net with
          sends :=
            { net.sends with
              nextId := net.sends.nextId + 1
              unroutedUnicasts := net.sends.unroutedUnicasts.enqueue net.sends.nextId
                { frame, priority, waiter := (), confirm, destination } env.now
                env.tunables } }) := by
  rw [enqueueUnroutedUnicast, bind_of_ok rfl]
  unfold Sends.enqueueUnroutedUnicast
  rw [Sends.allocate_eq_ok h]
  rfl

def enqueueBroadcastCopy (broadcast : SendId) (frame : Frame) (priority : TxPriority)
    (nextHop : Nwk) (pollAddress : Option Ieee802154Address) : NetM Unit := do
  let net ← get
  let (_, _, sends) ← net.sends.enqueueBroadcastCopy broadcast
    { frame, priority, waiter := (), confirm := .onHandoff, nextHop, pollAddress } env.now
    env.tunables
  set { net with sends }

theorem enqueueBroadcastCopy_eq_ok (net : Net) (h : net.sends.nextId + 1 < 2 ^ 32)
    (broadcast : SendId) (frame : Frame) (priority : TxPriority) (nextHop : Nwk)
    (pollAddress : Option Ieee802154Address) :
    enqueueBroadcastCopy env broadcast frame priority nextHop pollAddress net =
      .ok ((),
        { net with
          sends :=
            { net.sends with
              nextId := net.sends.nextId + 1
              unicasts := net.sends.unicasts.enqueue net.sends.nextId
                { frame, priority, waiter := (), confirm := .onHandoff, nextHop, pollAddress }
                env.now none (some broadcast) env.tunables } }) := by
  rw [enqueueBroadcastCopy, bind_of_ok rfl]
  unfold Sends.enqueueBroadcastCopy
  rw [Sends.allocate_eq_ok h]
  rfl

/-- One more than a retry count, in the `u8` arithmetic of the tunables. -/
def copies (retries : UInt8) : Checked Nat := do
  Checked.ensure (retries.toNat + 1 < 2 ^ 8) .overflow
  return retries.toNat + 1

/-! ## Route discovery -/

def broadcastRouteRequest (frame : NwkFrame) (attempts : Nat) (initialDelay : Duration) :
    NetM Unit := do
  let _ ← enqueueBroadcast env (.nwk frame .networkKey) ⟨.userNormal, .critical⟩
    (.fixedInterval env.tunables.rreqRetryInterval attempts (env.now.add initialDelay))

/-- The request that starts a discovery. -/
def routeRequestFrame (destination : Nwk) (routeRequestIdentifier : RouteRequestId)
    (destinationEui64 : Option Eui64) : NwkFrame :=
  nwkCommandFrame env broadcastAllRoutersAndCoordinator <| .routeRequest
    { manyToOne := .notManyToOne
      routeRequestIdentifier
      destinationAddress := destination
      pathCost := 0
      destinationEui64 }

/-- Begin or restart the discovery of a route. -/
def startRouteDiscovery (destination : Nwk) : NetM Unit := do
  let net ← get
  let (routeRequestIdentifier, routing) := net.routing.beginDiscovery env.networkAddress
    destination env.now env.tunables.routeDiscoveryTime
  set { net with routing }
  let frame := routeRequestFrame env destination routeRequestIdentifier
    (net.addressMap.eui64For destination)
  let frame := frame.withSequenceNumber (← nextSequenceNumber)
  broadcastRouteRequest env frame (← copies env.tunables.initialRreqRetries) 0

/-! ## Unicasts -/

def nextHopPolicy : NextHop.Policy where
  isConcentrator := env.isConcentrator
  forceRouteDiscovery := env.hackForceRouteDiscovery
  maxSourceRoute := env.tunables.maxSourceRoute

/-- The address that a sleepy child polls under. -/
def pollAddress (neighbors : Neighbors) (nextHop : Nwk) : Option Ieee802154Address :=
  (neighbors.sleepyChildEui64 nextHop).map .eui64

/-- Send a unicast: assign its sequence number, resolve its next hop and enqueue it, or hold
it until its route is known. -/
def sendUnicast (send : Unicast) : NetM (Except EnqueueError SendId) := do
  let destination := send.frame.nwkHeader.destination
  Checked.ensure (destination < broadcastLowPowerRouters) .debugAssert
  let frame := send.frame.withSequenceNumber (← nextSequenceNumber)
  let net ← get
  let (resolved, frame) ←
    NextHop.resolve net.routing net.neighbors frame send.mode (nextHopPolicy env)
  match resolved with
  | .resolved nextHop =>
    return .ok (← enqueueUnicast env (.nwk frame send.security) send.policy send.confirm nextHop
      (pollAddress net.neighbors nextHop))
  | .needDiscovery =>
    let id ← enqueueUnroutedUnicast env (.nwk frame send.security) send.policy.priority
      send.confirm destination
    -- the first unrouted send to a destination starts its discovery
    if !net.sends.hasUnrouted destination then startRouteDiscovery env destination
    return .ok id
  | .discard => return .error .routeDiscoverySuppressed

/-! ## Broadcasts -/

/-- Copies of a broadcast to all devices for the children that sleep. -/
def maybeFanOutBroadcastToSleepyChildren (frame : NwkFrame) (security : NwkSecurityMode)
    (copyOf : Option SendId) : NetM Unit := do
  if frame.nwkHeader.destination = broadcastAllDevices then
    let children := (← get).neighbors.sleepyChildren.filter (·.2 ≠ frame.nwkHeader.source)
    children.forM fun (childEui64, childNwk) =>
      match copyOf with
      | some broadcast =>
        enqueueBroadcastCopy env broadcast (.nwk frame security) .userNormal childNwk
          (some (.eui64 childEui64))
      | none => do
        -- the class of the copies does not reach the send table
        let _ ← enqueueUnicast env (.nwk frame security) ⟨.userNormal, .forwarding⟩ .onHandoff
          childNwk (some (.eui64 childEui64))

/-- Send a broadcast, retransmitted until its quorum is heard. -/
def sendBroadcast (send : Broadcast) : NetM (Except EnqueueError SendId) := do
  let net ← get
  let (admission, broadcastBudget) := net.broadcastBudget.take send.policy.trafficClass env.now
    env.tunables.broadcastBudgetTokens env.tunables.broadcastTokenRefill
    env.tunables.broadcastCriticalReserve env.tunables.broadcastForwardingReserve
  set { net with broadcastBudget }
  match admission with
  | .defer retryIn => return .error (.rateLimited retryIn)
  | .admitted =>
    let frame := send.frame.withSequenceNumber (← nextSequenceNumber)
    let source := frame.nwkHeader.source
    let sequenceNumber := frame.nwkHeader.sequenceNumber
    modify fun net =>
      { net with
        broadcasts := net.broadcasts.recordTransmission source sequenceNumber
          net.neighbors.expectedBroadcastRelayers env.now env.tunables.broadcastDeliveryTime }
    let id ← enqueueBroadcast env (.nwk frame send.security) send.policy
      (.passiveAck (source, sequenceNumber) (← copies env.tunables.maxBroadcastRetries) env.now)
    maybeFanOutBroadcastToSleepyChildren env frame send.security (some id)
    return .ok id

end

end Driver

end Ziggurat
