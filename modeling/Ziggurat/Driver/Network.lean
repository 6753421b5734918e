import Ziggurat.Driver.Stack
import Ziggurat.Nwk.LinkStatus

/-!
# The handlers of the network layer

The handlers of `nwk.rs`, `route.rs`, `neighbor.rs`, `indirect.rs` and `joining.rs` under
`zigbee_stack` that touch no key: relaying, routing, neighbors, address conflicts, and the
devices that rejoin and leave.  `handleDecryptedFrame` dispatches to them.

Two handlers are cut in two, so that what they decide can be studied without what they
send: `answerRouteRequest` and `relayNextHop` decide, `handleRouteRequest` and
`relayUnicastNwkFrame` send what they decided.
-/

namespace Ziggurat

/-- The time that an enumeration value stands for: 10 seconds, or a power of two of minutes. -/
def EndDeviceTimeout.duration : EndDeviceTimeout → Duration
  | .seconds10 => 10000000
  | timeout => 60000000 * 2 ^ (EndDeviceTimeout.enum.disc timeout).val

namespace Driver

section

variable (env : Env)

/-! ## Neighbors -/

/-- Reset the links that went silent, and the routes through them. -/
def maybeAgeNeighbors : NetM Unit :=
  modify fun net =>
    let maxAge := env.tunables.routerAgeLimit.toNat * env.tunables.linkStatusPeriod
    let (stale, neighbors) := net.neighbors.age env.now maxAge
    { net with neighbors, routing := stale.foldl Routing.invalidateVia net.routing }

def maybeRecomputeLqa (senderNwk : Nwk) (lqi : UInt8) : NetM Unit :=
  modify fun net => { net with neighbors := net.neighbors.recordLqa senderNwk lqi }

def handleLinkStatus (frame : NwkFrame) (command : NwkLinkStatusCommand) (lqi : UInt8) :
    NetM Unit := do
  maybeAgeNeighbors env
  match frame.nwkHeader.sourceIeee with
  | none => return
  | some sourceIeee =>
    modify fun net =>
      let (lostLink, neighbors) := net.neighbors.onLinkStatus env.networkAddress sourceIeee
        frame.nwkHeader.source lqi command env.now
      { net with neighbors, routing := lostLink.elim net.routing net.routing.invalidateVia }

/-! ## Failed sends -/

/-- Count a route failure towards an early many-to-one request. -/
def noteRouteError : NetM Unit := do
  if env.isConcentrator then
    modify fun net =>
      { net with routing := (net.routing.noteRouteError env.tunables.mtorrRouteErrorThreshold).2 }

def noteDeliveryFailure : NetM Unit := do
  if env.isConcentrator then
    modify fun net =>
      { net with
        routing :=
          (net.routing.noteDeliveryFailure env.tunables.mtorrDeliveryFailureThreshold).2 }

def invalidateRoutesVia (nextHop : Nwk) : NetM Unit :=
  modify fun net => { net with routing := net.routing.invalidateVia nextHop }

/-- A relayed frame did not get through: tell its originator. -/
def handleRelayFailure (frame : NwkFrame) (nextHop : Nwk) : NetM Unit := do
  invalidateRoutesVia nextHop
  let source := frame.nwkHeader.source
  let destinationIeee := (← get).addressMap.eui64For source
  let report := nwkCommandFrame env source <| .networkStatus
    { statusCode :=
        if frame.nwkHeader.sourceRoute.isSome then .sourceRouteFailure else .linkFailure
      networkAddress := frame.nwkHeader.destination }
  let _ ← sendUnicast env
    { frame := (report.withDestinationIeee destinationIeee).withDiscoverRoute .enable
      security := .networkKey
      mode := .route .stackDecides
      policy := .stackCritical
      confirm := .onHandoff }

/-- A unicast used up its attempts: the next hop is dead. -/
def handleUnicastSendFailure (frame : NwkFrame) (nextHop : Nwk) : NetM Unit := do
  if frame.nwkHeader.source ≠ env.networkAddress then handleRelayFailure env frame nextHop
  else
    invalidateRoutesVia nextHop
    modify fun net =>
      { net with routing := (net.routing.removeRouteRecord frame.nwkHeader.destination).2 }
    if ((← get).neighbors.sleepyChildEui64 nextHop).isNone then noteDeliveryFailure env

/-- Carry out what a mutation of the send table calls for.  The verdicts reach their slots,
which no handler reads. -/
def runSendActions (actions : SendActions) : NetM Unit :=
  actions.forM fun
    | .settled _ _ (.nwk frame _) (some nextHop) => handleUnicastSendFailure env frame nextHop
    | _ => pure ()

/-- Fail the frames that await the poll of a device that is no child any more. -/
def dropIndirectTransactions (eui64 : Option Eui64) (nwk : Nwk) : NetM Unit := do
  let net ← get
  let (sends, actions) ← net.sends.dropIndirectUnicasts eui64 nwk
  set { net with sends }
  runSendActions env actions

def removeRoute (nwk : Nwk) : NetM Unit :=
  modify fun net => { net with routing := (net.routing.removeRoute nwk).2 }

/-! ## Address conflicts -/

/-- The response to a rejoin, secured as the request was. -/
def sendRejoinResponse (destination : Nwk) (destinationIeee : Eui64) (assigned : Nwk)
    (status : Nwk802154AssociationStatus) (secured : Bool) : NetM Unit := do
  let response := nwkCommandFrame env destination <| .rejoinResponse
    { networkAddress := assigned, rejoinStatus := status }
  let response := (response.withRadius 1).withDestinationIeee (some destinationIeee)
  let _ ← sendUnicast env
    { frame := if secured then response else response.unsecured
      security := if secured then .networkKey else .unsecured
      mode := .direct
      policy := .stackCritical
      confirm := .onHandoff }

def generateUnusedNetworkAddress : NetM Nwk := do
  let net ← get
  net.addressMap.generateUnused net.neighbors env.conflictCandidates

/-- Move an end device child away from an address that is in conflict. -/
def reassignChildAddress (eui64 : Eui64) (oldAddress : Nwk) : NetM Unit := do
  let newAddress ← generateUnusedNetworkAddress env
  sendRejoinResponse env oldAddress eui64 newAddress .associationSuccessful true

/-- Two devices use one address. -/
def handleAddressConflict (address : Nwk) (source : AddrConflictSource) : NetM Unit := do
  let net ← get
  let window := env.tunables.broadcastDeliveryTime
  match (net.addressConflicts.get address).filter fun conflict =>
      env.now < conflict.handledAt.add window with
  | some conflict =>
    set { net with
      addressConflicts := net.addressConflicts.set address
        { conflict with
          heardFromNetwork := conflict.heardFromNetwork || source = AddrConflictSource.network } }
  | none =>
    let live := net.addressConflicts.retain fun _ conflict =>
      env.now < conflict.handledAt.add (2 * window)
    set { net with
      addressConflicts := live.insert address
        { handledAt := env.now
          heardFromNetwork := source = AddrConflictSource.network
          reportAt :=
            if source = AddrConflictSource.locally then some (env.now.add env.broadcastJitter)
            else none } }
    -- a coordinator never changes its address
    if address ≠ env.networkAddress then
      match net.neighbors.endDeviceChildEui64 address with
      | some childEui64 => reassignChildAddress env childEui64 address
      | none =>
        modify fun net =>
          { net with
            addressMap := net.addressMap.forgetAddress address
            routing := (net.routing.removeRoute address).2 }

def updateNwkEui64Mapping (nwk : Nwk) (eui64 : Eui64) : NetM Unit := do
  let net ← get
  let (conflict, addressMap) := net.addressMap.updateMapping eui64 nwk
  set { net with addressMap }
  if conflict then handleAddressConflict env nwk .locally

/-! ## Routing -/

def handleRouteReply (frame : NwkFrame) (command : NwkRouteReplyCommand) : NetM Unit := do
  let net ← get
  match net.neighbors.link frame.nwkHeader.source with
  | none => return
  | some senderLink =>
    if senderLink.outgoingCost ≠ 0 then
      let (outcome, routing) := net.routing.acceptRouteReply env.networkAddress
        command.originatorNwk command.routeRequestIdentifier command.responderNwk
        frame.nwkHeader.source command.pathCost
      set { net with routing }
      match outcome.disposition with
      | .drop | .established => return
      | .relay nextHop pathCost =>
        match net.neighbors.link nextHop with
        | none => return
        | some nextHopLink =>
          let relayed := nwkCommandFrame env nextHop <| .routeReply
            { command with
              pathCost := UInt8.saturatingAdd pathCost
                (max nextHopLink.incomingCost nextHopLink.outgoingCost) }
          let relayed := relayed.withRadius (max (UInt8.saturatingSub frame.nwkHeader.radius 1) 1)
          let _ ← sendUnicast env
            { frame := relayed.withDestinationIeee (some nextHopLink.eui64)
              security := .networkKey
              mode := .direct
              policy := .stackCritical
              confirm := .onHandoff }

/-- What a route request calls for. -/
inductive RouteRequestAnswer where
  | nothing
  | reply (frame : NwkFrame)
  | relay (frame : NwkFrame)

/-- Who answers an accepted request: us, for ourselves or for an end device child. -/
def responderEui64 (neighbors : Neighbors) (command : NwkRouteRequestCommand) : Option Eui64 :=
  if command.manyToOne ≠ .notManyToOne then none
  else if command.destinationAddress = env.networkAddress ∨
      command.destinationEui64 = some env.ieeeAddress then some env.ieeeAddress
  else neighbors.endDeviceChildEui64 command.destinationAddress

/-- The decision of `handle_route_request`: the answer, and the tables after it. -/
def answerRouteRequest (neighbors : Neighbors) (routing : Routing) (frame : NwkFrame)
    (command : NwkRouteRequestCommand) (senderNwk : Nwk) : RouteRequestAnswer × Routing :=
  match neighbors.link senderNwk with
  | none => (.nothing, routing)
  | some senderLink =>
    if senderLink.outgoingCost = 0 then (.nothing, routing)
    else
      let contributingPathCost := max senderLink.outgoingCost senderLink.incomingCost
      let updatedPathCost := UInt8.saturatingAdd command.pathCost contributingPathCost
      let (outcome, routing) := routing.acceptRouteRequest frame.nwkHeader.source
        command.routeRequestIdentifier command.destinationAddress senderNwk updatedPathCost
        command.manyToOne env.now env.tunables.routeDiscoveryTime
      if !outcome.accepted then (.nothing, routing)
      else match responderEui64 env neighbors command with
        | some responder =>
          let reply := nwkCommandFrame env senderNwk <| .routeReply
            { routeRequestIdentifier := command.routeRequestIdentifier
              originatorNwk := frame.nwkHeader.source
              responderNwk := command.destinationAddress
              pathCost := contributingPathCost
              originatorEui64 := frame.nwkHeader.sourceIeee
              responderEui64 := some responder }
          (.reply (reply.withDestinationIeee (some senderLink.eui64)), routing)
        | none =>
          let routing :=
            if command.manyToOne = .notManyToOne then
              routing.noteRelayedDiscovery command.destinationAddress
            else routing
          let rebroadcastRadius := UInt8.saturatingSub frame.nwkHeader.radius 1
          if rebroadcastRadius = 0 then (.nothing, routing)
          else
            -- only the path cost and the radius change
            let relayed := nwkCommandFrame env frame.nwkHeader.destination <| .routeRequest
              { command with pathCost := updatedPathCost }
            (.relay ((((relayed.withSource frame.nwkHeader.source).withSourceIeee
              frame.nwkHeader.sourceIeee).withRadius rebroadcastRadius).withSequenceNumber
                frame.nwkHeader.sequenceNumber), routing)

def handleRouteRequest (frame : NwkFrame) (command : NwkRouteRequestCommand) (senderNwk : Nwk) :
    NetM Unit := do
  let net ← get
  let (answer, routing) :=
    answerRouteRequest env net.neighbors net.routing frame command senderNwk
  set { net with routing }
  match answer with
  | .nothing => return
  | .reply reply =>
    let _ ← sendUnicast env
      { frame := reply
        security := .networkKey
        mode := .direct
        policy := .stackCritical
        confirm := .onHandoff }
  | .relay relayed =>
    broadcastRouteRequest env relayed (← copies env.tunables.rreqRetries) env.rreqJitter

def handleNetworkStatus (command : NwkNetworkStatusCommand) : NetM Unit := do
  match command.statusCode with
  | .legacyNoRouteAvailable | .legacyLinkFailure | .linkFailure | .sourceRouteFailure =>
    removeRoute command.networkAddress
    if command.statusCode = .sourceRouteFailure then
      modify fun net =>
        { net with routing := (net.routing.removeRouteRecord command.networkAddress).2 }
    noteRouteError env
  | .manyToOneRouteFailure => noteRouteError env
  | .addressConflict => handleAddressConflict env command.networkAddress .network
  | _ => return

def handleRouteRecord (frame : NwkFrame) (command : NwkRouteRecordCommand) : NetM Unit := do
  let net ← get
  let source := frame.nwkHeader.source
  let (changed, routing) := net.routing.storeRouteRecord source command.relays
  set { net with routing }
  if changed then pushNotification (.routeRecord source command.relays)

/-! ## Relaying -/

/-- The route record command with our address, or nothing if it may not be relayed. -/
def relayPayload (payload : NwkPayload) : Option NwkPayload :=
  match payload with
  | .command (.routeRecord record) =>
    if env.tunables.maxSourceRoute.toNat ≤ record.relays.length then none
    else some (.command (.routeRecord ⟨record.relays ++ [env.networkAddress]⟩))
  | .command (.unparsed raw) =>
    -- a route record that did not parse cannot have our address appended
    if raw.bytes.head? = some 0x05 then none else some payload
  | _ => some payload

/-- The next hop of a source route and what is left of the route, unless it does not run
through us. -/
def relaySourceRoute (sourceRoute : NwkSourceRoute) (destination : Nwk) :
    Checked (Option (Nwk × NwkSourceRoute)) := do
  let index := sourceRoute.relayIndex.toNat
  if index = 0 then return some (destination, sourceRoute)
  else if sourceRoute.relays[index]? ≠ some env.networkAddress then return none
  else do
    Checked.ensure (1 ≤ index) .overflow
    let nextHop ← match sourceRoute.relays[index - 1]? with
      | some nextHop => Except.ok nextHop
      | none => .error .index
    return some (nextHop, { sourceRoute with relayIndex := sourceRoute.relayIndex - 1 })

/-- A frame as it is relayed, unless it may not be. -/
def relayFrame (neighbors : Neighbors) (frame : NwkFrame) : Option NwkFrame :=
  let radius := UInt8.saturatingSub frame.nwkHeader.radius 1
  if radius = 0 then none
  else
    let frame := frame.withRadius radius
    (relayPayload env frame.payload).map fun payload =>
      { frame with
        nwkHeader := neighbors.clearEndDeviceInitiatorForRelay frame.nwkHeader
        payload }

/-- The decision of `relay_unicast_nwk_frame`: where the frame is relayed to, as what, and
the routing tables after it. -/
def relayNextHop (neighbors : Neighbors) (routing : Routing) (frame : NwkFrame) :
    Checked (Option (Nwk × NwkFrame) × Routing) := do
  match relayFrame env neighbors frame with
  | none => return (none, routing)
  | some frame =>
    let destination := frame.nwkHeader.destination
    match frame.nwkHeader.sourceRoute with
    | some sourceRoute =>
      match ← relaySourceRoute env sourceRoute destination with
      | none => return (none, routing)
      | some (nextHop, sourceRoute) =>
        -- delivery to our own end device child skips the rest of the relays
        let nextHop :=
          if (neighbors.endDeviceChildEui64 destination).isSome then destination else nextHop
        return (some (nextHop, { frame with nwkHeader.sourceRoute := some sourceRoute }),
          routing.noteSourceRoutedFrame frame.nwkHeader.source)
    | none =>
      if neighbors.hasNetworkAddress destination then
        return (some (destination, frame), routing)
      else
        return ((← routing.nextHop destination).map (·, frame), routing)

/-- Relay a unicast to another device. -/
def relayUnicastNwkFrame (frame : NwkFrame) (senderNwk : Nwk) (lqi : UInt8) : NetM Unit := do
  maybeRecomputeLqa senderNwk lqi
  modify fun net => { net with neighbors := net.neighbors.recordInboundActivity senderNwk }
  let net ← get
  let (relayed, routing) ← relayNextHop env net.neighbors net.routing frame
  set { net with routing }
  match relayed with
  | none => return
  | some (nextHop, frame) =>
    let _ ← enqueueUnicast env (.nwk frame .networkKey) ⟨.userNormal, .forwarding⟩ .onHandoff
      nextHop (pollAddress net.neighbors nextHop)

/-- Whether a received broadcast is to be filtered. -/
def filterBroadcast (frame : NwkFrame) (senderNwk : Nwk) : NetM Bool := do
  if !env.hackIgnoreBroadcastStartupWaitPeriod ∧
      env.now < Instant.add 0 env.tunables.broadcastDeliveryTime then return true
  else
    let net ← get
    let (duplicate, broadcasts) := net.broadcasts.filterReceived frame.nwkHeader.source
      frame.nwkHeader.sequenceNumber senderNwk net.neighbors.expectedBroadcastRelayers env.now
      env.tunables.broadcastDeliveryTime
    set { net with broadcasts }
    return duplicate

/-- Relay a fresh broadcast. -/
def maybeRelayBroadcast (frame : NwkFrame) : NetM Unit := do
  if frame.nwkHeader.frameControl.frameType = .data ∧
      frame.nwkHeader.source ≠ env.networkAddress then
    let neighbors := (← get).neighbors
    let relayed :=
      { frame with nwkHeader := neighbors.clearEndDeviceInitiatorForRelay frame.nwkHeader }
    maybeFanOutBroadcastToSleepyChildren env relayed .networkKey none
    let radius := UInt8.saturatingSub relayed.nwkHeader.radius 1
    if radius ≠ 0 then
      let relayed := relayed.withRadius radius
      let _ ← enqueueBroadcast env (.nwk relayed .networkKey) ⟨.userNormal, .forwarding⟩
        (.passiveAck (relayed.nwkHeader.source, relayed.nwkHeader.sequenceNumber)
          (← copies env.tunables.maxBroadcastRetries) (env.now.add env.broadcastJitter))

/-! ## Devices that rejoin and leave -/

def allocateNetworkAddress (eui64 : Eui64) : NetM Nwk := do
  let net ← get
  net.addressMap.allocate eui64 net.neighbors env.joinCandidates

/-- The keepalive timeout that a child begins with.  Routers do not age. -/
def initialDeviceTimeout (deviceType : NwkDeviceType) : Duration :=
  if deviceType = .endDevice then env.tunables.endDeviceTimeoutDefault else Neighbors.noTimeout

/-- Tell the client of a device whose key material is in place. -/
def announceJoin (nwk : Nwk) (eui64 : Eui64) : NetM Unit := do
  let capability := (← get).neighbors.deviceCapability eui64
  pushNotification (.deviceJoined nwk eui64 env.networkAddress (capability.map Prod.fst)
    ((capability.map Prod.snd).getD true))

/-- An unsecured rejoin delivers the network key again, so the device must share a key
other than the well-known one. -/
def mayRejoinUnsecured (apsSecurity : ApsSecurity) (eui64 : Eui64) : Bool :=
  env.tunables.allowUnsecuredRejoins || apsSecurity.hasUniqueLinkKey eui64

/-- Whether a new end device child exceeds the capacity.  Known devices may come back. -/
def atCapacity (neighbors : Neighbors) (deviceType : NwkDeviceType) (eui64 : Eui64) : Bool :=
  deviceType = .endDevice && !neighbors.contains eui64 &&
    env.tunables.maxChildren.toNat ≤ neighbors.endDeviceChildCount

/-- The device type that a rejoin request claims. -/
def rejoinDeviceType (request : NwkRejoinRequestCommand) : NwkDeviceType :=
  match request.capabilityInformation.deviceType with
  | .router => .router
  | .endDevice => .endDevice

/-- A device that rejoins keeps its address unless it belongs to another device. -/
def rejoinAddress (requestedNwk : Nwk) (sourceIeee : Eui64) : NetM Nwk := do
  if (← get).addressMap.claimedByOther requestedNwk sourceIeee then
    allocateNetworkAddress env sourceIeee
  else return requestedNwk

/-- A device that was on the network before attaches to us. -/
def handleRejoinRequest (apsSecurity : ApsSecurity) (frame : NwkFrame)
    (request : NwkRejoinRequestCommand) (secured : Bool) : NetM Unit := do
  match frame.nwkHeader.sourceIeee with
  | none => return
  | some sourceIeee =>
    let requestedNwk := frame.nwkHeader.source
    let deviceType := rejoinDeviceType request
    if atCapacity env (← get).neighbors deviceType sourceIeee then
      sendRejoinResponse env requestedNwk sourceIeee 0xFFFF .panAtCapacity secured
    else
      let assignedNwk ← rejoinAddress env requestedNwk sourceIeee
      updateNwkEui64Mapping env assignedNwk sourceIeee
      modify fun net =>
        { net with
          neighbors := net.neighbors.upsertChild
            { eui64 := sourceIeee
              networkAddress := assignedNwk
              deviceType
              rxOnWhenIdle := request.capabilityInformation.receiverOnWhenIdle
              deviceTimeout := initialDeviceTimeout env deviceType
              relationship := if secured then .child else .unauthenticatedChild } env.now }
      sendRejoinResponse env requestedNwk sourceIeee assignedNwk .associationSuccessful secured
      if secured then announceJoin env assignedNwk sourceIeee
      else if mayRejoinUnsecured env apsSecurity sourceIeee then
        modify fun net =>
          { net with
            tasklets := net.tasklets ++ [.deliverKeyAndAnnounce assignedNwk sourceIeee .rejoin] }

/-- The frames that arrive without encryption: only a rejoin request is accepted. -/
def handleUnsecuredNwkFrame (apsSecurity : ApsSecurity) (frame : NwkFrame) : NetM Unit :=
  match frame.payload with
  | .command (.rejoinRequest command) => handleRejoinRequest env apsSecurity frame command false
  | _ => pure ()

def handleLeave (frame : NwkFrame) (command : NwkLeaveCommand) : NetM Unit := do
  if !command.request then
    let net ← get
    let source := frame.nwkHeader.source
    let sourceIeee := frame.nwkHeader.sourceIeee.or (net.addressMap.eui64For source)
    set { net with neighbors := sourceIeee.elim net.neighbors net.neighbors.remove }
    dropIndirectTransactions env sourceIeee source
    removeRoute source
    pushNotification (.deviceLeft source sourceIeee (.announced command.rejoin))

def sendEndDeviceTimeoutResponse (destination : Nwk)
    (status : NwkEndDeviceTimeoutResponseStatus) : NetM Unit := do
  let response := nwkCommandFrame env destination <| .endDeviceTimeoutResponse
    { status
      macDataPollKeepaliveSupported := true
      endDeviceTimeoutRequestKeepaliveSupported := false
      powerNegotationSupport := false }
  let _ ← sendUnicast env
    { frame := response.withRadius 1
      security := .networkKey
      mode := .direct
      policy := .stackCritical
      confirm := .onHandoff }

def handleEndDeviceTimeoutRequest (frame : NwkFrame)
    (request : NwkEndDeviceTimeoutRequestCommand) : NetM Unit := do
  let source := frame.nwkHeader.source
  if request.endDeviceConfiguration ≠ 0 then
    sendEndDeviceTimeoutResponse env source .unsupportedFeature
  else
    let net ← get
    let (updated, neighbors) := net.neighbors.setChildTimeout source
      request.requestTimeoutEnum.duration request.endDeviceConfiguration.toUInt16 env.now
    set { net with neighbors }
    if updated then sendEndDeviceTimeoutResponse env source .success

/-- A child attached to another parent. -/
def cleanupMovedChild (eui64 : Eui64) (nwk : Nwk) : NetM Unit := do
  dropIndirectTransactions env (some eui64) nwk
  removeRoute nwk

def forgetMovedChild (eui64 : Eui64) : NetM Unit := do
  let net ← get
  let (removed, neighbors) := net.neighbors.takeChild eui64
  set { net with neighbors }
  match removed with
  | some nwk => cleanupMovedChild env eui64 nwk
  | none => return

/-- Evict the children whose keepalive deadline has passed. -/
def evictTimedOutChildren : NetM Unit := do
  let net ← get
  let (evicted, neighbors) := net.neighbors.evictTimedOutChildren env.now
  set { net with neighbors }
  evicted.forM fun (eui64, nwk) => do
    dropIndirectTransactions env (some eui64) nwk
    removeRoute nwk
    pushNotification (.deviceLeft nwk (some eui64) .keepaliveTimeout)

/-! ## The dispatch -/

def handleNwkCommand (apsSecurity : ApsSecurity) (frame : NwkFrame) (command : NwkCommand)
    (senderNwk : Nwk) (lqi : UInt8) : NetM Unit :=
  match command with
  | .linkStatus command => handleLinkStatus env frame command lqi
  | .routeReply command => handleRouteReply env frame command
  | .routeRecord command => handleRouteRecord frame command
  | .routeRequest command => handleRouteRequest env frame command senderNwk
  | .rejoinRequest command => handleRejoinRequest env apsSecurity frame command true
  | .leave command => handleLeave env frame command
  | .networkStatus command => handleNetworkStatus env command
  | .endDeviceTimeoutRequest command => handleEndDeviceTimeoutRequest env frame command
  | .unparsed raw =>
    -- a timeout request that is out of range fails to parse, and is still answered
    if raw.bytes.head? = some 0x0b then
      sendEndDeviceTimeoutResponse env frame.nwkHeader.source .incorrectValue
    else pure ()
  | _ => pure ()

/-- Link statuses and route requests have ways of their own to tell copies apart. -/
def bypassesTransactionTable : NwkPayload → Bool
  | .command (.routeRequest _) | .command (.linkStatus _) => true
  | _ => false

/-- The treatment of a broadcast: whether the frame is processed further. -/
def admitBroadcast (frame : NwkFrame) (senderNwk : Nwk) : NetM Bool := do
  if ← filterBroadcast env frame senderNwk then return false
  else if frame.nwkHeader.source = env.networkAddress then
    -- our own broadcasts are in the transaction table, so this one is another device's
    if Instant.add 0 env.tunables.broadcastDeliveryTime < env.now then
      handleAddressConflict env env.networkAddress .locally
    return false
  else
    maybeRelayBroadcast env frame
    return true

/-- `handle_decrypted_frame`, past the frame counter. -/
def handleDecryptedFrame (apsSecurity : ApsSecurity) (frame : NwkFrame) (senderNwk : Nwk)
    (lqi : UInt8) : NetM Unit := do
  let header := frame.nwkHeader
  match header.sourceIeee with
  | some sourceIeee => updateNwkEui64Mapping env header.source sourceIeee
  | none => pure ()
  -- a frame to our address that names another device
  if header.destination = env.networkAddress ∧
      header.destinationIeee.any (· ≠ env.ieeeAddress) then
    handleAddressConflict env env.networkAddress .locally
  maybeAgeNeighbors env
  maybeRecomputeLqa senderNwk lqi
  let proceed ←
    if broadcastAllRoutersAndCoordinator ≤ header.destination ∧
        !bypassesTransactionTable frame.payload then admitBroadcast env frame senderNwk
    else pure true
  if proceed then
    match frame.payload with
    | .command command => handleNwkCommand env apsSecurity frame command senderNwk lqi
    | .opaqueBytes _ => return

end

end Driver

end Ziggurat
