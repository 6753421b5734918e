import Ziggurat.Driver.Network

/-!
# Joining and link keys

The handlers of `joining.rs` under `zigbee_stack` that use keys: a device that associates, the
flow that delivers the network key to it, and the key-management commands of the APS layer.

The flow is a tasklet.  It runs up to its next `await`, and the verdict of the send that it
awaited is an input of its next step.
-/

namespace Ziggurat

/-- `APS_STATUS_SUCCESS`. -/
def apsStatusSuccess : UInt8 := 0x00

/-- `APS_STATUS_SECURITY_FAIL`. -/
def apsStatusSecurityFail : UInt8 := 0xAD

namespace Driver

section

variable (backend : CryptoBackend) (env : Env)

/-- A command frame of ours, to one device. -/
def apsCommandFrame (security : Bool) (counter : UInt8) (command : ApsCommandFrameCommand) :
    ApsCommandFrame where
  frameControl :=
    { frameType := .command
      deliveryMode := .unicast
      reserved1 := 0
      security
      ackRequest := false
      extendedHeader := false }
  counter := counter
  command := command

/-- Send a serialized APS frame to a device on the network. -/
def sendSecuredApsPayload (destination : Nwk) (payload : Bytes) :
    NetM (Except EnqueueError SendId) := do
  match nwkDataFrame env destination payload with
  | .error err => return .error err
  | .ok frame =>
    sendUnicast env
      { frame := frame.withDiscoverRoute .enable
        security := .networkKey
        mode :=
          if (← get).neighbors.hasNetworkAddress destination then .direct
          else .route .stackDecides
        policy := .stackCritical
        confirm := .onHandoff }

/-! ## The network key -/

/-- Reset the link key state of a joining device. -/
def beginJoin (ieee : Eui64) : StackM Unit := do
  let stack ← get
  let (provisionalKey, apsSecurity) := stack.apsSecurity.beginJoin ieee
  set { stack with apsSecurity }
  match provisionalKey with
  | some key => liftNet (pushNotification (.linkKeyUpdate ieee key))
  | none => return

/-- The link key that protects the network key: a fresh joiner only has the well-known or a
provisional key, a device that rejoins has the key that it was last issued. -/
def transportLinkKey (apsSecurity : ApsSecurity) (destination : Eui64) (joinKind : JoinKind) :
    Checked Key :=
  match joinKind with
  | .new => .ok (apsSecurity.joinLinkKey destination)
  | .rejoin => apsSecurity.deviceLinkKey backend destination

def buildEncryptedNetworkKeyTransport (destination : Eui64) (joinKind : JoinKind) :
    StackM EncryptedApsCommandFrame := do
  let counter ← liftNet nextApsCounter
  let stack ← get
  let command := apsCommandFrame true counter <| .transportKey
    { standardKeyType := .standardNetworkKey
      keyDescriptor := .networkKey
        { key := stack.nwkSecurity.networkKey
          sequenceNumber := stack.nwkSecurity.primary.keySeqNumber
          destinationAddress := destination
          sourceAddress := env.ieeeAddress } }
  let linkKey ← transportLinkKey backend stack.apsSecurity destination joinKind
  let (encrypted, apsSecurity) ← stack.apsSecurity.encryptCommandWithLinkKey backend linkKey
    .keyTransportKey command
  set { stack with apsSecurity }
  return encrypted

/-- Deliver the network key to a device in radio range, without NWK security. -/
def sendNetworkKey (destination : Nwk) (destinationEui64 : Eui64) (joinKind : JoinKind) :
    StackM (Option SendId) := do
  let encrypted ← buildEncryptedNetworkKeyTransport backend env destinationEui64 joinKind
  let frame ← Checked.expect "Transport-Key command should always fit"
    (nwkDataFrame env destination (← encrypted.toBytes)).toOption
  let sent ← liftNet <| sendUnicast env
    { frame := frame.unsecured
      security := .unsecured
      mode := .direct
      policy := .stackCritical
      confirm := .onHandoff }
  return sent.toOption

/-- Deliver the network key through the router that a device joined at. -/
def sendTunneledNetworkKey (routerNwk : Nwk) (deviceEui64 : Eui64) (joinKind : JoinKind) :
    StackM Unit := do
  let encrypted ← buildEncryptedNetworkKeyTransport backend env deviceEui64 joinKind
  let counter ← liftNet nextApsCounter
  let tunneledFrame ← Checked.expect "an encrypted APS command is frame-bounded"
    (FrameBytes.fromSlice (← encrypted.toBytes))
  let command := apsCommandFrame false counter <| .tunnel
    { destinationAddress := deviceEui64, tunneledFrame }
  let _ ← liftNet (sendSecuredApsPayload env routerNwk (← command.toBytes))

/-! ## Association -/

/-- The association response, which the joiner polls for. -/
def associationResponse (net : Net) (eui64 : Eui64) (shortAddress : Nwk)
    (status : Ieee802154AssociationStatus) : Ieee802154Frame FrameBytes :=
  .command
    { header :=
        { frameControl :=
            { frameType := .command
              securityEnabled := false
              framePending := false
              ackRequest := true
              panIdCompression := true
              reserved1 := false
              sequenceNumberSuppression := false
              informationElementsPresent := false
              destAddrMode := .long
              frameVersion := .ieee2003
              srcAddrMode := .long }
          sequenceNumber := some net.ieee802154SequenceNumber
          destPanId := some net.panId
          destAddress := some (.eui64 eui64)
          srcPanId := none
          srcAddress := some (.eui64 env.ieeeAddress) }
      commandPayload := .associationResponse { shortAddress, associationStatus := status }
      fcs := 0 }

/-- Queue the response.  What a previous attempt left in the queue is stale. -/
def queueAssociationResponse (eui64 : Eui64) (shortAddress : Nwk)
    (status : Ieee802154AssociationStatus) : NetM SendId := do
  dropIndirectTransactions env (some eui64) shortAddress
  let frame := associationResponse env (← get) eui64 shortAddress status
  enqueueUnicast env (.raw frame) .stackCritical .onHandoff shortAddress (some (.eui64 eui64))

def associationDeviceType (request : Ieee802154AssociationRequestCommand) : NwkDeviceType :=
  match request.deviceType with
  | .fullFunctionDevice => .router
  | .reducedFunctionDevice => .endDevice

/-- A joining device asks for an address.  The rest of the join is a tasklet. -/
def process802154AssociationRequest (srcAddress : Option Ieee802154Address)
    (request : Ieee802154AssociationRequestCommand) : StackM Unit := do
  match srcAddress with
  | some (.eui64 sourceEui64) =>
    let net := (← get).net
    let deviceType := associationDeviceType request
    if !net.permittingJoinsUntil.any (env.now < ·) then
      let _ ← liftNet (queueAssociationResponse env sourceEui64 0xFFFF .panAccessDenied)
    else if atCapacity env net.neighbors deviceType sourceEui64 then
      let _ ← liftNet (queueAssociationResponse env sourceEui64 0xFFFF .panAtCapacity)
    else
      let shortAddress ← liftNet (allocateNetworkAddress env sourceEui64)
      beginJoin sourceEui64
      liftNet do
        updateNwkEui64Mapping env shortAddress sourceEui64
        modify fun net =>
          { net with
            neighbors := net.neighbors.upsertChild
              { eui64 := sourceEui64
                networkAddress := shortAddress
                deviceType
                rxOnWhenIdle := request.receiveOnWhenIdle
                deviceTimeout := initialDeviceTimeout env deviceType
                relationship := .child } env.now
            tasklets := net.tasklets ++ [.runJoin sourceEui64 shortAddress] }
  | _ => return

/-! ## The join flow -/

/-- The begin of `deliver_key_and_announce`, up to the verdict on the key transport. -/
def deliverKey (nwk : Nwk) (eui64 : Eui64) (joinKind : JoinKind) : StackM Unit := do
  match ← sendNetworkKey backend env nwk eui64 joinKind with
  | none => return
  | some keyTransport =>
    liftNet <| modify fun net =>
      { net with tasklets := net.tasklets ++ [.awaitTransport nwk eui64 keyTransport] }

/-- A tasklet runs up to its next `await`.  It resumes with the verdict that it awaited. -/
def stepTasklet (tasklet : Tasklet) (verdict : Except DeliveryError Unit) : StackM Unit := do
  match tasklet with
  | .runJoin eui64 shortAddress =>
    let response ← liftNet
      (queueAssociationResponse env eui64 shortAddress .associationSuccessful)
    liftNet <| modify fun net =>
      { net with tasklets := net.tasklets ++ [.awaitResponse eui64 shortAddress response] }
  | .awaitResponse eui64 shortAddress _ =>
    match verdict with
    | .ok _ => deliverKey backend env shortAddress eui64 .new
    | .error _ => return
  | .deliverKeyAndAnnounce nwk eui64 joinKind => deliverKey backend env nwk eui64 joinKind
  | .awaitTransport nwk eui64 _ =>
    match verdict with
    | .ok _ => liftNet (announceJoin env nwk eui64)
    | .error _ => return

/-- The runner polls one of the tasklets. -/
def runTasklet (index : Nat) (verdict : Except DeliveryError Unit) : StackM Unit := do
  match (← get).net.tasklets[index]? with
  | none => return
  | some tasklet =>
    liftNet <| modify fun net => { net with tasklets := net.tasklets.eraseIdx index }
    stepTasklet backend env tasklet verdict

/-! ## Key management commands -/

/-- A device asks for a link key of its own.  The reply is secured with the key of the
request. -/
def handleRequestKey (header : NwkHeader) (commandFrame : ApsCommandFrame)
    (request : ApsRequestKeyCommandFrame) (apsSourceIeee : Option Eui64)
    (appliedKey : Option AppliedKey) : StackM Unit := do
  if request.keyType = .trustCenterLinkKey ∧ commandFrame.frameControl.security then
    match apsSourceIeee, appliedKey with
    | some sourceIeee, some appliedKey =>
      -- the address map, and not the frame, says who sent the request
      if (← get).net.addressMap.eui64For header.source = some sourceIeee then
        let stack ← get
        let (newKey, apsSecurity) ←
          stack.apsSecurity.issueDeviceKey backend sourceIeee env.freshKey
        set { stack with apsSecurity }
        let counter ← liftNet nextApsCounter
        let command := apsCommandFrame true counter <| .transportKey
          { standardKeyType := .trustCenterLinkKey
            keyDescriptor := .trustCenterLinkKey
              { key := newKey
                destinationAddress := sourceIeee
                sourceAddress := env.ieeeAddress } }
        let stack ← get
        let (encrypted, apsSecurity) ← stack.apsSecurity.encryptCommandWithAppliedKey backend
          sourceIeee appliedKey .keyLoadKey command
        set { stack with apsSecurity }
        match encrypted with
        | none => return
        | some encrypted =>
          let _ ← liftNet (sendSecuredApsPayload env header.source (← encrypted.toBytes))
    | _, _ => return

/-- Confirm a verification.  Only a device with a key gets an encrypted answer. -/
def sendConfirmKey (destination : Nwk) (destinationEui64 : Eui64) (status : UInt8)
    (encrypted : Bool) : StackM Unit := do
  let counter ← liftNet nextApsCounter
  let command := apsCommandFrame encrypted counter <| .confirmKey
    { status
      standardKeyType := .trustCenterLinkKey
      destinationAddress := destinationEui64 }
  let payload ←
    if encrypted then do
      let stack ← get
      let (frame, apsSecurity) ←
        stack.apsSecurity.encryptCommand backend destinationEui64 .dataKey command
      set { stack with apsSecurity }
      let bytes ← frame.toBytes
      pure bytes
    else do
      let bytes ← command.toBytes
      pure bytes
  let _ ← liftNet (sendSecuredApsPayload env destination payload)

/-- A device proves that it has its new link key. -/
def handleVerifyKey (header : NwkHeader) (verify : ApsVerifyKeyCommandFrame) : StackM Unit := do
  if verify.standardKeyType = .trustCenterLinkKey then
    let senderIeee := header.sourceIeee.or ((← get).net.addressMap.eui64For header.source)
    let sourceIeee := verify.sourceAddress
    if senderIeee.all (· = sourceIeee) then
      let stack ← get
      let (verified, apsSecurity) ← stack.apsSecurity.verifyDeviceKey backend sourceIeee
        (Key.toBytes verify.initiatorVerifyKeyHash)
      set { stack with apsSecurity }
      match verified with
      | none => sendConfirmKey backend env header.source sourceIeee apsStatusSecurityFail false
      | some true =>
        let key ← (← get).apsSecurity.deviceLinkKey backend sourceIeee
        liftNet (pushNotification (.linkKeyUpdate sourceIeee key))
        sendConfirmKey backend env header.source sourceIeee apsStatusSuccess true
      | some false =>
        sendConfirmKey backend env header.source sourceIeee apsStatusSecurityFail true

/-- Whether an unencrypted update from a router is to be dropped: it has a key to encrypt
with. -/
def dropsUnencryptedUpdate (stack : ZigbeeStack) (header : NwkHeader) (apsEncrypted : Bool) :
    Bool :=
  !apsEncrypted && !env.tunables.allowUnencryptedRouterDeviceUpdate &&
    (header.sourceIeee.or (stack.net.addressMap.eui64For header.source)).any
      stack.apsSecurity.hasUniqueLinkKey

/-- The device joined at a router: its address is learned, and the client is told. -/
def learnFromUpdate (header : NwkHeader) (update : ApsUpdateDeviceCommandFrame)
    (deliver : StackM Unit) : StackM Unit := do
  liftNet (updateNwkEui64Mapping env update.deviceShortAddress update.deviceAddress)
  deliver
  liftNet (pushNotification (.deviceJoined update.deviceShortAddress update.deviceAddress
    header.source none true))

/-- A router tells of a device that joined or left through it. -/
def handleUpdateDevice (header : NwkHeader) (update : ApsUpdateDeviceCommandFrame)
    (apsEncrypted : Bool) : StackM Unit := do
  let routerNwk := header.source
  if !dropsUnencryptedUpdate env (← get) header apsEncrypted then
    if update.status ≠ .deviceLeft then liftNet (forgetMovedChild env update.deviceAddress)
    match update.status with
    | .standardDeviceUnsecuredJoin =>
      if (← get).net.trustCenterJoinsUntil.any (env.now < ·) then
        beginJoin update.deviceAddress
        learnFromUpdate env header update
          (sendTunneledNetworkKey backend env routerNwk update.deviceAddress .new)
    | .standardDeviceTrustCenterRejoin =>
      if mayRejoinUnsecured env (← get).apsSecurity update.deviceAddress then
        learnFromUpdate env header update
          (sendTunneledNetworkKey backend env routerNwk update.deviceAddress .rejoin)
    | .standardDeviceSecuredRejoin => learnFromUpdate env header update (pure ())
    | .deviceLeft =>
      let routerIeee := header.sourceIeee.or ((← get).net.addressMap.eui64For routerNwk)
      liftNet (pushNotification (.deviceLeft update.deviceShortAddress
        (some update.deviceAddress) (.routerReported routerNwk routerIeee)))

/-- Dispatch a command.  Only the trust center manages keys. -/
def handleApsCommandFrame (header : NwkHeader) (commandFrame : ApsCommandFrame)
    (apsSourceIeee : Option Eui64) (appliedKey : Option AppliedKey) : StackM Unit := do
  if env.role = .coordinator then
    match commandFrame.command with
    | .updateDevice command => handleUpdateDevice backend env header command apsSourceIeee.isSome
    | .requestKey command =>
      handleRequestKey backend env header commandFrame command apsSourceIeee appliedKey
    | .verifyKey command => handleVerifyKey backend env header command
    | _ => return

end

end Driver

end Ziggurat
