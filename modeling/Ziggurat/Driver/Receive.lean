import Ziggurat.Aps.Security
import Ziggurat.Driver.Joining
import Ziggurat.Driver.Zdp
import Ziggurat.Ieee802154.Wire

/-!
# The receive path

What the driver does with a packet from the radio: the loop of `run`, the checks of
`process_802154_data_frame`, and the APS layer behind it.

The checks decide before anything is done.  `receive` is what they make of a data frame, and
`receiveAps` is what the APS layer makes of the payload of a frame for us.  The handlers then
act on the outcome.
-/

namespace Ziggurat

open Lib.BitCodec

/-! ## Green Power frames -/

inductive GpFrameType where
  | data
  | maintenance
  deriving DecidableEq, Repr

def GpFrameType.enum : Codec.Enum 2 GpFrameType where
  all := [.data, .maintenance]
  disc
    | .data => 0
    | .maintenance => 1
  mem_all a := by cases a <;> simp
  nodup := by decide

/-- The frame control of a stub NWK header.  Its version shares the position of the NWK
frame control's. -/
structure GpNwkFrameControl where
  frameType : GpFrameType
  protocolVersion : Fin (2 ^ 4)
  autoCommissioning : Bool
  extended : Bool
  deriving DecidableEq, Repr

def GpNwkFrameControl.codec : Codec GpNwkFrameControl :=
  ((Codec.enum GpFrameType.enum).pair <| (Codec.uint 4).pair <| Codec.bool.pair Codec.bool).imap
    (fun (frameType, protocolVersion, autoCommissioning, extended) =>
      { frameType, protocolVersion, autoCommissioning, extended })
    (fun c => (c.frameType, c.protocolVersion, c.autoCommissioning, c.extended))
    (fun _ => rfl) (fun _ => rfl)

/-- `GP_PROTOCOL_VERSION`. -/
def gpProtocolVersion : Fin (2 ^ 4) := 3

def isGpdf (payload : FrameBytes) : Bool :=
  match GpNwkFrameControl.codec.readBytes payload.bytes with
  | .ok (control, _) => control.protocolVersion = gpProtocolVersion
  | .error _ => false

/-- `NwkPayload::as_opaque`. -/
def NwkPayload.asOpaque : NwkPayload → Option FrameBytes
  | .opaqueBytes bytes => some bytes
  | .command _ => none

/-- `ApsAckData::from_aps_ack`. -/
def ApsAckData.fromApsAck (src : Nwk) (ack : ApsAckFrame) : ApsAckData where
  src := src
  destinationEndpoint := ack.destinationEndpoint
  clusterId := ack.clusterId
  profileId := ack.profileId
  sourceEndpoint := ack.sourceEndpoint
  counter := ack.counter

namespace Driver

section

variable (backend : CryptoBackend) (env : Env)

/-! ## Data frames -/

/-- What the checks make of a data frame. -/
inductive Received where
  | ignored
  | gpdf
  /-- A frame without NWK security. -/
  | unsecured (frame : NwkFrame)
  /-- A frame that decrypted, and the neighbor it came from. -/
  | secured (frame : NwkFrame) (sender : Nwk)
  deriving DecidableEq

/-- Whether a frame is for us at the MAC layer. -/
def macDestinationIsOurs (destAddress : Option Ieee802154Address) : Bool :=
  match destAddress with
  | some (.nwk nwk) => nwk = env.networkAddress || nwk = 0xFFFF
  | some (.eui64 eui64) => eui64 = env.ieeeAddress
  | none => false

/-- The checks of the auxiliary header, and the decryption.  NWK frames are relayed with
16-bit MAC addresses only. -/
def receiveSecured (security : NwkSecurity) (srcAddress : Option Ieee802154Address)
    (frame : EncryptedNwkFrame) : Checked Received :=
  match frame.auxHeader with
  | none => return .ignored
  | some auxHeader =>
    if auxHeader.securityControl.securityLevel ≠ .noSecurity then return .ignored
    else if auxHeader.securityControl.keyId ≠ .networkKey then return .ignored
    else match auxHeader.extendedSource with
      | none => return .ignored
      | some srcEui64 =>
        match security.inboundNetworkKey srcEui64 auxHeader.keySequenceNumber
          auxHeader.frameCounter with
        | none => return .ignored
        | some key => do
          match ← (frame.decrypt backend key).toOption, srcAddress with
          | some decrypted, some (.nwk sender) => return .secured decrypted sender
          | _, _ => return .ignored

/-- The checks of `process_802154_data_frame`. -/
def receive (panId : PanId) (security : NwkSecurity) (dataFrame : Ieee802154DataFrame FrameBytes) :
    Checked Received := do
  let header := dataFrame.header
  if header.frameControl.securityEnabled then return .ignored
  else if isGpdf dataFrame.payload then return .gpdf
  else if header.destPanId ≠ some panId then return .ignored
  else if !env.hackDisableTx && !macDestinationIsOurs env header.destAddress then return .ignored
  else
    match ← (EncryptedNwkFrame.fromBytes dataFrame.payload.bytes).toOption with
    | none => return .ignored
    | some frame =>
      let control := frame.nwkHeader.frameControl
      if control.reserved1 ≠ 0 then return .ignored
      else if !control.security then
        let payload ← NwkPayload.fromBytes control.frameType frame.ciphertext
        return .unsecured { nwkHeader := frame.nwkHeader, auxHeader := none, payload }
      else receiveSecured backend security header.srcAddress frame

def processGpdf (dataFrame : Ieee802154DataFrame FrameBytes) (lqi : UInt8) (rssi : Int8) :
    NetM Unit := do
  let header := dataFrame.header
  let sourceIeee := match header.srcAddress with
    | some (.eui64 eui64) => some eui64
    | _ => none
  if header.destPanId = some (← get).panId ∨ header.destPanId = some 0xFFFF then
    match header.sequenceNumber with
    | none => return
    | some macSequenceNumber =>
      pushNotification (.receivedGpdf macSequenceNumber sourceIeee lqi rssi
        dataFrame.payload.bytes)

/-- Unicasts for other devices are relayed. -/
def isTransit (destination : Nwk) : Bool :=
  destination ≠ env.networkAddress && destination < broadcastAllRoutersAndCoordinator

/-- The start of `handle_decrypted_frame` and of `relay_unicast_nwk_frame`: store the frame
counter of the relaying device. -/
def noteFrameCounter (frame : NwkFrame) (security : NwkSecurity) : NwkSecurity :=
  match frame.auxHeader with
  | none => security
  | some auxHeader =>
    match auxHeader.extendedSource with
    | none => security
    | some relayingEui64 => security.noteInboundFrameCounter relayingEui64 auxHeader.frameCounter

/-- A data frame from the radio.  A frame for us goes on to the APS layer. -/
def process802154DataFrame (dataFrame : Ieee802154DataFrame FrameBytes) (lqi : UInt8)
    (rssi : Int8) : StackM (Option NwkFrame) := do
  let stack ← get
  match ← receive backend env stack.net.panId stack.nwkSecurity dataFrame with
  | .ignored => return none
  | .gpdf =>
    liftNet (processGpdf dataFrame lqi rssi)
    return none
  | .unsecured frame =>
    liftNet (handleUnsecuredNwkFrame env stack.apsSecurity frame)
    return none
  | .secured frame sender =>
    set { stack with nwkSecurity := noteFrameCounter frame stack.nwkSecurity }
    if isTransit env frame.nwkHeader.destination then
      liftNet (relayUnicastNwkFrame env frame sender lqi)
      return none
    else
      liftNet (handleDecryptedFrame env stack.apsSecurity frame sender lqi)
      return some frame

/-! ## APS frames -/

/-- What the APS layer makes of a payload. -/
inductive ApsReceived where
  | dropped
  /-- A data frame, and its originator if it was encrypted. -/
  | data (frame : ApsDataFrame) (source : Option Eui64)
  | ack (frame : ApsAckFrame)
  /-- A command, and who encrypted it with which key if it was. -/
  | command (frame : ApsCommandFrame) (applied : Option (Eui64 × AppliedKey))
  /-- A command that did not decrypt. -/
  | undecrypted (source : Eui64) (auxHeader : ApsAuxHeader)

/-- The EUI64 that a secured frame was encrypted by. -/
def apsFrameSource (addressMap : AddressMap) (header : NwkHeader) (extendedSource : Option Eui64) :
    Option Eui64 :=
  (extendedSource.or header.sourceIeee).or (addressMap.eui64For header.source)

def decryptApsDataFrame (stack : ZigbeeStack) (header : NwkHeader)
    (frame : EncryptedApsDataFrame) : Checked (ApsReceived × ApsSecurity) :=
  match apsFrameSource stack.net.addressMap header frame.auxHeader.extendedSource with
  | none => return (.dropped, stack.apsSecurity)
  | some source => do
    let (decrypted, apsSecurity) ← stack.apsSecurity.decryptData backend source frame
      stack.nwkSecurity.networkKey
    match decrypted with
    | some (data, _) => return (.data data (some source), apsSecurity)
    | none => return (.dropped, apsSecurity)

def decryptApsAckFrame (stack : ZigbeeStack) (header : NwkHeader)
    (frame : EncryptedApsAckFrame) : Checked (ApsReceived × ApsSecurity) :=
  match apsFrameSource stack.net.addressMap header frame.auxHeader.extendedSource with
  | none => return (.dropped, stack.apsSecurity)
  | some source => do
    let (decrypted, apsSecurity) ← stack.apsSecurity.decryptAck backend source frame
      stack.nwkSecurity.networkKey
    match decrypted with
    | some (ack, _) => return (.ack ack, apsSecurity)
    | none => return (.dropped, apsSecurity)

/-- The decryption of `handle_encrypted_aps_command_frame`. -/
def decryptApsCommandFrame (stack : ZigbeeStack) (frame : EncryptedApsCommandFrame) :
    Checked (ApsReceived × ApsSecurity) :=
  match frame.auxHeader.extendedSource with
  | none => return (.dropped, stack.apsSecurity)
  | some source => do
    let (decrypted, apsSecurity) ← stack.apsSecurity.decryptCommand backend source frame
      stack.nwkSecurity.networkKey
    match decrypted with
    | some (command, applied) => return (.command command (some (source, applied)), apsSecurity)
    | none => return (.undecrypted source frame.auxHeader, apsSecurity)

/-- Parse and decrypt the payload of a frame for us. -/
def receiveAps (stack : ZigbeeStack) (header : NwkHeader) (payload : FrameBytes) :
    Checked (ApsReceived × ApsSecurity) := do
  match ← (parseApsFrame payload.bytes).toOption with
  | none => return (.dropped, stack.apsSecurity)
  | some (.data frame) => return (.data frame none, stack.apsSecurity)
  | some (.encryptedData frame) => decryptApsDataFrame backend stack header frame
  | some (.ack frame) => return (.ack frame, stack.apsSecurity)
  | some (.encryptedAck frame) => decryptApsAckFrame backend stack header frame
  | some (.command frame) => return (.command frame none, stack.apsSecurity)
  | some (.encryptedCommand frame) => decryptApsCommandFrame backend stack frame

/-- Resolve an acknowledgement against the send that awaits it. -/
def handleApsAck (header : NwkHeader) (ack : ApsAckFrame) : NetM Unit := do
  let net ← get
  let (sends, actions) ← net.sends.apsAckReceived (.fromApsAck header.source ack)
  set { net with sends }
  runSendActions env actions

/-- Record a data frame.  Whether the same one was seen within the rejection window. -/
def isDuplicateApsFrame (source : Nwk) (counter : UInt8) : NetM Bool := do
  let net ← get
  let table := net.apsDuplicates.retain fun _ seen =>
    env.now - seen < env.tunables.apsDuplicateRejectionTimeout
  let key := SourceNumber.mk source counter
  set { net with apsDuplicates := table.insert key env.now }
  return table.containsKey key

/-- `FRAME_COUNTER_NOTIFY_INTERVAL`. -/
def frameCounterNotifyInterval : UInt32 := 100

/-- Tell the client the APS frame counter, every so many frames. -/
def maybeNotifyApsFrameCounter : StackM Unit := do
  let stack ← get
  let counter := stack.apsSecurity.outgoingFrameCounter
  if frameCounterNotifyInterval ≤ counter - stack.lastPersistedApsCounter then
    set { stack with lastPersistedApsCounter := counter }
    liftNet (pushNotification (.apsFrameCounterUpdate counter))

/-- The acknowledgement that a data frame asks for. -/
def apsAckFor (apsFrame : ApsDataFrame) : ApsAckFrame where
  frameControl :=
    { frameType := .ack
      deliveryMode := .unicast
      ackFormat := false
      security := apsFrame.frameControl.security
      ackRequest := false
      extendedHeader := false }
  destinationEndpoint := some apsFrame.sourceEndpoint
  clusterId := some apsFrame.clusterId
  profileId := some apsFrame.profileId
  sourceEndpoint := apsFrame.destinationEndpoint
  counter := apsFrame.counter

/-- The bytes of an acknowledgement, which mirrors the security of its frame. -/
def apsAckPayload (apsFrame : ApsDataFrame) (sourceEui64 : Option Eui64) :
    StackM (Option Bytes) := do
  let ack := apsAckFor apsFrame
  if apsFrame.frameControl.security then
    match sourceEui64 with
    | none => return none
    | some sourceEui64 =>
      let stack ← get
      let (encrypted, apsSecurity) ← stack.apsSecurity.encryptAck backend sourceEui64 ack
      set { stack with apsSecurity }
      match encrypted with
      | none => return none
      | some encrypted =>
        maybeNotifyApsFrameCounter
        let bytes ← encrypted.toBytes
        return some bytes
  else
    let bytes ← ack.toBytes
    return some bytes

def handleApsAckRequest (header : NwkHeader) (apsFrame : ApsDataFrame)
    (sourceEui64 : Option Eui64) : StackM Unit := do
  match ← apsAckPayload backend apsFrame sourceEui64 with
  | none => return
  | some payload =>
    let frame ← Checked.expect "ACK frame is always valid"
      (nwkDataFrame env header.source payload).toOption
    let _ ← liftNet <| sendUnicast env
      { frame := frame.withDiscoverRoute .enable
        security := .networkKey
        mode := .route .stackDecides
        policy := .stackCritical
        confirm := .onHandoff }

/-- A data frame is acknowledged, and is delivered unless it is a duplicate. -/
def handleApsData (header : NwkHeader) (apsFrame : ApsDataFrame) (sourceEui64 : Option Eui64)
    (lqi : UInt8) (rssi : Int8) : StackM Unit := do
  let duplicate ← liftNet (isDuplicateApsFrame env header.source apsFrame.counter)
  if apsFrame.frameControl.ackRequest then
    handleApsAckRequest backend env header apsFrame sourceEui64
  if !duplicate then
    liftNet do
      handleZdpFrame env header apsFrame
      pushNotification (.receivedApsCommand header.source header.destination apsFrame.groupId
        apsFrame.profileId apsFrame.clusterId apsFrame.sourceEndpoint
        (apsFrame.destinationEndpoint.getD 0) lqi rssi sourceEui64.isSome apsFrame.asdu.bytes)

/-- The APS layer's part of the loop. -/
def handleApsPayload (header : NwkHeader) (payload : FrameBytes) (lqi : UInt8) (rssi : Int8) :
    StackM Unit := do
  let stack ← get
  let (received, apsSecurity) ← receiveAps backend stack header payload
  set { stack with apsSecurity }
  match received with
  | .dropped => return
  | .data frame source => handleApsData backend env header frame source lqi rssi
  | .ack frame => liftNet (handleApsAck env header frame)
  | .command frame applied =>
    handleApsCommandFrame backend env header frame (applied.map (·.1)) (applied.map (·.2))
  | .undecrypted source auxHeader =>
    liftNet (pushNotification (.apsDecryptionFailure header.source source auxHeader.frameCounter
      auxHeader.securityControl.keyId))

/-! ## MAC commands -/

/-- Tell a device that is no child of ours to rejoin, once. -/
def queueLeaveForStaleChild (nwk : Nwk) : NetM Unit := do
  let destination := Ieee802154Address.nwk nwk
  if !(← get).sends.hasUnicastAwaitingPoll destination then
    let frame := (nwkCommandFrame env nwk
      (.leave { rejoin := true, request := true, removeChildren := false })).withRadius 1
    let frame := frame.withSequenceNumber (← nextSequenceNumber)
    let _ ← enqueueUnicast env (.nwk frame .networkKey) .stackCritical .onHandoff nwk
      (some destination)

/-- A poll takes the oldest frame that awaits the device, and keeps a child alive. -/
def handleDataRequest (srcAddress : Option Ieee802154Address) : NetM Unit := do
  let net ← get
  match srcAddress with
  | none => return
  | some address =>
    let (sourceEui64, sourceNwk) := match address with
      | .eui64 eui64 => (some eui64, net.addressMap.nwkFor eui64)
      | .nwk nwk => (net.addressMap.eui64For nwk, some nwk)
    let (knownDevice, neighbors) :=
      net.neighbors.refreshChildTimeout sourceEui64 sourceNwk env.now
    set { net with neighbors }
    let delivered ←
      if env.fpAdvertised then do
        let net ← get
        let (queued, actions, sends) ← net.sends.poll sourceEui64 sourceNwk env.now
        set { net with sends }
        runSendActions env actions
        pure queued
      else pure false
    match sourceNwk with
    | some nwk => if !knownDevice && !delivered then queueLeaveForStaleChild env nwk
    | none => return

/-- A MAC command.  The answer to a beacon request is not modelled. -/
def process802154CommandFrame (commandFrame : Ieee802154CommandFrame) : StackM Unit := do
  let header := commandFrame.header
  let panId := (← get).net.panId
  if (header.destPanId = some panId ∨ header.destPanId = some 0xFFFF) ∧
      macDestinationIsOurs env header.destAddress then
    match commandFrame.commandPayload with
    | .associationRequest request =>
      if env.role = .coordinator then
        process802154AssociationRequest env header.srcAddress request
    | .dataRequest => liftNet (handleDataRequest env header.srcAddress)
    | _ => return

/-! ## The loop -/

/-- One pass of `run`: a packet of the radio.  What does not parse, and our own packets, are
ignored. -/
def handlePacket (psdu : Bytes) (lqi : UInt8) (rssi : Int8) : StackM Unit := do
  match ← (Ieee802154Frame.fromBytesWithoutFcs psdu).toOption with
  | none => return
  | some (.beacon _) => return
  | some frame =>
    if frame.header.srcAddress = some (.nwk env.networkAddress) then return
    else
      match frame with
      | .data dataFrame =>
        match ← process802154DataFrame backend env dataFrame lqi rssi with
        | none => return
        | some frame =>
          match frame.payload.asOpaque with
          | none => return
          | some payload => handleApsPayload backend env frame.nwkHeader payload lqi rssi
      | .command commandFrame => process802154CommandFrame env commandFrame
      | _ => return

end

end Driver

end Ziggurat
