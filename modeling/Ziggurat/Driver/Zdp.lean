import Ziggurat.Driver.Network
import Ziggurat.Zdp

/-!
# The device profile handlers

`zigbee_stack/zdp.rs`: the device profile commands that maintain the tables of the stack, and
the table queries that only the stack can answer.
-/

namespace Ziggurat

open Lib.BitCodec

namespace Driver

section

variable (env : Env)

/-- Build and enqueue a device profile command for one device. -/
def sendZdpCommand {α : Type} (codec : Codec α) (clusterId : ZdpClusterId) (destination : Nwk)
    (tsn : UInt8) (command : α) : NetM (Except EnqueueError SendId) := do
  let serialized ← Zdp.serialize codec tsn command
  match FrameBytes.fromSlice serialized with
  | none => return .error .payloadTooLong
  | some asdu =>
    let apsFrame : ApsDataFrame :=
      { frameControl :=
          { frameType := .data
            deliveryMode := .unicast
            reserved1 := 0
            security := false
            ackRequest := false
            extendedHeader := false }
        groupId := none
        destinationEndpoint := some 0
        clusterId := UInt16.ofFin (ZdpClusterId.enum.disc clusterId)
        profileId := zdpProfileId
        sourceEndpoint := 0
        counter := ← nextApsCounter
        asdu }
    match nwkDataFrame env destination (← apsFrame.toBytes) with
    | .error err => return .error err
    | .ok frame =>
      sendUnicast env
        { frame := (frame.withDiscoverRoute .enable).withRadius (2 * maxDepth)
          security := .networkKey
          mode := .route .stackDecides
          policy := ⟨.userNormal, .host⟩
          confirm := .onHandoff }

/-- A device announced its addresses.  An unknown EUI64 only evicts the owners of the
address. -/
def handleDeviceAnnce (asdu : Bytes) : NetM Unit :=
  match Zdp.deserialize DeviceAnnce.codec asdu with
  | none => pure ()
  | some (_, annce) =>
    modify fun net =>
      if annce.ieeeAddr.val = 2 ^ 64 - 1 then
        { net with addressMap := net.addressMap.forgetAddress annce.nwkAddr }
      else
        { net with
          addressMap := net.addressMap.claim annce.ieeeAddr annce.nwkAddr
          neighbors := net.neighbors.updateNetworkAddress annce.ieeeAddr annce.nwkAddr }

/-- A router announced its children: those that never kept alive with us are its own, and
the others are claimed back. -/
def handleParentAnnce (source : Nwk) (asdu : Bytes) : NetM Unit := do
  match Zdp.deserialize ParentAnnce.codec asdu with
  | none => return
  | some (tsn, annce) =>
    let net ← get
    let (claimed, removed, neighbors) := net.neighbors.processParentAnnce annce.children
    set { net with neighbors }
    removed.forM fun (eui64, nwk) => cleanupMovedChild env eui64 nwk
    if claimed ≠ [] then
      let _ ← sendZdpCommand env ParentAnnceRsp.codec .parentAnnceRsp source tsn
        { status := .success, children := claimed }

/-- A router claimed children that we announced. -/
def handleParentAnnceRsp (asdu : Bytes) : NetM Unit := do
  match Zdp.deserialize ParentAnnceRsp.codec asdu with
  | none => return
  | some (_, response) =>
    let net ← get
    let (removed, neighbors) := net.neighbors.removeClaimedChildren response.children
    set { net with neighbors }
    removed.forM fun (eui64, nwk) => cleanupMovedChild env eui64 nwk

/-- `MGMT_LQI_DESCRIPTORS_PER_FRAME`. -/
def mgmtLqiDescriptorsPerFrame : Nat := 2

/-- `MGMT_RTG_DESCRIPTORS_PER_FRAME`. -/
def mgmtRtgDescriptorsPerFrame : Nat := 10

/-- A neighbor as the profile reports it. -/
def neighborDescriptor (extendedPanId : Eui64) (entry : Neighbors.TableEntry) :
    NeighborDescriptor where
  extendedPanId := extendedPanId
  extendedAddress := entry.extendedAddress
  networkAddress := entry.networkAddress
  deviceType := match entry.deviceType with
    | .coordinator => .coordinator
    | .router => .router
    | .endDevice => .endDevice
  rxOnWhenIdle := if entry.rxOnWhenIdle then .on else .off
  affinity := match entry.relationship with
    | .parent => .parent
    | .child => .child
    | .sibling => .sibling
    | _ => .noneOfTheAbove
  permitJoining := .unknown
  depth := 1
  lqa := entry.lqa.getD 0

def handleMgmtLqiReq (header : NwkHeader) (asdu : Bytes) : NetM Unit := do
  if header.destination = env.networkAddress then
    match Zdp.deserialize MgmtLqiReq.codec asdu with
    | none => return
    | some (tsn, request) =>
      let entries := (← get).neighbors.table.values.mergeSort
        fun a b => a.networkAddress ≤ b.networkAddress
      let _ ← sendZdpCommand env MgmtLqiRsp.codec .mgmtLqiRsp header.source tsn
        { status := .success
          neighborTableEntries := UInt8.ofNat entries.length
          startIndex := request.startIndex
          neighborTableList := ((entries.drop request.startIndex.toNat).take
            mgmtLqiDescriptorsPerFrame).map (neighborDescriptor env.extendedPanId) }

/-- A route as the profile reports it. -/
def routingDescriptor (entry : Routing.TableEntry) : RoutingDescriptor where
  destinationAddress := entry.destination
  status := match entry.status with
    | .active => .active
    | .discoveryUnderway => .discoveryUnderway
    | .discoveryFailed => .discoveryFailed
    | .inactive => .inactive
  memoryConstrained := false
  manyToOne := entry.manyToOne
  routeRecordRequired := entry.routeRecordRequired
  nextHopAddress := entry.nextHopAddress

def handleMgmtRtgReq (header : NwkHeader) (asdu : Bytes) : NetM Unit := do
  if header.destination = env.networkAddress then
    match Zdp.deserialize MgmtRtgReq.codec asdu with
    | none => return
    | some (tsn, request) =>
      let entries := (← get).routing.routeTable.values.mergeSort
        fun a b => a.destination ≤ b.destination
      let _ ← sendZdpCommand env MgmtRtgRsp.codec .mgmtRtgRsp header.source tsn
        { status := .success
          routingTableEntries := UInt8.ofNat entries.length
          startIndex := request.startIndex
          routingTableList := ((entries.drop request.startIndex.toNat).take
            mgmtRtgDescriptorsPerFrame).map routingDescriptor }

/-- Dispatch the commands that the stack consumes. -/
def handleZdpFrame (header : NwkHeader) (apsFrame : ApsDataFrame) : NetM Unit :=
  if apsFrame.profileId ≠ zdpProfileId ∨ apsFrame.destinationEndpoint ≠ some 0 then pure ()
  else
    let asdu := apsFrame.asdu.bytes
    match ZdpClusterId.enum.ofDisc apsFrame.clusterId.toFin with
    | some .deviceAnnce => handleDeviceAnnce asdu
    | some .parentAnnce => handleParentAnnce env header.source asdu
    | some .parentAnnceRsp => handleParentAnnceRsp env asdu
    | some .mgmtLqiReq => handleMgmtLqiReq env header asdu
    | some .mgmtRtgReq => handleMgmtRtgReq env header asdu
    | some .mgmtLqiRsp | some .mgmtRtgRsp | none => pure ()

end

end Driver

end Ziggurat
