import Ziggurat.Nwk.Commands

/-!
# The Zigbee device profile

`zdp.rs`: the device profile commands that the stack consumes or sends itself, each behind a
transaction sequence number.
-/

namespace Ziggurat

open Lib.BitCodec

/-- `ZDP_PROFILE_ID`. -/
def zdpProfileId : UInt16 := 0x0000

inductive ZdpClusterId where
  | deviceAnnce
  | parentAnnce
  | mgmtLqiReq
  | mgmtRtgReq
  | parentAnnceRsp
  | mgmtLqiRsp
  | mgmtRtgRsp
  deriving DecidableEq, Repr

def ZdpClusterId.enum : Codec.Enum 16 ZdpClusterId where
  all := [.deviceAnnce, .parentAnnce, .mgmtLqiReq, .mgmtRtgReq, .parentAnnceRsp, .mgmtLqiRsp,
    .mgmtRtgRsp]
  disc
    | .deviceAnnce => 0x0013
    | .parentAnnce => 0x001F
    | .mgmtLqiReq => 0x0031
    | .mgmtRtgReq => 0x0032
    | .parentAnnceRsp => 0x801F
    | .mgmtLqiRsp => 0x8031
    | .mgmtRtgRsp => 0x8032
  mem_all a := by cases a <;> simp
  nodup := by decide

inductive ZdpStatus where
  | success
  | notSupported
  deriving DecidableEq, Repr

def ZdpStatus.enum : Codec.Enum 8 ZdpStatus where
  all := [.success, .notSupported]
  disc
    | .success => 0x00
    | .notSupported => 0x84
  mem_all a := by cases a <;> simp
  nodup := by decide

/-! ## Announcements -/

structure DeviceAnnce where
  nwkAddr : Nwk
  ieeeAddr : Eui64
  capability : NwkRejoinCapabilityInformation
  deriving DecidableEq, Repr

def DeviceAnnce.codec : Codec DeviceAnnce :=
  (Nwk.codec.pair <| Eui64.codec.pair NwkRejoinCapabilityInformation.codec).imap
    (fun (nwkAddr, ieeeAddr, capability) => { nwkAddr, ieeeAddr, capability })
    (fun c => (c.nwkAddr, c.ieeeAddr, c.capability)) (fun _ => rfl) (fun _ => rfl)

structure ParentAnnce where
  children : List Eui64
  deriving DecidableEq, Repr

def ParentAnnce.codec : Codec ParentAnnce :=
  (Codec.counted ((Codec.uint 8).pair (Codec.reserved 0)) Eui64.codec).imap
    (fun ((), children) => { children }) (fun c => ((), c.children)) (fun _ => rfl) (fun _ => rfl)

structure ParentAnnceRsp where
  status : ZdpStatus
  children : List Eui64
  deriving DecidableEq, Repr

def ParentAnnceRsp.codec : Codec ParentAnnceRsp :=
  (Codec.counted
    (((Codec.enum ZdpStatus.enum).pair (Codec.uint 8)).imap
      (fun (status, numberOfChildren) => (numberOfChildren, status))
      (fun (numberOfChildren, status) => (status, numberOfChildren))
      (fun _ => rfl) (fun _ => rfl))
    Eui64.codec).imap
    (fun (status, children) => { status, children }) (fun c => (c.status, c.children))
    (fun _ => rfl) (fun _ => rfl)

/-! ## Table queries -/

structure MgmtLqiReq where
  startIndex : UInt8
  deriving DecidableEq, Repr

def MgmtLqiReq.codec : Codec MgmtLqiReq :=
  u8.imap (fun startIndex => ⟨startIndex⟩) (fun c => c.startIndex) (fun _ => rfl) (fun _ => rfl)

inductive ZdpDeviceType where
  | coordinator
  | router
  | endDevice
  | unknown
  deriving DecidableEq, Repr

def ZdpDeviceType.enum : Codec.Enum 2 ZdpDeviceType where
  all := [.coordinator, .router, .endDevice, .unknown]
  disc
    | .coordinator => 0x00
    | .router => 0x01
    | .endDevice => 0x02
    | .unknown => 0x03
  mem_all a := by cases a <;> simp
  nodup := by decide

inductive ZdpRxOnWhenIdle where
  | off
  | on
  | unknown
  deriving DecidableEq, Repr

def ZdpRxOnWhenIdle.enum : Codec.Enum 2 ZdpRxOnWhenIdle where
  all := [.off, .on, .unknown]
  disc
    | .off => 0x00
    | .on => 0x01
    | .unknown => 0x02
  mem_all a := by cases a <;> simp
  nodup := by decide

inductive ZdpAffinity where
  | parent
  | child
  | sibling
  | noneOfTheAbove
  deriving DecidableEq, Repr

def ZdpAffinity.enum : Codec.Enum 3 ZdpAffinity where
  all := [.parent, .child, .sibling, .noneOfTheAbove]
  disc
    | .parent => 0x00
    | .child => 0x01
    | .sibling => 0x02
    | .noneOfTheAbove => 0x03
  mem_all a := by cases a <;> simp
  nodup := by decide

inductive ZdpPermitJoining where
  | notAccepting
  | accepting
  | unknown
  deriving DecidableEq, Repr

def ZdpPermitJoining.enum : Codec.Enum 2 ZdpPermitJoining where
  all := [.notAccepting, .accepting, .unknown]
  disc
    | .notAccepting => 0x00
    | .accepting => 0x01
    | .unknown => 0x02
  mem_all a := by cases a <;> simp
  nodup := by decide

structure NeighborDescriptor where
  extendedPanId : Eui64
  extendedAddress : Eui64
  networkAddress : Nwk
  deviceType : ZdpDeviceType
  rxOnWhenIdle : ZdpRxOnWhenIdle
  affinity : ZdpAffinity
  permitJoining : ZdpPermitJoining
  depth : UInt8
  lqa : UInt8
  deriving DecidableEq, Repr

def NeighborDescriptor.codec : Codec NeighborDescriptor :=
  (Eui64.codec.pair <| Eui64.codec.pair <| Nwk.codec.pair <|
    (Codec.enum ZdpDeviceType.enum).pair <| (Codec.enum ZdpRxOnWhenIdle.enum).pair <|
    (Codec.enum ZdpAffinity.enum).pair <| (Codec.reserved 1).pair <|
    (Codec.enum ZdpPermitJoining.enum).pair <| (Codec.reserved 6).pair <| u8.pair u8).imap
    (fun (extendedPanId, extendedAddress, networkAddress, deviceType, rxOnWhenIdle, affinity, _,
        permitJoining, _, depth, lqa) =>
      { extendedPanId, extendedAddress, networkAddress, deviceType, rxOnWhenIdle, affinity,
        permitJoining, depth, lqa })
    (fun c => (c.extendedPanId, c.extendedAddress, c.networkAddress, c.deviceType,
      c.rxOnWhenIdle, c.affinity, (), c.permitJoining, (), c.depth, c.lqa))
    (fun _ => rfl) (fun _ => rfl)

structure MgmtLqiRsp where
  status : ZdpStatus
  neighborTableEntries : UInt8
  startIndex : UInt8
  neighborTableList : List NeighborDescriptor
  deriving DecidableEq, Repr

/-- The header of a table response: the status, the size of the table, where the slice
begins, and how long it is. -/
def tableHeader : Codec (Fin (2 ^ 8) × ZdpStatus × UInt8 × UInt8) :=
  ((Codec.enum ZdpStatus.enum).pair <| u8.pair <| u8.pair <| Codec.uint 8).imap
    (fun (status, entries, startIndex, count) => (count, status, entries, startIndex))
    (fun (count, status, entries, startIndex) => (status, entries, startIndex, count))
    (fun _ => rfl) (fun _ => rfl)

def MgmtLqiRsp.codec : Codec MgmtLqiRsp :=
  (Codec.counted tableHeader NeighborDescriptor.codec).imap
    (fun ((status, neighborTableEntries, startIndex), neighborTableList) =>
      { status, neighborTableEntries, startIndex, neighborTableList })
    (fun c => ((c.status, c.neighborTableEntries, c.startIndex), c.neighborTableList))
    (fun _ => rfl) (fun _ => rfl)

structure MgmtRtgReq where
  startIndex : UInt8
  deriving DecidableEq, Repr

def MgmtRtgReq.codec : Codec MgmtRtgReq :=
  u8.imap (fun startIndex => ⟨startIndex⟩) (fun c => c.startIndex) (fun _ => rfl) (fun _ => rfl)

inductive ZdpRouteStatus where
  | active
  | discoveryUnderway
  | discoveryFailed
  | inactive
  deriving DecidableEq, Repr

def ZdpRouteStatus.enum : Codec.Enum 3 ZdpRouteStatus where
  all := [.active, .discoveryUnderway, .discoveryFailed, .inactive]
  disc
    | .active => 0x00
    | .discoveryUnderway => 0x01
    | .discoveryFailed => 0x02
    | .inactive => 0x03
  mem_all a := by cases a <;> simp
  nodup := by decide

structure RoutingDescriptor where
  destinationAddress : Nwk
  status : ZdpRouteStatus
  memoryConstrained : Bool
  manyToOne : Bool
  routeRecordRequired : Bool
  nextHopAddress : Nwk
  deriving DecidableEq, Repr

def RoutingDescriptor.codec : Codec RoutingDescriptor :=
  (Nwk.codec.pair <| (Codec.enum ZdpRouteStatus.enum).pair <| Codec.bool.pair <|
    Codec.bool.pair <| Codec.bool.pair <| (Codec.reserved 2).pair Nwk.codec).imap
    (fun (destinationAddress, status, memoryConstrained, manyToOne, routeRecordRequired, _,
        nextHopAddress) =>
      { destinationAddress, status, memoryConstrained, manyToOne, routeRecordRequired,
        nextHopAddress })
    (fun c => (c.destinationAddress, c.status, c.memoryConstrained, c.manyToOne,
      c.routeRecordRequired, (), c.nextHopAddress))
    (fun _ => rfl) (fun _ => rfl)

structure MgmtRtgRsp where
  status : ZdpStatus
  routingTableEntries : UInt8
  startIndex : UInt8
  routingTableList : List RoutingDescriptor
  deriving DecidableEq, Repr

def MgmtRtgRsp.codec : Codec MgmtRtgRsp :=
  (Codec.counted tableHeader RoutingDescriptor.codec).imap
    (fun ((status, routingTableEntries, startIndex), routingTableList) =>
      { status, routingTableEntries, startIndex, routingTableList })
    (fun c => ((c.status, c.routingTableEntries, c.startIndex), c.routingTableList))
    (fun _ => rfl) (fun _ => rfl)

/-! ## Frames -/

namespace Zdp

/-- `MAC_PAYLOAD_MAX_LEN`. -/
def macPayloadMaxLen : Nat := 104

/-- The transaction sequence number and the command, through a buffer of fixed size.  The
callers unwrap the result. -/
def serialize {α : Type} (codec : Codec α) (tsn : UInt8) (command : α) : Checked Bytes :=
  match codec.writeBytes command with
  | some written =>
    if written.length + 1 ≤ macPayloadMaxLen then .ok (tsn :: written) else .error .unwrap
  | none => .error .unwrap

/-- The transaction sequence number and the command at the start of what follows it. -/
def deserialize {α : Type} (codec : Codec α) : Bytes → Option (UInt8 × α)
  | [] => none
  | tsn :: payload => (fromAbstractBytes codec payload).toOption.map (tsn, ·)

theorem length_le_of_serialize {α : Type} {codec : Codec α} {tsn : UInt8} {command : α}
    {serialized : Bytes} (h : serialize codec tsn command = .ok serialized) :
    serialized.length ≤ macPayloadMaxLen := by
  unfold serialize at h
  split at h
  next =>
    split at h
    next hlen =>
      cases h
      exact hlen
    next => cases h
  next => cases h

theorem serialize_eq_ok {α : Type} {codec : Codec α} {tsn : UInt8} {command : α} {w : List Bool}
    (hwrite : codec.write command = some w) (hfits : w.length ≤ 8 * 103) :
    ∃ serialized, serialize codec tsn command = .ok serialized := by
  refine ⟨tsn :: pack w, ?_⟩
  have hlen : (pack w).length + 1 ≤ macPayloadMaxLen := by
    rw [length_pack, bytesFor]
    change _ ≤ 104
    omega
  rw [serialize, Codec.writeBytes, hwrite, Option.map_some]
  exact if_pos hlen

/-- What was serialized is read back. -/
theorem deserialize_serialize {α : Type} {codec : Codec α} {tsn : UInt8} {command : α}
    {serialized : Bytes} (h : serialize codec tsn command = .ok serialized) :
    deserialize codec serialized = some (tsn, command) := by
  unfold serialize at h
  split at h
  next written hwritten =>
    split at h
    next =>
      cases h
      have hread := Codec.readBytes_writeBytes hwritten []
      rw [List.append_nil] at hread
      rw [deserialize, fromAbstractBytes, hread]
      rfl
    next => cases h
  next => cases h

end Zdp

end Ziggurat
