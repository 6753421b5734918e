import Ziggurat.Ieee802154.Types

/-!
# NWK commands

The commands of `nwk/commands.rs`, each with the codec of its packed body.  A count or
a presence flag is not a field of the command: it is read off the list or the option
that it describes, so the two cannot disagree.

A command frame payload is the command id and the body.  `NwkCommand.fromBytes` keeps a
payload that it cannot decode verbatim.
-/

namespace Ziggurat

open Lib.BitCodec

/-! ## Fields -/

def Nwk.codec : Codec Nwk := Codec.uint 16

def PanId.codec : Codec PanId := Codec.uint 16

def Eui64.codec : Codec Eui64 := Codec.uint 64

/-! ## Command bodies -/

inductive NwkRouteRequestManyToOne where
  | notManyToOne
  | manyToOneSenderSupportsRouteRecordTable
  | manyToOneSenderDoesntSupportRouteRecordTable
  | reserved
  deriving DecidableEq, Repr

def NwkRouteRequestManyToOne.enum : Codec.Enum 2 NwkRouteRequestManyToOne where
  all := [.notManyToOne, .manyToOneSenderSupportsRouteRecordTable,
    .manyToOneSenderDoesntSupportRouteRecordTable, .reserved]
  disc
    | .notManyToOne => 0
    | .manyToOneSenderSupportsRouteRecordTable => 1
    | .manyToOneSenderDoesntSupportRouteRecordTable => 2
    | .reserved => 3
  mem_all a := by cases a <;> simp
  nodup := by decide

structure NwkRouteRequestCommand where
  manyToOne : NwkRouteRequestManyToOne
  routeRequestIdentifier : UInt8
  destinationAddress : Nwk
  pathCost : UInt8
  destinationEui64 : Option Eui64
  deriving DecidableEq, Repr

/-- The flag for the destination EUI64 stands in the options byte. -/
def NwkRouteRequestCommand.codec : Codec NwkRouteRequestCommand :=
  (Codec.keyed
    (((Codec.reserved 3).pair <| (Codec.enum NwkRouteRequestManyToOne.enum).pair <|
        Codec.bool.pair <| (Codec.reserved 2).pair <| u8.pair <| Nwk.codec.pair u8).imap
      (fun (_, manyToOne, has, _, id, address, cost) => (has, manyToOne, id, address, cost))
      (fun (has, manyToOne, id, address, cost) => ((), manyToOne, has, (), id, address, cost))
      (fun _ => rfl) (fun _ => rfl))
    (fun destinationEui64 => some destinationEui64.isSome)
    (fun has => Codec.presence has Eui64.codec)
    (fun hread => congrArg some (Codec.isSome_read_presence hread))).imap
    (fun ((manyToOne, routeRequestIdentifier, destinationAddress, pathCost),
        destinationEui64) =>
      { manyToOne, routeRequestIdentifier, destinationAddress, pathCost, destinationEui64 })
    (fun c => ((c.manyToOne, c.routeRequestIdentifier, c.destinationAddress, c.pathCost),
      c.destinationEui64))
    (fun _ => rfl) (fun _ => rfl)

structure NwkRouteReplyCommand where
  routeRequestIdentifier : UInt8
  originatorNwk : Nwk
  responderNwk : Nwk
  pathCost : UInt8
  originatorEui64 : Option Eui64
  responderEui64 : Option Eui64
  deriving DecidableEq, Repr

/-- Two flags in the options byte select the two addresses at the end. -/
def NwkRouteReplyCommand.codec : Codec NwkRouteReplyCommand :=
  (Codec.keyed
    (((Codec.reserved 4).pair <| Codec.bool.pair <| Codec.bool.pair <| (Codec.reserved 2).pair <|
        u8.pair <| Nwk.codec.pair <| Nwk.codec.pair u8).imap
      (fun (_, hasOriginator, hasResponder, _, id, originator, responder, cost) =>
        ((hasOriginator, hasResponder), id, originator, responder, cost))
      (fun ((hasOriginator, hasResponder), id, originator, responder, cost) =>
        ((), hasOriginator, hasResponder, (), id, originator, responder, cost))
      (fun _ => rfl) (fun _ => rfl))
    (fun (originatorEui64, responderEui64) =>
      some (originatorEui64.isSome, responderEui64.isSome))
    (fun (hasOriginator, hasResponder) =>
      (Codec.presence hasOriginator Eui64.codec).pair (Codec.presence hasResponder Eui64.codec))
    (fun {k bits x rest} hread => by
      obtain ⟨mid, horiginator, hresponder⟩ := Codec.read_pair hread
      exact congrArg some (Prod.ext (Codec.isSome_read_presence horiginator)
        (Codec.isSome_read_presence hresponder)))).imap
    (fun ((routeRequestIdentifier, originatorNwk, responderNwk, pathCost), originatorEui64,
        responderEui64) =>
      { routeRequestIdentifier, originatorNwk, responderNwk, pathCost, originatorEui64,
        responderEui64 })
    (fun c => ((c.routeRequestIdentifier, c.originatorNwk, c.responderNwk, c.pathCost),
      c.originatorEui64, c.responderEui64))
    (fun _ => rfl) (fun _ => rfl)

inductive NwkNetworkStatus where
  | legacyNoRouteAvailable
  | legacyLinkFailure
  | linkFailure
  | lowBatteryLevel
  | noRoutingCapacity
  | noIndirectCapacity
  | indirectTransactionExpiry
  | targetDeviceUnavailable
  | targetAddressUnallocated
  | parentLinkFailure
  | validateRoute
  | sourceRouteFailure
  | manyToOneRouteFailure
  | addressConflict
  | verifyAddresses
  | panIdentifierUpdate
  | networkAddressUpdate
  | badFrameCounter
  | badKeySequenceNumber
  | unknownCommand
  | panIdConflictReport
  deriving DecidableEq, Repr

def NwkNetworkStatus.enum : Codec.Enum 8 NwkNetworkStatus where
  all := [.legacyNoRouteAvailable, .legacyLinkFailure, .linkFailure, .lowBatteryLevel,
    .noRoutingCapacity, .noIndirectCapacity, .indirectTransactionExpiry,
    .targetDeviceUnavailable, .targetAddressUnallocated, .parentLinkFailure, .validateRoute,
    .sourceRouteFailure, .manyToOneRouteFailure, .addressConflict, .verifyAddresses,
    .panIdentifierUpdate, .networkAddressUpdate, .badFrameCounter, .badKeySequenceNumber,
    .unknownCommand, .panIdConflictReport]
  disc
    | .legacyNoRouteAvailable => 0x00
    | .legacyLinkFailure => 0x01
    | .linkFailure => 0x02
    | .lowBatteryLevel => 0x03
    | .noRoutingCapacity => 0x04
    | .noIndirectCapacity => 0x05
    | .indirectTransactionExpiry => 0x06
    | .targetDeviceUnavailable => 0x07
    | .targetAddressUnallocated => 0x08
    | .parentLinkFailure => 0x09
    | .validateRoute => 0x0A
    | .sourceRouteFailure => 0x0B
    | .manyToOneRouteFailure => 0x0C
    | .addressConflict => 0x0D
    | .verifyAddresses => 0x0E
    | .panIdentifierUpdate => 0x0F
    | .networkAddressUpdate => 0x10
    | .badFrameCounter => 0x11
    | .badKeySequenceNumber => 0x12
    | .unknownCommand => 0x13
    | .panIdConflictReport => 0x14
  mem_all a := by cases a <;> simp
  nodup := by decide

structure NwkNetworkStatusCommand where
  statusCode : NwkNetworkStatus
  networkAddress : Nwk
  deriving DecidableEq, Repr

def NwkNetworkStatusCommand.codec : Codec NwkNetworkStatusCommand :=
  ((Codec.enum NwkNetworkStatus.enum).pair Nwk.codec).imap
    (fun (statusCode, networkAddress) => { statusCode, networkAddress })
    (fun c => (c.statusCode, c.networkAddress)) (fun _ => rfl) (fun _ => rfl)

structure NwkRouteRecordCommand where
  relays : List Nwk
  deriving DecidableEq, Repr

def NwkRouteRecordCommand.codec : Codec NwkRouteRecordCommand :=
  (Codec.counted ((Codec.uint 8).pair (Codec.reserved 0)) Nwk.codec).imap
    (fun ((), relays) => { relays }) (fun c => ((), c.relays)) (fun _ => rfl) (fun _ => rfl)

inductive NwkRejoinCapabilityInformationDeviceType where
  | endDevice
  | router
  deriving DecidableEq, Repr

def NwkRejoinCapabilityInformationDeviceType.enum :
    Codec.Enum 1 NwkRejoinCapabilityInformationDeviceType where
  all := [.endDevice, .router]
  disc
    | .endDevice => 0
    | .router => 1
  mem_all a := by cases a <;> simp
  nodup := by decide

inductive NwkRejoinCapabilityInformationPowerSource where
  | otherPowerSource
  | mainsPowered
  deriving DecidableEq, Repr

def NwkRejoinCapabilityInformationPowerSource.enum :
    Codec.Enum 1 NwkRejoinCapabilityInformationPowerSource where
  all := [.otherPowerSource, .mainsPowered]
  disc
    | .otherPowerSource => 0
    | .mainsPowered => 1
  mem_all a := by cases a <;> simp
  nodup := by decide

structure NwkRejoinCapabilityInformation where
  alternatePanCoordinator : Bool
  deviceType : NwkRejoinCapabilityInformationDeviceType
  powerSource : NwkRejoinCapabilityInformationPowerSource
  receiverOnWhenIdle : Bool
  reserved1 : Fin (2 ^ 1)
  reserved2 : Fin (2 ^ 1)
  securityCapability : Bool
  allocateAddress : Bool
  deriving DecidableEq, Repr

def NwkRejoinCapabilityInformation.codec : Codec NwkRejoinCapabilityInformation :=
  (Codec.bool.pair <| (Codec.enum NwkRejoinCapabilityInformationDeviceType.enum).pair <|
    (Codec.enum NwkRejoinCapabilityInformationPowerSource.enum).pair <| Codec.bool.pair <|
    (Codec.uint 1).pair <| (Codec.uint 1).pair <| Codec.bool.pair Codec.bool).imap
    (fun (alternatePanCoordinator, deviceType, powerSource, receiverOnWhenIdle, reserved1,
        reserved2, securityCapability, allocateAddress) =>
      { alternatePanCoordinator, deviceType, powerSource, receiverOnWhenIdle, reserved1,
        reserved2, securityCapability, allocateAddress })
    (fun c => (c.alternatePanCoordinator, c.deviceType, c.powerSource, c.receiverOnWhenIdle,
      c.reserved1, c.reserved2, c.securityCapability, c.allocateAddress))
    (fun _ => rfl) (fun _ => rfl)

structure NwkRejoinRequestCommand where
  capabilityInformation : NwkRejoinCapabilityInformation
  deriving DecidableEq, Repr

def NwkRejoinRequestCommand.codec : Codec NwkRejoinRequestCommand :=
  NwkRejoinCapabilityInformation.codec.imap (fun capabilityInformation => ⟨capabilityInformation⟩)
    (fun c => c.capabilityInformation) (fun _ => rfl) (fun _ => rfl)

inductive Nwk802154AssociationStatus where
  | associationSuccessful
  | panAtCapacity
  | panAccessDenied
  | hoppingSequenceOffsetDuplication
  | fastAssociationSuccessful
  | zigbeeAddressConflict
  deriving DecidableEq, Repr

def Nwk802154AssociationStatus.enum : Codec.Enum 8 Nwk802154AssociationStatus where
  all := [.associationSuccessful, .panAtCapacity, .panAccessDenied,
    .hoppingSequenceOffsetDuplication, .fastAssociationSuccessful, .zigbeeAddressConflict]
  disc
    | .associationSuccessful => 0x00
    | .panAtCapacity => 0x01
    | .panAccessDenied => 0x02
    | .hoppingSequenceOffsetDuplication => 0x03
    | .fastAssociationSuccessful => 0x80
    | .zigbeeAddressConflict => 0xF0
  mem_all a := by cases a <;> simp
  nodup := by decide

structure NwkRejoinResponseCommand where
  networkAddress : Nwk
  rejoinStatus : Nwk802154AssociationStatus
  deriving DecidableEq, Repr

def NwkRejoinResponseCommand.codec : Codec NwkRejoinResponseCommand :=
  (Nwk.codec.pair (Codec.enum Nwk802154AssociationStatus.enum)).imap
    (fun (networkAddress, rejoinStatus) => { networkAddress, rejoinStatus })
    (fun c => (c.networkAddress, c.rejoinStatus)) (fun _ => rfl) (fun _ => rfl)

structure NwkLinkStatus where
  address : Nwk
  incomingCost : Fin (2 ^ 3)
  outgoingCost : Fin (2 ^ 3)
  deriving DecidableEq, Repr

def NwkLinkStatus.codec : Codec NwkLinkStatus :=
  (Nwk.codec.pair <| (Codec.uint 3).pair <| (Codec.reserved 1).pair <|
    (Codec.uint 3).pair <| Codec.reserved 1).imap
    (fun (address, incomingCost, _, outgoingCost, _) => { address, incomingCost, outgoingCost })
    (fun c => (c.address, c.incomingCost, (), c.outgoingCost, ()))
    (fun _ => rfl) (fun _ => rfl)

structure NwkLinkStatusCommand where
  isFirstFrame : Bool
  isLastFrame : Bool
  linkStatuses : List NwkLinkStatus
  deriving DecidableEq, Repr

def NwkLinkStatusCommand.codec : Codec NwkLinkStatusCommand :=
  (Codec.counted
    (((Codec.uint 5).pair <| Codec.bool.pair <| Codec.bool.pair <| Codec.reserved 1))
    NwkLinkStatus.codec).imap
    (fun ((isFirstFrame, isLastFrame, ()), linkStatuses) =>
      { isFirstFrame, isLastFrame, linkStatuses })
    (fun c => ((c.isFirstFrame, c.isLastFrame, ()), c.linkStatuses))
    (fun _ => rfl) (fun _ => rfl)

structure NwkLeaveCommand where
  rejoin : Bool
  request : Bool
  removeChildren : Bool
  deriving DecidableEq, Repr

def NwkLeaveCommand.codec : Codec NwkLeaveCommand :=
  ((Codec.reserved 5).pair <| Codec.bool.pair <| Codec.bool.pair Codec.bool).imap
    (fun (_, rejoin, request, removeChildren) => { rejoin, request, removeChildren })
    (fun c => ((), c.rejoin, c.request, c.removeChildren)) (fun _ => rfl) (fun _ => rfl)

inductive EndDeviceTimeout where
  | seconds10
  | minutes2
  | minutes4
  | minutes8
  | minutes16
  | minutes32
  | minutes64
  | minutes128
  | minutes256
  | minutes512
  | minutes1024
  | minutes2048
  | minutes4096
  | minutes8192
  | minutes16384
  deriving DecidableEq, Repr

def EndDeviceTimeout.enum : Codec.Enum 8 EndDeviceTimeout where
  all := [.seconds10, .minutes2, .minutes4, .minutes8, .minutes16, .minutes32, .minutes64,
    .minutes128, .minutes256, .minutes512, .minutes1024, .minutes2048, .minutes4096,
    .minutes8192, .minutes16384]
  disc
    | .seconds10 => 0
    | .minutes2 => 1
    | .minutes4 => 2
    | .minutes8 => 3
    | .minutes16 => 4
    | .minutes32 => 5
    | .minutes64 => 6
    | .minutes128 => 7
    | .minutes256 => 8
    | .minutes512 => 9
    | .minutes1024 => 10
    | .minutes2048 => 11
    | .minutes4096 => 12
    | .minutes8192 => 13
    | .minutes16384 => 14
  mem_all a := by cases a <;> simp
  nodup := by decide

inductive NwkReportCommandIdentifier where
  | panIdentifierConflict
  deriving DecidableEq, Repr

def NwkReportCommandIdentifier.enum : Codec.Enum 3 NwkReportCommandIdentifier where
  all := [.panIdentifierConflict]
  disc
    | .panIdentifierConflict => 0x00
  mem_all a := by cases a; simp
  nodup := by decide

structure NwkNetworkReportCommand where
  reportCommandIdentifier : NwkReportCommandIdentifier
  epid : Eui64
  panIds : List PanId
  deriving DecidableEq, Repr

def NwkNetworkReportCommand.codec : Codec NwkNetworkReportCommand :=
  (Codec.counted
    ((Codec.uint 5).pair <| (Codec.enum NwkReportCommandIdentifier.enum).pair Eui64.codec)
    PanId.codec).imap
    (fun ((reportCommandIdentifier, epid), panIds) => { reportCommandIdentifier, epid, panIds })
    (fun c => ((c.reportCommandIdentifier, c.epid), c.panIds)) (fun _ => rfl) (fun _ => rfl)

inductive NwkUpdateCommandIdentifier where
  | panIdentifierUpdate
  deriving DecidableEq, Repr

def NwkUpdateCommandIdentifier.enum : Codec.Enum 3 NwkUpdateCommandIdentifier where
  all := [.panIdentifierUpdate]
  disc
    | .panIdentifierUpdate => 0x00
  mem_all a := by cases a; simp
  nodup := by decide

/-- The count of this command describes no list, so it is a field. -/
structure NwkNetworkUpdateCommand where
  updateInformationCount : Fin (2 ^ 5)
  updateCommandIdentifier : NwkUpdateCommandIdentifier
  epid : Eui64
  updateId : UInt8
  newPanId : Nwk
  deriving DecidableEq, Repr

def NwkNetworkUpdateCommand.codec : Codec NwkNetworkUpdateCommand :=
  ((Codec.uint 5).pair <| (Codec.enum NwkUpdateCommandIdentifier.enum).pair <|
    Eui64.codec.pair <| u8.pair Nwk.codec).imap
    (fun (updateInformationCount, updateCommandIdentifier, epid, updateId, newPanId) =>
      { updateInformationCount, updateCommandIdentifier, epid, updateId, newPanId })
    (fun c => (c.updateInformationCount, c.updateCommandIdentifier, c.epid, c.updateId,
      c.newPanId))
    (fun _ => rfl) (fun _ => rfl)

structure NwkEndDeviceTimeoutRequestCommand where
  requestTimeoutEnum : EndDeviceTimeout
  endDeviceConfiguration : UInt8
  deriving DecidableEq, Repr

def NwkEndDeviceTimeoutRequestCommand.codec : Codec NwkEndDeviceTimeoutRequestCommand :=
  ((Codec.enum EndDeviceTimeout.enum).pair u8).imap
    (fun (requestTimeoutEnum, endDeviceConfiguration) =>
      { requestTimeoutEnum, endDeviceConfiguration })
    (fun c => (c.requestTimeoutEnum, c.endDeviceConfiguration)) (fun _ => rfl) (fun _ => rfl)

inductive NwkEndDeviceTimeoutResponseStatus where
  | success
  | incorrectValue
  | unsupportedFeature
  deriving DecidableEq, Repr

def NwkEndDeviceTimeoutResponseStatus.enum :
    Codec.Enum 8 NwkEndDeviceTimeoutResponseStatus where
  all := [.success, .incorrectValue, .unsupportedFeature]
  disc
    | .success => 0x00
    | .incorrectValue => 0x01
    | .unsupportedFeature => 0x02
  mem_all a := by cases a <;> simp
  nodup := by decide

structure NwkEndDeviceTimeoutResponseCommand where
  status : NwkEndDeviceTimeoutResponseStatus
  macDataPollKeepaliveSupported : Bool
  endDeviceTimeoutRequestKeepaliveSupported : Bool
  powerNegotationSupport : Bool
  deriving DecidableEq, Repr

def NwkEndDeviceTimeoutResponseCommand.codec : Codec NwkEndDeviceTimeoutResponseCommand :=
  ((Codec.enum NwkEndDeviceTimeoutResponseStatus.enum).pair <| Codec.bool.pair <|
    Codec.bool.pair <| Codec.bool.pair <| Codec.reserved 5).imap
    (fun (status, macDataPollKeepaliveSupported, endDeviceTimeoutRequestKeepaliveSupported,
        powerNegotationSupport, _) =>
      { status, macDataPollKeepaliveSupported, endDeviceTimeoutRequestKeepaliveSupported,
        powerNegotationSupport })
    (fun c => (c.status, c.macDataPollKeepaliveSupported,
      c.endDeviceTimeoutRequestKeepaliveSupported, c.powerNegotationSupport, ()))
    (fun _ => rfl) (fun _ => rfl)

inductive NwkLinkPowerDeltaType where
  | notification
  | request
  | response
  deriving DecidableEq, Repr

def NwkLinkPowerDeltaType.enum : Codec.Enum 2 NwkLinkPowerDeltaType where
  all := [.notification, .request, .response]
  disc
    | .notification => 0
    | .request => 1
    | .response => 2
  mem_all a := by cases a <;> simp
  nodup := by decide

structure NwkPowerListEntry where
  deviceAddress : Nwk
  powerDelta : UInt8
  deriving DecidableEq, Repr

def NwkPowerListEntry.codec : Codec NwkPowerListEntry :=
  (Nwk.codec.pair u8).imap (fun (deviceAddress, powerDelta) => { deviceAddress, powerDelta })
    (fun c => (c.deviceAddress, c.powerDelta)) (fun _ => rfl) (fun _ => rfl)

structure NwkLinkPowerDeltaCommand where
  commandType : NwkLinkPowerDeltaType
  powerList : List NwkPowerListEntry
  deriving DecidableEq, Repr

def NwkLinkPowerDeltaCommand.codec : Codec NwkLinkPowerDeltaCommand :=
  (Codec.counted
    (((Codec.enum NwkLinkPowerDeltaType.enum).pair <| (Codec.reserved 6).pair <|
        Codec.uint 8).imap
      (fun (commandType, _, listCount) => (listCount, commandType))
      (fun (listCount, commandType) => (commandType, (), listCount))
      (fun _ => rfl) (fun _ => rfl))
    NwkPowerListEntry.codec).imap
    (fun (commandType, powerList) => { commandType, powerList })
    (fun c => (c.commandType, c.powerList)) (fun _ => rfl) (fun _ => rfl)

inductive NwkCommissioningType where
  | initialJoin
  | rejoin
  deriving DecidableEq, Repr

def NwkCommissioningType.enum : Codec.Enum 8 NwkCommissioningType where
  all := [.initialJoin, .rejoin]
  disc
    | .initialJoin => 0x00
    | .rejoin => 0x01
  mem_all a := by cases a <;> simp
  nodup := by decide

structure NwkNetworkCommissioningRequestCommand where
  commissioningType : NwkCommissioningType
  capabilityInformation : NwkRejoinCapabilityInformation
  deriving DecidableEq, Repr

def NwkNetworkCommissioningRequestCommand.codec : Codec NwkNetworkCommissioningRequestCommand :=
  ((Codec.enum NwkCommissioningType.enum).pair NwkRejoinCapabilityInformation.codec).imap
    (fun (commissioningType, capabilityInformation) =>
      { commissioningType, capabilityInformation })
    (fun c => (c.commissioningType, c.capabilityInformation)) (fun _ => rfl) (fun _ => rfl)

structure NwkNetworkCommissioningResponseCommand where
  networkAddress : Nwk
  status : Nwk802154AssociationStatus
  deriving DecidableEq, Repr

def NwkNetworkCommissioningResponseCommand.codec :
    Codec NwkNetworkCommissioningResponseCommand :=
  (Nwk.codec.pair (Codec.enum Nwk802154AssociationStatus.enum)).imap
    (fun (networkAddress, status) => { networkAddress, status })
    (fun c => (c.networkAddress, c.status)) (fun _ => rfl) (fun _ => rfl)

/-! ## Command payloads -/

inductive NwkCommandId where
  | routeRequest
  | routeReply
  | networkStatus
  | leave
  | routeRecord
  | rejoinRequest
  | rejoinResponse
  | linkStatus
  | networkReport
  | networkUpdate
  | endDeviceTimeoutRequest
  | endDeviceTimeoutResponse
  | linkPowerDelta
  | networkCommissioningRequest
  | networkCommissioningResponse
  deriving DecidableEq, Repr

def NwkCommandId.enum : Codec.Enum 8 NwkCommandId where
  all := [.routeRequest, .routeReply, .networkStatus, .leave, .routeRecord, .rejoinRequest,
    .rejoinResponse, .linkStatus, .networkReport, .networkUpdate, .endDeviceTimeoutRequest,
    .endDeviceTimeoutResponse, .linkPowerDelta, .networkCommissioningRequest,
    .networkCommissioningResponse]
  disc
    | .routeRequest => 0x01
    | .routeReply => 0x02
    | .networkStatus => 0x03
    | .leave => 0x04
    | .routeRecord => 0x05
    | .rejoinRequest => 0x06
    | .rejoinResponse => 0x07
    | .linkStatus => 0x08
    | .networkReport => 0x09
    | .networkUpdate => 0x0a
    | .endDeviceTimeoutRequest => 0x0b
    | .endDeviceTimeoutResponse => 0x0c
    | .linkPowerDelta => 0x0d
    | .networkCommissioningRequest => 0x0e
    | .networkCommissioningResponse => 0x0f
  mem_all a := by cases a <;> simp
  nodup := by decide

/-- A NWK command.  A payload that cannot be decoded is kept verbatim, its id included. -/
inductive NwkCommand where
  | routeRequest (command : NwkRouteRequestCommand)
  | routeReply (command : NwkRouteReplyCommand)
  | networkStatus (command : NwkNetworkStatusCommand)
  | leave (command : NwkLeaveCommand)
  | routeRecord (command : NwkRouteRecordCommand)
  | rejoinRequest (command : NwkRejoinRequestCommand)
  | rejoinResponse (command : NwkRejoinResponseCommand)
  | linkStatus (command : NwkLinkStatusCommand)
  | networkReport (command : NwkNetworkReportCommand)
  | networkUpdate (command : NwkNetworkUpdateCommand)
  | endDeviceTimeoutRequest (command : NwkEndDeviceTimeoutRequestCommand)
  | endDeviceTimeoutResponse (command : NwkEndDeviceTimeoutResponseCommand)
  | linkPowerDelta (command : NwkLinkPowerDeltaCommand)
  | networkCommissioningRequest (command : NwkNetworkCommissioningRequestCommand)
  | networkCommissioningResponse (command : NwkNetworkCommissioningResponseCommand)
  | unparsed (raw : FrameBytes)
  deriving DecidableEq

namespace NwkCommand

/-- `parse_body`. -/
def parseBody {α : Type} (codec : Codec α) (body : Bytes) : Option α :=
  (fromAbstractBytes codec body).toOption

def tryParse (bytes : Bytes) : Option NwkCommand :=
  match bytes with
  | [] => none
  | idByte :: body => do
    match ← NwkCommandId.enum.ofDisc idByte.toFin with
    | .routeRequest => return .routeRequest (← parseBody NwkRouteRequestCommand.codec body)
    | .routeReply => return .routeReply (← parseBody NwkRouteReplyCommand.codec body)
    | .networkStatus => return .networkStatus (← parseBody NwkNetworkStatusCommand.codec body)
    | .leave => return .leave (← parseBody NwkLeaveCommand.codec body)
    | .routeRecord => return .routeRecord (← parseBody NwkRouteRecordCommand.codec body)
    | .rejoinRequest => return .rejoinRequest (← parseBody NwkRejoinRequestCommand.codec body)
    | .rejoinResponse => return .rejoinResponse (← parseBody NwkRejoinResponseCommand.codec body)
    | .linkStatus => return .linkStatus (← parseBody NwkLinkStatusCommand.codec body)
    | .networkReport => return .networkReport (← parseBody NwkNetworkReportCommand.codec body)
    | .networkUpdate => return .networkUpdate (← parseBody NwkNetworkUpdateCommand.codec body)
    | .endDeviceTimeoutRequest =>
      return .endDeviceTimeoutRequest
        (← parseBody NwkEndDeviceTimeoutRequestCommand.codec body)
    | .endDeviceTimeoutResponse =>
      return .endDeviceTimeoutResponse
        (← parseBody NwkEndDeviceTimeoutResponseCommand.codec body)
    | .linkPowerDelta => return .linkPowerDelta (← parseBody NwkLinkPowerDeltaCommand.codec body)
    | .networkCommissioningRequest =>
      return .networkCommissioningRequest
        (← parseBody NwkNetworkCommissioningRequestCommand.codec body)
    | .networkCommissioningResponse =>
      return .networkCommissioningResponse
        (← parseBody NwkNetworkCommissioningResponseCommand.codec body)

/-- An unknown id or a body that fails to parse is kept verbatim. -/
def fromBytes (bytes : Bytes) : Checked NwkCommand :=
  match tryParse bytes with
  | some command => .ok command
  | none => do
    return .unparsed (← Checked.expect "a NWK command payload is frame-bounded"
      (FrameBytes.fromSlice bytes))

/-- The id byte followed by the body. -/
def toBytes : NwkCommand → Checked Bytes
  | .routeRequest c => command .routeRequest (NwkRouteRequestCommand.codec.writeBytes c)
  | .routeReply c => command .routeReply (NwkRouteReplyCommand.codec.writeBytes c)
  | .networkStatus c => command .networkStatus (NwkNetworkStatusCommand.codec.writeBytes c)
  | .leave c => command .leave (NwkLeaveCommand.codec.writeBytes c)
  | .routeRecord c => command .routeRecord (NwkRouteRecordCommand.codec.writeBytes c)
  | .rejoinRequest c => command .rejoinRequest (NwkRejoinRequestCommand.codec.writeBytes c)
  | .rejoinResponse c => command .rejoinResponse (NwkRejoinResponseCommand.codec.writeBytes c)
  | .linkStatus c => command .linkStatus (NwkLinkStatusCommand.codec.writeBytes c)
  | .networkReport c => command .networkReport (NwkNetworkReportCommand.codec.writeBytes c)
  | .networkUpdate c => command .networkUpdate (NwkNetworkUpdateCommand.codec.writeBytes c)
  | .endDeviceTimeoutRequest c => command .endDeviceTimeoutRequest
      (NwkEndDeviceTimeoutRequestCommand.codec.writeBytes c)
  | .endDeviceTimeoutResponse c => command .endDeviceTimeoutResponse
      (NwkEndDeviceTimeoutResponseCommand.codec.writeBytes c)
  | .linkPowerDelta c => command .linkPowerDelta (NwkLinkPowerDeltaCommand.codec.writeBytes c)
  | .networkCommissioningRequest c => command .networkCommissioningRequest
      (NwkNetworkCommissioningRequestCommand.codec.writeBytes c)
  | .networkCommissioningResponse c => command .networkCommissioningResponse
      (NwkNetworkCommissioningResponseCommand.codec.writeBytes c)
  | .unparsed raw => .ok raw.bytes
where
  command (id : NwkCommandId) (body : Option Bytes) : Checked Bytes := do
    return UInt8.ofFin (NwkCommandId.enum.disc id) :: (← Checked.unwrap body)

/-- A payload that fits a frame is decoded or kept. -/
theorem fromBytes_eq_ok {bytes : Bytes} (h : bytes.length ≤ maxPhyPacketSize) :
    ∃ command, fromBytes bytes = .ok command := by
  unfold fromBytes
  cases tryParse bytes with
  | some command => exact ⟨command, rfl⟩
  | none => exact ⟨.unparsed ⟨bytes, h⟩, by rw [FrameBytes.fromSlice_eq h]; rfl⟩

end NwkCommand

end Ziggurat
