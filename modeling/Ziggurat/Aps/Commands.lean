import Ziggurat.Aps.Frame

/-!
# APS commands

The key-management commands of `aps/frame.rs`.  Most bodies are packed structures.  The
Transport-Key, Request-Key and Tunnel commands have parsers of their own, since their
first field decides what follows it.
-/

namespace Ziggurat

open Lib.BitCodec

def Key.codec : Codec Key := Codec.uint 128

inductive ApsCommandId where
  | transportKey
  | updateDevice
  | removeDevice
  | requestKey
  | switchKey
  | tunnel
  | verifyKey
  | confirmKey
  | relayMessageDownstream
  | relayMessageUpstream
  deriving DecidableEq, Repr

def ApsCommandId.enum : Codec.Enum 8 ApsCommandId where
  all := [.transportKey, .updateDevice, .removeDevice, .requestKey, .switchKey, .tunnel,
    .verifyKey, .confirmKey, .relayMessageDownstream, .relayMessageUpstream]
  disc
    | .transportKey => 0x05
    | .updateDevice => 0x06
    | .removeDevice => 0x07
    | .requestKey => 0x08
    | .switchKey => 0x09
    | .tunnel => 0x0E
    | .verifyKey => 0x0F
    | .confirmKey => 0x10
    | .relayMessageDownstream => 0x11
    | .relayMessageUpstream => 0x12
  mem_all a := by cases a <;> simp
  nodup := by decide

/-- `T::try_from` of a byte. -/
def tryFromByte {α : Type} (e : Codec.Enum 8 α) (ty : String) (byte : UInt8) :
    Parse ParseError α :=
  match e.ofDisc byte.toFin with
  | some a => pure a
  | none => throw (.invalidDiscriminant ty byte)

/-! ## Transport-Key -/

inductive ApsStandardKeyType where
  | standardNetworkKey
  | applicationLinkKey
  | trustCenterLinkKey
  deriving DecidableEq, Repr

def ApsStandardKeyType.enum : Codec.Enum 8 ApsStandardKeyType where
  all := [.standardNetworkKey, .applicationLinkKey, .trustCenterLinkKey]
  disc
    | .standardNetworkKey => 0x01
    | .applicationLinkKey => 0x03
    | .trustCenterLinkKey => 0x04
  mem_all a := by cases a <;> simp
  nodup := by decide

structure ApsTrustCenterLinkKeyDescriptor where
  key : Key
  destinationAddress : Eui64
  sourceAddress : Eui64
  deriving DecidableEq, Repr

def ApsTrustCenterLinkKeyDescriptor.codec : Codec ApsTrustCenterLinkKeyDescriptor :=
  (Key.codec.pair <| Eui64.codec.pair Eui64.codec).imap
    (fun (key, destinationAddress, sourceAddress) => ⟨key, destinationAddress, sourceAddress⟩)
    (fun d => (d.key, d.destinationAddress, d.sourceAddress)) (fun _ => rfl) (fun _ => rfl)

structure ApsNetworkKeyDescriptor where
  key : Key
  sequenceNumber : UInt8
  destinationAddress : Eui64
  sourceAddress : Eui64
  deriving DecidableEq, Repr

def ApsNetworkKeyDescriptor.codec : Codec ApsNetworkKeyDescriptor :=
  (Key.codec.pair <| u8.pair <| Eui64.codec.pair Eui64.codec).imap
    (fun (key, sequenceNumber, destinationAddress, sourceAddress) =>
      ⟨key, sequenceNumber, destinationAddress, sourceAddress⟩)
    (fun d => (d.key, d.sequenceNumber, d.destinationAddress, d.sourceAddress))
    (fun _ => rfl) (fun _ => rfl)

structure ApsApplicationLinkKeyDescriptor where
  key : Key
  partnerAddress : Eui64
  initiatorFlag : UInt8
  deriving DecidableEq, Repr

def ApsApplicationLinkKeyDescriptor.codec : Codec ApsApplicationLinkKeyDescriptor :=
  (Key.codec.pair <| Eui64.codec.pair u8).imap
    (fun (key, partnerAddress, initiatorFlag) => ⟨key, partnerAddress, initiatorFlag⟩)
    (fun d => (d.key, d.partnerAddress, d.initiatorFlag)) (fun _ => rfl) (fun _ => rfl)

inductive ApsTransportKeyDescriptor where
  | trustCenterLinkKey (descriptor : ApsTrustCenterLinkKeyDescriptor)
  | networkKey (descriptor : ApsNetworkKeyDescriptor)
  | applicationLinkKey (descriptor : ApsApplicationLinkKeyDescriptor)
  deriving DecidableEq, Repr

structure ApsTransportKeyCommandFrame where
  standardKeyType : ApsStandardKeyType
  keyDescriptor : ApsTransportKeyDescriptor
  deriving DecidableEq, Repr

namespace ApsTransportKeyCommandFrame

def fromBytes (bytes : Bytes) : Parse ParseError ApsTransportKeyCommandFrame := do
  Parse.check (2 ≤ bytes.length) (.unexpectedEnd "ApsTransportKeyCommandFrame")
  let standardKeyType ←
    tryFromByte ApsStandardKeyType.enum "ApsStandardKeyType" (← bytes.index 0)
  let body ← bytes.sliceFrom 1
  match standardKeyType with
  | .standardNetworkKey =>
    let descriptor ← Parse.ofExcept .bits (fromAbstractBytes ApsNetworkKeyDescriptor.codec body)
    return ⟨standardKeyType, .networkKey descriptor⟩
  | .applicationLinkKey =>
    let descriptor ←
      Parse.ofExcept .bits (fromAbstractBytes ApsApplicationLinkKeyDescriptor.codec body)
    return ⟨standardKeyType, .applicationLinkKey descriptor⟩
  | .trustCenterLinkKey =>
    let descriptor ←
      Parse.ofExcept .bits (fromAbstractBytes ApsTrustCenterLinkKeyDescriptor.codec body)
    return ⟨standardKeyType, .trustCenterLinkKey descriptor⟩

def toBytes (command : ApsTransportKeyCommandFrame) : Checked Bytes := do
  let descriptor ← Checked.unwrap (match command.keyDescriptor with
    | .trustCenterLinkKey d => ApsTrustCenterLinkKeyDescriptor.codec.writeBytes d
    | .networkKey d => ApsNetworkKeyDescriptor.codec.writeBytes d
    | .applicationLinkKey d => ApsApplicationLinkKeyDescriptor.codec.writeBytes d)
  return UInt8.ofFin (ApsStandardKeyType.enum.disc command.standardKeyType) :: descriptor

end ApsTransportKeyCommandFrame

/-! ## The other commands -/

inductive ApsUpdateDeviceStatus where
  | standardDeviceSecuredRejoin
  | standardDeviceUnsecuredJoin
  | deviceLeft
  | standardDeviceTrustCenterRejoin
  deriving DecidableEq, Repr

def ApsUpdateDeviceStatus.enum : Codec.Enum 8 ApsUpdateDeviceStatus where
  all := [.standardDeviceSecuredRejoin, .standardDeviceUnsecuredJoin, .deviceLeft,
    .standardDeviceTrustCenterRejoin]
  disc
    | .standardDeviceSecuredRejoin => 0x00
    | .standardDeviceUnsecuredJoin => 0x01
    | .deviceLeft => 0x02
    | .standardDeviceTrustCenterRejoin => 0x03
  mem_all a := by cases a <;> simp
  nodup := by decide

structure ApsUpdateDeviceCommandFrame where
  deviceAddress : Eui64
  deviceShortAddress : Nwk
  status : ApsUpdateDeviceStatus
  deriving DecidableEq, Repr

def ApsUpdateDeviceCommandFrame.codec : Codec ApsUpdateDeviceCommandFrame :=
  (Eui64.codec.pair <| Nwk.codec.pair <| Codec.enum ApsUpdateDeviceStatus.enum).imap
    (fun (deviceAddress, deviceShortAddress, status) =>
      ⟨deviceAddress, deviceShortAddress, status⟩)
    (fun c => (c.deviceAddress, c.deviceShortAddress, c.status)) (fun _ => rfl) (fun _ => rfl)

structure ApsRemoveDeviceCommandFrame where
  targetAddress : Eui64
  deriving DecidableEq, Repr

def ApsRemoveDeviceCommandFrame.codec : Codec ApsRemoveDeviceCommandFrame :=
  Eui64.codec.imap (fun targetAddress => ⟨targetAddress⟩) (fun c => c.targetAddress)
    (fun _ => rfl) (fun _ => rfl)

/-- The key types of a Request-Key command differ from those of a Transport-Key one. -/
inductive ApsRequestKeyType where
  | applicationLinkKey
  | trustCenterLinkKey
  deriving DecidableEq, Repr

def ApsRequestKeyType.enum : Codec.Enum 8 ApsRequestKeyType where
  all := [.applicationLinkKey, .trustCenterLinkKey]
  disc
    | .applicationLinkKey => 0x02
    | .trustCenterLinkKey => 0x04
  mem_all a := by cases a <;> simp
  nodup := by decide

/-- The partner is there when an application link key is requested. -/
structure ApsRequestKeyCommandFrame where
  keyType : ApsRequestKeyType
  partnerAddress : Option Eui64
  deriving DecidableEq, Repr

namespace ApsRequestKeyCommandFrame

def fromBytes (bytes : Bytes) : Parse ParseError ApsRequestKeyCommandFrame := do
  Parse.check (bytes ≠ []) (.unexpectedEnd "ApsRequestKeyCommandFrame")
  let keyType ← tryFromByte ApsRequestKeyType.enum "ApsRequestKeyType" (← bytes.index 0)
  match keyType with
  | .applicationLinkKey =>
    let (partner, _) ← Parse.mapError .address (Eui64.deserialize (← bytes.sliceFrom 1))
    return ⟨keyType, some partner⟩
  | .trustCenterLinkKey => return ⟨keyType, none⟩

def toBytes (command : ApsRequestKeyCommandFrame) : Bytes :=
  UInt8.ofFin (ApsRequestKeyType.enum.disc command.keyType) ::
    optionBytes Eui64.toBytes command.partnerAddress

end ApsRequestKeyCommandFrame

structure ApsSwitchKeyCommandFrame where
  sequenceNumber : UInt8
  deriving DecidableEq, Repr

def ApsSwitchKeyCommandFrame.codec : Codec ApsSwitchKeyCommandFrame :=
  u8.imap (fun sequenceNumber => ⟨sequenceNumber⟩) (fun c => c.sequenceNumber)
    (fun _ => rfl) (fun _ => rfl)

/-- The tunneled frame is a whole secured APS frame. -/
structure ApsTunnelCommandFrame where
  destinationAddress : Eui64
  tunneledFrame : FrameBytes
  deriving DecidableEq

namespace ApsTunnelCommandFrame

def fromBytes (bytes : Bytes) : Parse ParseError ApsTunnelCommandFrame := do
  let (destinationAddress, remaining) ← Parse.mapError .address (Eui64.deserialize bytes)
  let tunneledFrame ← FrameBytes.fromSliceOr remaining (.tooLong "tunneled frame")
  return ⟨destinationAddress, tunneledFrame⟩

def toBytes (command : ApsTunnelCommandFrame) : Bytes :=
  Eui64.toBytes command.destinationAddress ++ command.tunneledFrame.bytes

end ApsTunnelCommandFrame

structure ApsVerifyKeyCommandFrame where
  standardKeyType : ApsStandardKeyType
  sourceAddress : Eui64
  initiatorVerifyKeyHash : Key
  deriving DecidableEq, Repr

def ApsVerifyKeyCommandFrame.codec : Codec ApsVerifyKeyCommandFrame :=
  ((Codec.enum ApsStandardKeyType.enum).pair <| Eui64.codec.pair Key.codec).imap
    (fun (standardKeyType, sourceAddress, initiatorVerifyKeyHash) =>
      ⟨standardKeyType, sourceAddress, initiatorVerifyKeyHash⟩)
    (fun c => (c.standardKeyType, c.sourceAddress, c.initiatorVerifyKeyHash))
    (fun _ => rfl) (fun _ => rfl)

structure ApsConfirmKeyCommandFrame where
  status : UInt8
  standardKeyType : ApsStandardKeyType
  destinationAddress : Eui64
  deriving DecidableEq, Repr

def ApsConfirmKeyCommandFrame.codec : Codec ApsConfirmKeyCommandFrame :=
  (u8.pair <| (Codec.enum ApsStandardKeyType.enum).pair Eui64.codec).imap
    (fun (status, standardKeyType, destinationAddress) =>
      ⟨status, standardKeyType, destinationAddress⟩)
    (fun c => (c.status, c.standardKeyType, c.destinationAddress)) (fun _ => rfl) (fun _ => rfl)

/-! ## Command frames -/

inductive ApsCommandFrameCommand where
  | transportKey (command : ApsTransportKeyCommandFrame)
  | updateDevice (command : ApsUpdateDeviceCommandFrame)
  | removeDevice (command : ApsRemoveDeviceCommandFrame)
  | requestKey (command : ApsRequestKeyCommandFrame)
  | switchKey (command : ApsSwitchKeyCommandFrame)
  | tunnel (command : ApsTunnelCommandFrame)
  | verifyKey (command : ApsVerifyKeyCommandFrame)
  | confirmKey (command : ApsConfirmKeyCommandFrame)
  deriving DecidableEq

namespace ApsCommandFrameCommand

def commandId : ApsCommandFrameCommand → ApsCommandId
  | .transportKey _ => .transportKey
  | .updateDevice _ => .updateDevice
  | .removeDevice _ => .removeDevice
  | .requestKey _ => .requestKey
  | .switchKey _ => .switchKey
  | .tunnel _ => .tunnel
  | .verifyKey _ => .verifyKey
  | .confirmKey _ => .confirmKey

/-- The body that a command id selects.  A relayed message is not supported. -/
def parse (commandId : ApsCommandId) (payload : Bytes) :
    Parse ParseError ApsCommandFrameCommand :=
  match commandId with
  | .transportKey => do return .transportKey (← ApsTransportKeyCommandFrame.fromBytes payload)
  | .updateDevice => do
    return .updateDevice (← packed ApsUpdateDeviceCommandFrame.codec payload)
  | .removeDevice => do
    return .removeDevice (← packed ApsRemoveDeviceCommandFrame.codec payload)
  | .requestKey => do return .requestKey (← ApsRequestKeyCommandFrame.fromBytes payload)
  | .switchKey => do return .switchKey (← packed ApsSwitchKeyCommandFrame.codec payload)
  | .tunnel => do return .tunnel (← ApsTunnelCommandFrame.fromBytes payload)
  | .verifyKey => do return .verifyKey (← packed ApsVerifyKeyCommandFrame.codec payload)
  | .confirmKey => do return .confirmKey (← packed ApsConfirmKeyCommandFrame.codec payload)
  | .relayMessageDownstream | .relayMessageUpstream =>
    throw (.unsupported "command ID for ApsCommandFrame")
where
  packed {α : Type} (codec : Codec α) (payload : Bytes) : Parse ParseError α :=
    Parse.ofExcept .bits (fromAbstractBytes codec payload)

def bodyToBytes : ApsCommandFrameCommand → Checked Bytes
  | .transportKey c => c.toBytes
  | .updateDevice c => Checked.unwrap (ApsUpdateDeviceCommandFrame.codec.writeBytes c)
  | .removeDevice c => Checked.unwrap (ApsRemoveDeviceCommandFrame.codec.writeBytes c)
  | .requestKey c => .ok c.toBytes
  | .switchKey c => Checked.unwrap (ApsSwitchKeyCommandFrame.codec.writeBytes c)
  | .tunnel c => .ok c.toBytes
  | .verifyKey c => Checked.unwrap (ApsVerifyKeyCommandFrame.codec.writeBytes c)
  | .confirmKey c => Checked.unwrap (ApsConfirmKeyCommandFrame.codec.writeBytes c)

end ApsCommandFrameCommand

structure ApsCommandFrame where
  frameControl : ApsFrameControl
  counter : UInt8
  command : ApsCommandFrameCommand
  deriving DecidableEq

/-- The frame control and the counter: the cleartext header of a command frame. -/
def apsCommandHeaderToBytes (frameControl : ApsFrameControl) (counter : UInt8) :
    Checked Bytes := do
  return (← extendAbstractBits [] ApsFrameControl.codec frameControl) ++ [counter]

namespace ApsCommandFrame

def fromBytes (bytes : Bytes) : Parse ParseError ApsCommandFrame := do
  Parse.check (3 ≤ bytes.length) (.unexpectedEnd "ApsCommandFrame")
  let frameControl ← Parse.ofExcept .bits (fromAbstractBytes ApsFrameControl.codec bytes)
  let remaining ← bytes.sliceFrom 1
  let counter ← remaining.index 0
  let commandId ← tryFromByte ApsCommandId.enum "ApsCommandId" (← remaining.index 1)
  let payload ← remaining.sliceFrom 2
  return ⟨frameControl, counter, ← ApsCommandFrameCommand.parse commandId payload⟩

/-- The id and the body, which security encrypts. -/
def payloadToBytes (frame : ApsCommandFrame) : Checked Bytes := do
  return UInt8.ofFin (ApsCommandId.enum.disc frame.command.commandId) ::
    (← frame.command.bodyToBytes)

def toBytes (frame : ApsCommandFrame) : Checked Bytes := do
  return (← apsCommandHeaderToBytes frame.frameControl frame.counter) ++
    (← frame.payloadToBytes)

end ApsCommandFrame

end Ziggurat
