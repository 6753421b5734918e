import Ziggurat.Nwk.Frame

/-!
# APS frames

The data, acknowledgement and command frames of `aps/frame.rs`, in the clear and
secured.  A secured frame keeps its header in the clear and authenticates it together
with the auxiliary header.

`parseApsFrame` decides by the first byte which of the six kinds of frame a payload is.
-/

namespace Ziggurat

open Lib.BitCodec

/-! ## Frame control -/

inductive ApsFrameType where
  | data
  | command
  | ack
  | interpan
  deriving DecidableEq, Repr

def ApsFrameType.enum : Codec.Enum 2 ApsFrameType where
  all := [.data, .command, .ack, .interpan]
  disc
    | .data => 0b00
    | .command => 0b01
    | .ack => 0b10
    | .interpan => 0b11
  mem_all a := by cases a <;> simp
  nodup := by decide

inductive ApsDeliveryMode where
  | unicast
  | broadcast
  | multicast
  deriving DecidableEq, Repr

def ApsDeliveryMode.enum : Codec.Enum 2 ApsDeliveryMode where
  all := [.unicast, .broadcast, .multicast]
  disc
    | .unicast => 0b00
    | .broadcast => 0b10
    | .multicast => 0b11
  mem_all a := by cases a <;> simp
  nodup := by decide

structure ApsFrameControl where
  frameType : ApsFrameType
  deliveryMode : ApsDeliveryMode
  reserved1 : Fin (2 ^ 1)
  security : Bool
  ackRequest : Bool
  extendedHeader : Bool
  deriving DecidableEq, Repr

def ApsFrameControl.codec : Codec ApsFrameControl :=
  ((Codec.enum ApsFrameType.enum).pair <| (Codec.enum ApsDeliveryMode.enum).pair <|
    (Codec.uint 1).pair <| Codec.bool.pair <| Codec.bool.pair Codec.bool).imap
    (fun (frameType, deliveryMode, reserved1, security, ackRequest, extendedHeader) =>
      { frameType, deliveryMode, reserved1, security, ackRequest, extendedHeader })
    (fun c => (c.frameType, c.deliveryMode, c.reserved1, c.security, c.ackRequest,
      c.extendedHeader))
    (fun _ => rfl) (fun _ => rfl)

theorem ApsFrameControl.fixed_codec : codec.Fixed 8 :=
  ((Codec.fixed_enum _).pair <| (Codec.fixed_enum _).pair <| (Codec.fixed_uint 1).pair <|
    Codec.fixed_bool.pair <| Codec.fixed_bool.pair Codec.fixed_bool).imap

/-- The frame control of an acknowledgement has the format in the place of the reserved
bit. -/
structure ApsAckFrameControl where
  frameType : ApsFrameType
  deliveryMode : ApsDeliveryMode
  ackFormat : Bool
  security : Bool
  ackRequest : Bool
  extendedHeader : Bool
  deriving DecidableEq, Repr

def ApsAckFrameControl.codec : Codec ApsAckFrameControl :=
  ((Codec.enum ApsFrameType.enum).pair <| (Codec.enum ApsDeliveryMode.enum).pair <|
    Codec.bool.pair <| Codec.bool.pair <| Codec.bool.pair Codec.bool).imap
    (fun (frameType, deliveryMode, ackFormat, security, ackRequest, extendedHeader) =>
      { frameType, deliveryMode, ackFormat, security, ackRequest, extendedHeader })
    (fun c => (c.frameType, c.deliveryMode, c.ackFormat, c.security, c.ackRequest,
      c.extendedHeader))
    (fun _ => rfl) (fun _ => rfl)

theorem ApsAckFrameControl.fixed_codec : codec.Fixed 8 :=
  ((Codec.fixed_enum _).pair <| (Codec.fixed_enum _).pair <| Codec.fixed_bool.pair <|
    Codec.fixed_bool.pair <| Codec.fixed_bool.pair Codec.fixed_bool).imap

inductive ApsFragmentation where
  | notFragmented
  | firstBlock
  | block
  deriving DecidableEq, Repr

def ApsFragmentation.enum : Codec.Enum 2 ApsFragmentation where
  all := [.notFragmented, .firstBlock, .block]
  disc
    | .notFragmented => 0b00
    | .firstBlock => 0b01
    | .block => 0b10
  mem_all a := by cases a <;> simp
  nodup := by decide

structure ApsExtendedFrameControl where
  fragmentation : ApsFragmentation
  deriving DecidableEq, Repr

def ApsExtendedFrameControl.codec : Codec ApsExtendedFrameControl :=
  ((Codec.enum ApsFragmentation.enum).pair (Codec.reserved 6)).imap
    (fun (fragmentation, _) => ⟨fragmentation⟩) (fun c => (c.fragmentation, ()))
    (fun _ => rfl) (fun _ => rfl)

/-! ## Acknowledgements -/

structure ApsAckFrame where
  frameControl : ApsAckFrameControl
  destinationEndpoint : Option UInt8
  clusterId : Option UInt16
  profileId : Option UInt16
  sourceEndpoint : Option UInt8
  counter : UInt8
  deriving DecidableEq, Repr

/-- The little-endian bytes of a `u16`. -/
def u16Bytes (v : UInt16) : Bytes := leBytes 2 v.toNat

@[simp] theorem length_u16Bytes (v : UInt16) : (u16Bytes v).length = 2 := length_leBytes 2 _

namespace ApsAckFrame

def fromBytes (bytes : Bytes) : Parse ParseError ApsAckFrame := do
  Parse.check (bytes ≠ []) (.unexpectedEnd "ApsAckFrame")
  let frameControl ← Parse.ofExcept .bits (fromAbstractBytes ApsAckFrameControl.codec bytes)
  let remaining ← bytes.sliceFrom 1
  Parse.check (frameControl.frameType = .ack) (.unsupported "non-Ack frame type for ApsAckFrame")
  -- An acknowledgement of a command has only a counter, one of data has the addressing.
  if frameControl.ackFormat then do
    Parse.check (remaining ≠ []) (.unexpectedEnd "ApsAckFrame")
    return ⟨frameControl, none, none, none, none, ← remaining.index 0⟩
  else do
    Parse.check (7 ≤ remaining.length) (.unexpectedEnd "ApsAckFrame")
    return ⟨frameControl, some (← remaining.index 0), some (← remaining.u16At 1),
      some (← remaining.u16At 3), some (← remaining.index 5), ← remaining.index 6⟩

def toBytes (frame : ApsAckFrame) : Checked Bytes := do
  let bytes ← extendAbstractBits [] ApsAckFrameControl.codec frame.frameControl
  let bytes := bytes ++ frame.destinationEndpoint.toList
  let bytes := bytes ++ optionBytes u16Bytes frame.clusterId
  let bytes := bytes ++ optionBytes u16Bytes frame.profileId
  let bytes := bytes ++ frame.sourceEndpoint.toList
  return bytes ++ [frame.counter]

end ApsAckFrame

/-! ## Data -/

/-- The header of a data frame, without the ASDU. -/
structure ApsDataHeader where
  frameControl : ApsFrameControl
  groupId : Option UInt16
  destinationEndpoint : Option UInt8
  clusterId : UInt16
  profileId : UInt16
  sourceEndpoint : UInt8
  counter : UInt8
  deriving DecidableEq, Repr

structure ApsDataFrame extends ApsDataHeader where
  asdu : FrameBytes
  deriving DecidableEq

namespace ApsDataHeader

/-- The group address, or the destination endpoint in its place. -/
def parseDestination (mode : ApsDeliveryMode) (remaining : Bytes) :
    Parse ParseError (Option UInt16 × Option UInt8 × Bytes) :=
  if mode = .multicast then do
    Parse.check (8 ≤ remaining.length) (.unexpectedEnd "multicast ApsDataFrame")
    let groupId ← remaining.u16At 0
    let remaining ← remaining.sliceFrom 2
    return (some groupId, none, remaining)
  else do
    let destinationEndpoint ← remaining.index 0
    let remaining ← remaining.sliceFrom 1
    return (none, some destinationEndpoint, remaining)

/-- An extended header is measured and rejected: a fragment is not an ASDU. -/
def rejectExtendedHeader (extendedHeader : Bool) (remaining : Bytes) : Parse ParseError Unit :=
  if extendedHeader then do
    let extendedFrameControl ←
      Parse.ofExcept .bits (fromAbstractBytes ApsExtendedFrameControl.codec remaining)
    let extendedHeaderLen := match extendedFrameControl.fragmentation with
      | .notFragmented => 1
      | .firstBlock | .block => 2
    Parse.check (extendedHeaderLen ≤ remaining.length) (.unexpectedEnd "APS extended header")
    throw (.unsupported "APS fragmentation")
  else return ()

def deserialize (bytes : Bytes) : Parse ParseError (ApsDataHeader × Bytes) := do
  Parse.check (8 ≤ bytes.length) (.unexpectedEnd "ApsDataFrame")
  let frameControl ← Parse.ofExcept .bits (fromAbstractBytes ApsFrameControl.codec bytes)
  let remaining ← bytes.sliceFrom 1
  Parse.check (frameControl.reserved1 = 0) (.unsupported "APS frame control reserved bits")
  let (groupId, destinationEndpoint, remaining) ←
    parseDestination frameControl.deliveryMode remaining
  let clusterId ← remaining.u16At 0
  let profileId ← remaining.u16At 2
  let sourceEndpoint ← remaining.index 4
  let counter ← remaining.index 5
  let remaining ← remaining.sliceFrom 6
  rejectExtendedHeader frameControl.extendedHeader remaining
  return (⟨frameControl, groupId, destinationEndpoint, clusterId, profileId, sourceEndpoint,
    counter⟩, remaining)

def serializeInto (header : ApsDataHeader) (bytes : Bytes) : Checked Bytes := do
  let bytes ← extendAbstractBits bytes ApsFrameControl.codec header.frameControl
  let bytes := bytes ++ optionBytes u16Bytes header.groupId
  let bytes := bytes ++ header.destinationEndpoint.toList
  let bytes := bytes ++ u16Bytes header.clusterId
  let bytes := bytes ++ u16Bytes header.profileId
  return bytes ++ [header.sourceEndpoint, header.counter]

def toBytes (header : ApsDataHeader) : Checked Bytes := header.serializeInto []

end ApsDataHeader

namespace ApsDataFrame

def fromBytes (bytes : Bytes) : Parse ParseError ApsDataFrame := do
  let (header, remaining) ← ApsDataHeader.deserialize bytes
  return ⟨header, ← FrameBytes.fromSliceOr remaining (.tooLong "ASDU")⟩

def toBytes (frame : ApsDataFrame) : Checked Bytes := do
  return (← frame.toApsDataHeader.toBytes) ++ frame.asdu.bytes

end ApsDataFrame

end Ziggurat
