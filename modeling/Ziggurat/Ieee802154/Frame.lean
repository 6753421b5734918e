import Ziggurat.Ieee802154.Types
import Ziggurat.Lib.Crc

/-!
# 802.15.4 frames

The MAC frames of `ziggurat-ieee-802154`: the frame control field, the addressing
header that it selects, the four kinds of frame, and the frame check sequence.

A data frame is generic over its payload.  A received one carries bytes, and one that
is about to be sent carries an encrypted NWK frame, which is serialized with it.

The frame check sequence is computed by nibbles.  `computeFcs_eq` says that this is the bit-serial
CRC of `Lib.Crc`.
-/

namespace Ziggurat

open Lib.BitCodec Lib.Crc

/-! ## Frame control -/

inductive Ieee802154AddressingMode where
  | none
  | short
  | long
  deriving DecidableEq, Repr

def Ieee802154AddressingMode.enum : Codec.Enum 2 Ieee802154AddressingMode where
  all := [.none, .short, .long]
  disc
    | .none => 0b00
    | .short => 0b10
    | .long => 0b11
  mem_all a := by cases a <;> simp
  nodup := by decide

inductive Ieee802154FrameType where
  | beacon
  | data
  | command
  | ack
  deriving DecidableEq, Repr

def Ieee802154FrameType.enum : Codec.Enum 3 Ieee802154FrameType where
  all := [.beacon, .data, .command, .ack]
  disc
    | .beacon => 0b000
    | .data => 0b001
    | .command => 0b011
    | .ack => 0b010
  mem_all a := by cases a <;> simp
  nodup := by decide

inductive Ieee802154FrameVersion where
  | ieee2003
  | ieee2006
  | ieee2015
  | reserved
  deriving DecidableEq, Repr

def Ieee802154FrameVersion.enum : Codec.Enum 2 Ieee802154FrameVersion where
  all := [.ieee2003, .ieee2006, .ieee2015, .reserved]
  disc
    | .ieee2003 => 0b00
    | .ieee2006 => 0b01
    | .ieee2015 => 0b10
    | .reserved => 0b11
  mem_all a := by cases a <;> simp
  nodup := by decide

structure Ieee802154FrameControl where
  frameType : Ieee802154FrameType
  securityEnabled : Bool
  framePending : Bool
  ackRequest : Bool
  panIdCompression : Bool
  reserved1 : Bool
  sequenceNumberSuppression : Bool
  informationElementsPresent : Bool
  destAddrMode : Ieee802154AddressingMode
  frameVersion : Ieee802154FrameVersion
  srcAddrMode : Ieee802154AddressingMode
  deriving DecidableEq, Repr

def Ieee802154FrameControl.codec : Codec Ieee802154FrameControl :=
  ((Codec.enum Ieee802154FrameType.enum).pair <| Codec.bool.pair <| Codec.bool.pair <|
    Codec.bool.pair <| Codec.bool.pair <| Codec.bool.pair <| Codec.bool.pair <|
    Codec.bool.pair <| (Codec.enum Ieee802154AddressingMode.enum).pair <|
    (Codec.enum Ieee802154FrameVersion.enum).pair <|
    Codec.enum Ieee802154AddressingMode.enum).imap
    (fun (frameType, securityEnabled, framePending, ackRequest, panIdCompression, reserved1,
        sequenceNumberSuppression, informationElementsPresent, destAddrMode, frameVersion,
        srcAddrMode) =>
      { frameType, securityEnabled, framePending, ackRequest, panIdCompression, reserved1,
        sequenceNumberSuppression, informationElementsPresent, destAddrMode, frameVersion,
        srcAddrMode })
    (fun c => (c.frameType, c.securityEnabled, c.framePending, c.ackRequest,
      c.panIdCompression, c.reserved1, c.sequenceNumberSuppression,
      c.informationElementsPresent, c.destAddrMode, c.frameVersion, c.srcAddrMode))
    (fun _ => rfl) (fun _ => rfl)

theorem Ieee802154FrameControl.fixed_codec : codec.Fixed 16 :=
  ((Codec.fixed_enum _).pair <| Codec.fixed_bool.pair <| Codec.fixed_bool.pair <|
    Codec.fixed_bool.pair <| Codec.fixed_bool.pair <| Codec.fixed_bool.pair <|
    Codec.fixed_bool.pair <| Codec.fixed_bool.pair <| (Codec.fixed_enum _).pair <|
    (Codec.fixed_enum _).pair <| Codec.fixed_enum _).imap

structure Ieee802154FrameHeader where
  frameControl : Ieee802154FrameControl
  sequenceNumber : Option UInt8
  destPanId : Option PanId
  destAddress : Option Ieee802154Address
  srcPanId : Option PanId
  srcAddress : Option Ieee802154Address
  deriving DecidableEq, Repr

/-! ## Command frames -/

inductive Ieee802154CommandId where
  | notAMacCommand
  | associationRequest
  | associationResponse
  | disassociationNotification
  | dataRequest
  | panIdConflictNotification
  | orphanNotification
  | beaconRequest
  | coordinatorRealignment
  | gtsRequest
  deriving DecidableEq, Repr

def Ieee802154CommandId.enum : Codec.Enum 8 Ieee802154CommandId where
  all := [.notAMacCommand, .associationRequest, .associationResponse,
    .disassociationNotification, .dataRequest, .panIdConflictNotification,
    .orphanNotification, .beaconRequest, .coordinatorRealignment, .gtsRequest]
  disc
    | .notAMacCommand => 0x00
    | .associationRequest => 0x01
    | .associationResponse => 0x02
    | .disassociationNotification => 0x03
    | .dataRequest => 0x04
    | .panIdConflictNotification => 0x05
    | .orphanNotification => 0x06
    | .beaconRequest => 0x07
    | .coordinatorRealignment => 0x08
    | .gtsRequest => 0x09
  mem_all a := by cases a <;> simp
  nodup := by decide

inductive AssociationRequestDeviceType where
  | reducedFunctionDevice
  | fullFunctionDevice
  deriving DecidableEq, Repr

def AssociationRequestDeviceType.enum : Codec.Enum 1 AssociationRequestDeviceType where
  all := [.reducedFunctionDevice, .fullFunctionDevice]
  disc
    | .reducedFunctionDevice => 0b0
    | .fullFunctionDevice => 0b1
  mem_all a := by cases a <;> simp
  nodup := by decide

inductive AssociationRequestPowerSource where
  | batteryPower
  | mainsPower
  deriving DecidableEq, Repr

def AssociationRequestPowerSource.enum : Codec.Enum 1 AssociationRequestPowerSource where
  all := [.batteryPower, .mainsPower]
  disc
    | .batteryPower => 0b0
    | .mainsPower => 0b1
  mem_all a := by cases a <;> simp
  nodup := by decide

structure Ieee802154AssociationRequestCommand where
  alternatePanCoordinator : Bool
  deviceType : AssociationRequestDeviceType
  powerSource : AssociationRequestPowerSource
  receiveOnWhenIdle : Bool
  reserved1 : Fin (2 ^ 2)
  securityCapable : Bool
  allocateAddress : Bool
  deriving DecidableEq, Repr

def Ieee802154AssociationRequestCommand.codec : Codec Ieee802154AssociationRequestCommand :=
  (Codec.bool.pair <| (Codec.enum AssociationRequestDeviceType.enum).pair <|
    (Codec.enum AssociationRequestPowerSource.enum).pair <| Codec.bool.pair <|
    (Codec.uint 2).pair <| Codec.bool.pair Codec.bool).imap
    (fun (alternatePanCoordinator, deviceType, powerSource, receiveOnWhenIdle, reserved1,
        securityCapable, allocateAddress) =>
      { alternatePanCoordinator, deviceType, powerSource, receiveOnWhenIdle, reserved1,
        securityCapable, allocateAddress })
    (fun c => (c.alternatePanCoordinator, c.deviceType, c.powerSource, c.receiveOnWhenIdle,
      c.reserved1, c.securityCapable, c.allocateAddress))
    (fun _ => rfl) (fun _ => rfl)

inductive Ieee802154AssociationStatus where
  | associationSuccessful
  | panAtCapacity
  | panAccessDenied
  | hoppingSequenceOffsetDuplication
  | fastAssociationSuccessful
  deriving DecidableEq, Repr

def Ieee802154AssociationStatus.enum : Codec.Enum 8 Ieee802154AssociationStatus where
  all := [.associationSuccessful, .panAtCapacity, .panAccessDenied,
    .hoppingSequenceOffsetDuplication, .fastAssociationSuccessful]
  disc
    | .associationSuccessful => 0x00
    | .panAtCapacity => 0x01
    | .panAccessDenied => 0x02
    | .hoppingSequenceOffsetDuplication => 0x03
    | .fastAssociationSuccessful => 0x80
  mem_all a := by cases a <;> simp
  nodup := by decide

structure Ieee802154AssociationResponseCommand where
  shortAddress : Nwk
  associationStatus : Ieee802154AssociationStatus
  deriving DecidableEq, Repr

def Ieee802154AssociationResponseCommand.codec : Codec Ieee802154AssociationResponseCommand :=
  ((Codec.uint 16).pair (Codec.enum Ieee802154AssociationStatus.enum)).imap
    (fun (shortAddress, associationStatus) => { shortAddress, associationStatus })
    (fun c => (c.shortAddress, c.associationStatus)) (fun _ => rfl) (fun _ => rfl)

inductive Ieee802154DisassociationReason where
  | reserved
  | coordinatorWishesToLeave
  | deviceWishesToLeave
  deriving DecidableEq, Repr

def Ieee802154DisassociationReason.enum : Codec.Enum 8 Ieee802154DisassociationReason where
  all := [.reserved, .coordinatorWishesToLeave, .deviceWishesToLeave]
  disc
    | .reserved => 0x00
    | .coordinatorWishesToLeave => 0x01
    | .deviceWishesToLeave => 0x02
  mem_all a := by cases a <;> simp
  nodup := by decide

/-- The payload of a command frame.  A data request and a beacon request have no
body, and a command that cannot be decoded is kept verbatim. -/
inductive Ieee802154CommandPayload where
  | associationRequest (command : Ieee802154AssociationRequestCommand)
  | associationResponse (command : Ieee802154AssociationResponseCommand)
  | disassociationNotification (disassociationReason : Ieee802154DisassociationReason)
  | dataRequest
  | beaconRequest
  | unknown (raw : Bytes)
  deriving DecidableEq, Repr

namespace Ieee802154CommandPayload

def tryParse (bytes : Bytes) : Option Ieee802154CommandPayload :=
  match bytes with
  | [] => none
  | idByte :: body => do
    match ← Ieee802154CommandId.enum.ofDisc idByte.toFin with
    | .associationRequest =>
      let command ← (fromAbstractBytes Ieee802154AssociationRequestCommand.codec body).toOption
      return .associationRequest command
    | .associationResponse =>
      let command ← (fromAbstractBytes Ieee802154AssociationResponseCommand.codec body).toOption
      return .associationResponse command
    | .disassociationNotification =>
      let reason ←
        (fromAbstractBytes (Codec.enum Ieee802154DisassociationReason.enum) body).toOption
      return .disassociationNotification reason
    | .dataRequest => return .dataRequest
    | .beaconRequest => return .beaconRequest
    | _ => none

/-- An unknown id or a body that fails to parse is kept verbatim. -/
def fromBytes (bytes : Bytes) : Ieee802154CommandPayload :=
  (tryParse bytes).getD (.unknown bytes)

/-- The id byte followed by the body. -/
def toBytes : Ieee802154CommandPayload → Checked Bytes
  | .associationRequest c => command .associationRequest
      (Ieee802154AssociationRequestCommand.codec.writeBytes c)
  | .associationResponse c => command .associationResponse
      (Ieee802154AssociationResponseCommand.codec.writeBytes c)
  | .disassociationNotification reason => command .disassociationNotification
      ((Codec.enum Ieee802154DisassociationReason.enum).writeBytes reason)
  | .dataRequest => command .dataRequest (some [])
  | .beaconRequest => command .beaconRequest (some [])
  | .unknown raw => .ok raw
where
  command (id : Ieee802154CommandId) (body : Option Bytes) : Checked Bytes := do
    return UInt8.ofFin (Ieee802154CommandId.enum.disc id) :: (← Checked.unwrap body)

end Ieee802154CommandPayload

/-! ## Frames -/

/-- A payload carried inside a data frame. -/
class FramePayload (P : Type) where
  /-- Append the serialized payload. -/
  extendFrameBytes : P → Bytes → Checked Bytes

instance : FramePayload FrameBytes where
  extendFrameBytes payload bytes := .ok (bytes ++ payload.bytes)

structure SuperframeSpecification where
  beaconInterval : Fin (2 ^ 4)
  superframeInterval : Fin (2 ^ 4)
  finalCapSlot : Fin (2 ^ 4)
  batteryExtension : Bool
  reserved1 : Fin (2 ^ 1)
  panCoordinator : Bool
  associationPermit : Bool
  deriving DecidableEq, Repr

def SuperframeSpecification.codec : Codec SuperframeSpecification :=
  ((Codec.uint 4).pair <| (Codec.uint 4).pair <| (Codec.uint 4).pair <| Codec.bool.pair <|
    (Codec.uint 1).pair <| Codec.bool.pair Codec.bool).imap
    (fun (beaconInterval, superframeInterval, finalCapSlot, batteryExtension, reserved1,
        panCoordinator, associationPermit) =>
      { beaconInterval, superframeInterval, finalCapSlot, batteryExtension, reserved1,
        panCoordinator, associationPermit })
    (fun c => (c.beaconInterval, c.superframeInterval, c.finalCapSlot, c.batteryExtension,
      c.reserved1, c.panCoordinator, c.associationPermit))
    (fun _ => rfl) (fun _ => rfl)

structure Ieee802154BeaconFrame where
  header : Ieee802154FrameHeader
  superframeSpecification : SuperframeSpecification
  gtsSpecification : UInt8
  pendingAddressSpecification : UInt8
  beaconPayload : Bytes
  fcs : UInt16
  deriving DecidableEq

structure Ieee802154DataFrame (P : Type) where
  header : Ieee802154FrameHeader
  payload : P
  fcs : UInt16
  deriving DecidableEq

structure Ieee802154AckFrame where
  header : Ieee802154FrameHeader
  fcs : UInt16
  deriving DecidableEq

structure Ieee802154CommandFrame where
  header : Ieee802154FrameHeader
  commandPayload : Ieee802154CommandPayload
  fcs : UInt16
  deriving DecidableEq

inductive Ieee802154Frame (P : Type) where
  | beacon (frame : Ieee802154BeaconFrame)
  | data (frame : Ieee802154DataFrame P)
  | ack (frame : Ieee802154AckFrame)
  | command (frame : Ieee802154CommandFrame)
  deriving DecidableEq

def Ieee802154Frame.header {P : Type} : Ieee802154Frame P → Ieee802154FrameHeader
  | .beacon frame => frame.header
  | .data frame => frame.header
  | .ack frame => frame.header
  | .command frame => frame.header

/-! ## The frame check sequence -/

/-- The CRC step for the low nibble of `c`.  The product of a nibble and 0x1081 fits 16
bits. -/
def fcsNibble (crc : UInt16) (c : UInt8) : Checked UInt16 := do
  let q := ((crc &&& 0x0F).toUInt8 ^^^ c) &&& 0x0F
  Checked.ensure (q.toNat * 0x1081 < 2 ^ 16) .overflow
  return (crc >>> 4) ^^^ (q.toUInt16 * 0x1081)

/-- `compute_fcs`: the CRC of a frame, low nibble of a byte first. -/
def computeFcs (data : Bytes) : Checked UInt16 :=
  data.foldlM (fun (crc : UInt16) (c : UInt8) => do
    let crc ← fcsNibble crc (c >>> 0)
    fcsNibble crc (c >>> 4)) 0

/-- The polynomial of the frame check sequence, lowest power in the highest bit. -/
def fcsPoly : BitVec 16 := 0x8408#16

/-- The bits of a byte string in the order of transmission. -/
def messageBits (data : Bytes) : List Bool := data.flatMap fun c => lsbFirst 8 c.toNat

/-- The product with 0x1081 is the CRC of a nibble. -/
theorem nibble_mul (q : UInt8) (h : q.toNat < 16) :
    (q.toUInt16 * 0x1081).toBitVec = crc fcsPoly (lsbFirst 4 q.toNat) := by
  have hall : ∀ n < 16, (UInt16.ofNat n * 0x1081).toBitVec = crc fcsPoly (lsbFirst 4 n) := by decide
  have hq : q.toUInt16 = UInt16.ofNat q.toNat := by
    apply UInt16.toNat.inj
    rw [UInt8.toNat_toUInt16, UInt16.toNat_ofNat_of_lt' (h.trans (by decide))]
  rw [hq]
  exact hall q.toNat h

/-- The step for a nibble is four steps of the bit-serial CRC. -/
theorem fcsNibble_eq (register : UInt16) (c : UInt8) :
    fcsNibble register c = .ok ⟨stream fcsPoly register.toBitVec (lsbFirst 4 c.toNat)⟩ := by
  have hnat : (((register &&& 0x0F).toUInt8 ^^^ c) &&& 0x0F).toNat =
      ((register.toNat &&& 15) % 256 ^^^ c.toNat) &&& 15 := by
    simp only [UInt8.toNat_and, UInt8.toNat_xor, UInt16.toNat_toUInt8, UInt16.toNat_and]
    rfl
  have hlt : (((register &&& 0x0F).toUInt8 ^^^ c) &&& 0x0F).toNat < 16 := by
    rw [hnat]
    exact Nat.lt_succ_of_le Nat.and_le_right
  have hbits : lsbFirst 4 (((register &&& 0x0F).toUInt8 ^^^ c) &&& 0x0F).toNat =
      lsbFirst 4 (register.toNat ^^^ c.toNat) := by
    apply lsbFirst_congr
    intro i hi
    rw [hnat, Nat.mod_eq_of_lt (Nat.lt_of_le_of_lt Nat.and_le_right (by decide : 15 < 256))]
    have hmask : (15 : Nat).testBit i = true :=
      (by decide : ∀ i < 4, (15 : Nat).testBit i = true) i hi
    simp only [Nat.testBit_and, Nat.testBit_xor, hmask, Bool.and_true]
  rw [fcsNibble, Checked.ensure_of _ (by omega)]
  refine congrArg Except.ok (UInt16.toBitVec_inj.mp ?_)
  rw [UInt16.toBitVec_xor, nibble_mul _ hlt, hbits]
  exact (stream_lsbFirst fcsPoly register.toBitVec 4 c.toNat).symm

theorem fcsByte_eq (register : UInt16) (c : UInt8) :
    (do let crc ← fcsNibble register (c >>> 0); fcsNibble crc (c >>> 4)) =
      .ok ⟨stream fcsPoly register.toBitVec (lsbFirst 8 c.toNat)⟩ := by
  rw [fcsNibble_eq, Checked.ok_bind, fcsNibble_eq, ← stream_append, lsbFirst_add 4 4]
  rfl

/-- `compute_fcs` is the bit-serial CRC of the message. -/
theorem computeFcs_eq (data : Bytes) : computeFcs data = .ok ⟨crc fcsPoly (messageBits data)⟩ := by
  unfold computeFcs crc messageBits
  change _ = Except.ok (UInt16.ofBitVec (stream fcsPoly (0 : UInt16).toBitVec _))
  generalize (0 : UInt16) = register
  induction data generalizing register with
  | nil => rfl
  | cons c data ih =>
    rw [List.foldlM_cons, fcsByte_eq, Checked.ok_bind, ih, List.flatMap_cons, stream_append]

theorem computeFcs_returns (data : Bytes) : ∃ fcs, computeFcs data = .ok fcs :=
  ⟨_, computeFcs_eq data⟩

theorem messageBits_append (data data' : Bytes) :
    messageBits (data ++ data') = messageBits data ++ messageBits data' :=
  List.flatMap_append

theorem messageBits_leBytes (n v : Nat) : messageBits (leBytes n v) = lsbFirst (8 * n) v := by
  induction n generalizing v with
  | zero => rfl
  | succ n ih =>
    have hbyte : lsbFirst 8 (UInt8.ofNat (v % 256)).toNat = lsbFirst 8 v := by
      apply lsbFirst_congr
      intro i hi
      rw [UInt8.toNat_ofNat_of_lt' (Nat.mod_lt v (by decide)), Nat.testBit_mod_two_pow v 8 i]
      simp [hi]
    change lsbFirst 8 (UInt8.ofNat (v % 256)).toNat ++ messageBits (leBytes n (v / 256)) = _
    rw [hbyte, ih, Nat.mul_succ, Nat.add_comm, lsbFirst_add, Nat.shiftRight_eq_div_pow]

/-- The frame check sequence is the bit-serial CRC of the message, and a message with its own
frame check sequence behind it has the frame check sequence zero. -/
theorem fcs_is_crc (data : Bytes) : ∃ fcs, computeFcs data = .ok fcs ∧
    fcs.toBitVec = crc 0x8408#16 (messageBits data) ∧
    computeFcs (data ++ leBytes 2 fcs.toNat) = .ok 0 := by
  refine ⟨_, computeFcs_eq data, rfl, ?_⟩
  rw [computeFcs_eq, messageBits_append, messageBits_leBytes]
  exact congrArg (Except.ok ∘ UInt16.ofBitVec) (crc_append_self fcsPoly (messageBits data))

end Ziggurat
