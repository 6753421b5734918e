import Ziggurat.Ieee802154.Frame

/-!
# 802.15.4 frames on the wire

`Ieee802154Frame::from_bytes` and `to_bytes`.  The header is parsed and written by
functions of its own, since its fields depend on the frame control only and not on
the kind of frame.

Received bytes come without their check sequence, which the radio has verified, so
`fromBytesWithoutFcs` computes it and parses the frame with it.
-/

namespace Ziggurat

open Lib.BitCodec

/-! ## Parsing -/

namespace Ieee802154FrameHeader

/-- The destination PAN id and address. -/
def parseDestination (mode : Ieee802154AddressingMode) (remaining : Bytes) :
    Parse Ieee802154.ParseError (Option PanId × Option Ieee802154Address × Bytes) :=
  match mode with
  | .short => do
    let (panId, remaining) ← PanId.deserialize remaining
    let (nwk, remaining) ← Nwk.deserialize remaining
    return (some panId, some (.nwk nwk), remaining)
  | .long => do
    let (panId, remaining) ← PanId.deserialize remaining
    let (eui64, remaining) ← Eui64.deserialize remaining
    return (some panId, some (.eui64 eui64), remaining)
  | .none => return (none, none, remaining)

/-- The source PAN id, which compression takes from the destination. -/
def parseSrcPanId (frameControl : Ieee802154FrameControl) (destPanId : Option PanId)
    (remaining : Bytes) : Parse Ieee802154.ParseError (Option PanId × Bytes) :=
  if frameControl.panIdCompression then return (destPanId, remaining)
  else if frameControl.srcAddrMode ≠ .none then do
    let (panId, remaining) ← PanId.deserialize remaining
    return (some panId, remaining)
  else return (none, remaining)

def parseSrcAddress (mode : Ieee802154AddressingMode) (remaining : Bytes) :
    Parse Ieee802154.ParseError (Option Ieee802154Address × Bytes) :=
  match mode with
  | .short => do
    let (nwk, remaining) ← Nwk.deserialize remaining
    return (some (.nwk nwk), remaining)
  | .long => do
    let (eui64, remaining) ← Eui64.deserialize remaining
    return (some (.eui64 eui64), remaining)
  | .none => return (none, remaining)

def parseSequenceNumber (frameControl : Ieee802154FrameControl) (remaining : Bytes) :
    Parse Ieee802154.ParseError (Option UInt8 × Bytes) :=
  if frameControl.sequenceNumberSuppression then return (none, remaining)
  else do
    Parse.check (remaining ≠ []) (.unexpectedEnd "Ieee802154 sequence number")
    let seq ← remaining.index 0
    let remaining ← remaining.sliceFrom 1
    return (some seq, remaining)

/-- The header of a frame, and the bytes after it. -/
def parse (remaining : Bytes) : Parse Ieee802154.ParseError (Ieee802154FrameHeader × Bytes) := do
  let (frameControl, read) ←
    Parse.ofExcept .bits (Ieee802154FrameControl.codec.readBytes remaining)
  let remaining ← remaining.sliceFrom read
  let (sequenceNumber, remaining) ← parseSequenceNumber frameControl remaining
  let (destPanId, destAddress, remaining) ← parseDestination frameControl.destAddrMode remaining
  let (srcPanId, remaining) ← parseSrcPanId frameControl destPanId remaining
  let (srcAddress, remaining) ← parseSrcAddress frameControl.srcAddrMode remaining
  return ({ frameControl, sequenceNumber, destPanId, destAddress, srcPanId, srcAddress },
    remaining)

end Ieee802154FrameHeader

namespace Ieee802154Frame

/-- The body that the frame type selects. -/
def parseBody (header : Ieee802154FrameHeader) (fcs : UInt16) (remaining : Bytes) :
    Parse Ieee802154.ParseError (Ieee802154Frame FrameBytes) :=
  match header.frameControl.frameType with
  | .beacon => do
    Parse.check (header.frameControl.frameVersion = .ieee2003 ∨
      header.frameControl.frameVersion = .ieee2006) (.unsupported "Enhanced Beacon frame")
    Parse.check (4 ≤ remaining.length) (.unexpectedEnd "Ieee802154BeaconFrame")
    let superframeSpecification ←
      Parse.ofExcept .bits (fromAbstractBytes SuperframeSpecification.codec
        (← remaining.sliceTo 4))
    let gtsSpecification ← remaining.index 2
    let pendingAddressSpecification ← remaining.index 3
    let beaconPayload ← remaining.sliceFrom 4
    return .beacon ⟨header, superframeSpecification, gtsSpecification,
      pendingAddressSpecification, beaconPayload, fcs⟩
  | .data => do
    let payload ←
      FrameBytes.fromSliceOr remaining (.invalidLength "Ieee802154DataFrame payload")
    return .data ⟨header, payload, fcs⟩
  | .ack => return .ack ⟨header, fcs⟩
  | .command => do
    Parse.check (remaining ≠ []) (.unexpectedEnd "Ieee802154 command ID")
    return .command ⟨header, Ieee802154CommandPayload.fromBytes remaining, fcs⟩

def fromBytes (data : Bytes) : Parse Ieee802154.ParseError (Ieee802154Frame FrameBytes) := do
  Parse.check (2 + 2 ≤ data.length) (.unexpectedEnd "Ieee802154Frame")
  -- No frame exceeds the PHY packet size, and a longer one could not be re-serialized.
  Parse.check (data.length ≤ maxPhyPacketSize) (.invalidLength "Ieee802154Frame")
  let fcs := UInt16.ofNat
    (leNat [← data.index (data.length - 2), ← data.index (data.length - 1)])
  let remaining ← data.sliceTo (data.length - 2)
  let computed ← computeFcs remaining
  Parse.check (computed = fcs) .invalidFcs
  let (header, remaining) ← Ieee802154FrameHeader.parse remaining
  parseBody header fcs remaining

def fromBytesWithoutFcs (data : Bytes) :
    Parse Ieee802154.ParseError (Ieee802154Frame FrameBytes) := do
  let fcs ← computeFcs data
  fromBytes (data ++ leBytes 2 fcs.toNat)

end Ieee802154Frame

/-! ## The parser does not panic -/

namespace Ieee802154FrameHeader

theorem parseSequenceNumber_returns (frameControl : Ieee802154FrameControl) (remaining : Bytes) :
    Parse.Returns (parseSequenceNumber frameControl remaining) (fun _ => True) := by
  refine .ite (fun _ => .pure trivial) (fun _ => ?_)
  refine .bind (.check _) (fun _ hne => ?_)
  have hpos : 0 < remaining.length := List.length_pos_iff.mpr hne
  exact .bind (.index hpos) (fun _ _ => .bind (.sliceFrom hpos) (fun _ _ => .pure trivial))

theorem parseDestination_returns (mode : Ieee802154AddressingMode) (remaining : Bytes) :
    Parse.Returns (parseDestination mode remaining) (fun _ => True) := by
  cases mode with
  | none => exact .pure trivial
  | short | long =>
    exact .bind (deserializeLe_returns _ _ _) (fun _ _ =>
      .bind (deserializeLe_returns _ _ _) (fun _ _ => .pure trivial))

theorem parseSrcPanId_returns (frameControl : Ieee802154FrameControl)
    (destPanId : Option PanId) (remaining : Bytes) :
    Parse.Returns (parseSrcPanId frameControl destPanId remaining) (fun _ => True) := by
  refine .ite (fun _ => .pure trivial) (fun _ => .ite (fun _ => ?_) (fun _ => .pure trivial))
  exact .bind (deserializeLe_returns _ _ _) (fun _ _ => .pure trivial)

theorem parseSrcAddress_returns (mode : Ieee802154AddressingMode) (remaining : Bytes) :
    Parse.Returns (parseSrcAddress mode remaining) (fun _ => True) := by
  cases mode with
  | none => exact .pure trivial
  | short | long => exact .bind (deserializeLe_returns _ _ _) (fun _ _ => .pure trivial)

theorem parse_returns (remaining : Bytes) :
    Parse.Returns (parse remaining) (fun _ => True) := by
  refine .bind (.readFixed Ieee802154FrameControl.fixed_codec) (fun _ hread => ?_)
  refine .bind (.sliceFrom hread.2) (fun _ _ => ?_)
  refine .bind (parseSequenceNumber_returns _ _) (fun _ _ => ?_)
  refine .bind (parseDestination_returns _ _) (fun _ _ => ?_)
  refine .bind (parseSrcPanId_returns _ _ _) (fun _ _ => ?_)
  exact .bind (parseSrcAddress_returns _ _) (fun _ _ => .pure trivial)

end Ieee802154FrameHeader

namespace Ieee802154Frame

theorem parseBody_returns (header : Ieee802154FrameHeader) (fcs : UInt16) (remaining : Bytes) :
    Parse.Returns (parseBody header fcs remaining) (fun _ => True) := by
  unfold parseBody
  cases header.frameControl.frameType with
  | beacon =>
    refine .bind (.check _) (fun _ _ => .bind (.check _) (fun _ hlen => ?_))
    refine .bind (.sliceTo hlen) (fun _ _ => .bind (.ofExcept (fun _ _ => trivial)) (fun _ _ => ?_))
    refine .bind (.index (by omega)) (fun _ _ => .bind (.index (by omega)) (fun _ _ => ?_))
    exact .bind (.sliceFrom hlen) (fun _ _ => .pure trivial)
  | data => exact .bind (FrameBytes.fromSliceOr_returns _ _) (fun _ _ => .pure trivial)
  | ack => exact .pure trivial
  | command => exact .bind (.check _) (fun _ _ => .pure trivial)

theorem fromBytes_returns (data : Bytes) : Parse.Returns (fromBytes data) (fun _ => True) := by
  refine .bind (.check _) (fun _ hlen => .bind (.check _) (fun _ _ => ?_))
  refine .bind (.index (by omega)) (fun _ _ => .bind (.index (by omega)) (fun _ _ => ?_))
  refine .bind (.sliceTo (Nat.sub_le _ _)) (fun remaining _ => ?_)
  obtain ⟨fcs, hfcs⟩ := computeFcs_returns remaining
  refine .bind (.lift hfcs trivial) (fun _ (_ : True) => .bind (.check _) (fun _ _ => ?_))
  exact .bind (Ieee802154FrameHeader.parse_returns _) (fun _ _ => parseBody_returns _ _ _)

/-- Every byte string is parsed or rejected. -/
theorem fromBytesWithoutFcs_returns (data : Bytes) :
    Parse.Returns (fromBytesWithoutFcs data) (fun _ => True) := by
  obtain ⟨fcs, hfcs⟩ := computeFcs_returns data
  exact .bind (.lift hfcs trivial) (fun _ (_ : True) => fromBytes_returns _)

end Ieee802154Frame

/-! ## Serialization -/

def Ieee802154Address.toBytes : Ieee802154Address → Bytes
  | .nwk address => Nwk.toBytes address
  | .eui64 address => Eui64.toBytes address

/-- The bytes of an optional field. -/
def optionBytes {α : Type} (toBytes : α → Bytes) : Option α → Bytes
  | some a => toBytes a
  | none => []

@[simp] theorem optionBytes_some {α : Type} (toBytes : α → Bytes) (a : α) :
    optionBytes toBytes (some a) = toBytes a := rfl

@[simp] theorem optionBytes_none {α : Type} (toBytes : α → Bytes) :
    optionBytes toBytes none = [] := rfl

def Ieee802154FrameHeader.toBytes (header : Ieee802154FrameHeader) : Checked Bytes := do
  let data ← extendAbstractBits [] Ieee802154FrameControl.codec header.frameControl
  let data := data ++ header.sequenceNumber.toList
  let data := data ++ optionBytes PanId.toBytes header.destPanId
  let data := data ++ optionBytes Ieee802154Address.toBytes header.destAddress
  let data := if header.frameControl.panIdCompression then data
    else data ++ optionBytes PanId.toBytes header.srcPanId
  return data ++ optionBytes Ieee802154Address.toBytes header.srcAddress

namespace Ieee802154Frame

variable {P : Type} [FramePayload P]

def toBytesWithoutFcs (frame : Ieee802154Frame P) : Checked Bytes := do
  let data ← frame.header.toBytes
  match frame with
  | .beacon frame =>
    let data ← extendAbstractBits data SuperframeSpecification.codec
      frame.superframeSpecification
    return data ++ [frame.gtsSpecification, frame.pendingAddressSpecification] ++
      frame.beaconPayload
  | .data frame => FramePayload.extendFrameBytes frame.payload data
  | .ack _ => return data
  | .command frame => return data ++ (← frame.commandPayload.toBytes)

def toBytes (frame : Ieee802154Frame P) : Checked Bytes := do
  let data ← frame.toBytesWithoutFcs
  let fcs ← computeFcs data
  return data ++ leBytes 2 fcs.toNat

end Ieee802154Frame

end Ziggurat
