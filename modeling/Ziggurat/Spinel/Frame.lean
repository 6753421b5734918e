import Ziggurat.Ieee802154.Layout

/-!
# HDLC-lite and Spinel frames

A frame to the radio is a header byte, a command and a payload.  On the serial line it is followed
by a CRC, the special bytes are escaped, and flags stand around it.

The CRC is that of the `crc_all` crate.  It is a parameter here: the value that the crate leaves
behind the bytes of a frame, which both directions invert before they use it.
-/

namespace Ziggurat

open Lib.BitCodec

/-! ## Special bytes -/

inductive HdlcSpecial where
  | flag
  | escape
  | xon
  | xoff
  | vendor
  deriving DecidableEq, Repr

namespace HdlcSpecial

def byte : HdlcSpecial → UInt8
  | .flag => 0x7E
  | .escape => 0x7D
  | .xon => 0x11
  | .xoff => 0x13
  | .vendor => 0xF8

/-- The test that both directions make. -/
def isSpecial (b : UInt8) : Bool :=
  b = flag.byte || b = escape.byte || b = xon.byte || b = xoff.byte || b = vendor.byte

theorem isSpecial_iff {b : UInt8} : isSpecial b = true ↔ ∃ special, b = byte special := by
  constructor
  · intro h
    simp only [isSpecial, Bool.or_eq_true, decide_eq_true_eq] at h
    obtain (((h | h) | h) | h) | h := h
    · exact ⟨_, h⟩
    · exact ⟨_, h⟩
    · exact ⟨_, h⟩
    · exact ⟨_, h⟩
    · exact ⟨_, h⟩
  · rintro ⟨special, rfl⟩
    cases special <;> rfl

end HdlcSpecial

/-! ## HDLC-lite -/

inductive HdlcLiteFrameParsingError where
  | badEscapeByte (byte : UInt8)
  | invalidCrc (expectedCrc gotCrc : UInt16)
  | frameTooShort (expected got : Nat)
  | payloadTooShort (expected got : Nat)
  deriving DecidableEq, Repr

section

variable (crcKermit : Bytes → UInt16)

/-- The loop of `hdlc_unescape_into`.  A flag between the bytes is skipped. -/
def hdlcUnescapeLoop : Bool → Bytes → Bytes → Except HdlcLiteFrameParsingError Bytes
  | _, data, [] => .ok data
  | true, data, byte :: bytes =>
    let resultByte := byte ^^^ 0x20
    if HdlcSpecial.isSpecial resultByte then hdlcUnescapeLoop false (data ++ [resultByte]) bytes
    else .error (.badEscapeByte resultByte)
  | false, data, byte :: bytes =>
    if byte = HdlcSpecial.escape.byte then hdlcUnescapeLoop true data bytes
    else if byte = HdlcSpecial.flag.byte then hdlcUnescapeLoop false data bytes
    else hdlcUnescapeLoop false (data ++ [byte]) bytes

/-- `hdlc_unescape_into`: the data of a frame, without the CRC. -/
def hdlcUnescape (bytes : Bytes) : Except HdlcLiteFrameParsingError Bytes := do
  if bytes.length < 2 then throw (.frameTooShort 2 bytes.length)
  let data ← hdlcUnescapeLoop false [] bytes
  if data.length < 2 then throw (.payloadTooShort 2 data.length)
  let payload := data.take (data.length - 2)
  let crc := crcKermit payload ^^^ 0xFFFF
  let expectedCrc := UInt16.ofNat (leNat (data.drop (data.length - 2)))
  if crc ≠ expectedCrc then throw (.invalidCrc expectedCrc crc)
  return payload

def hdlcEscapeByte (byte : UInt8) : Bytes :=
  if HdlcSpecial.isSpecial byte then [HdlcSpecial.escape.byte, byte ^^^ 0x20] else [byte]

/-- `hdlc_escape_into`: the data and its CRC, escaped, without the flags. -/
def hdlcEscape (data : Bytes) : Bytes :=
  let crc := crcKermit data ^^^ 0xFFFF
  (data ++ leBytes 2 crc.toNat).flatMap hdlcEscapeByte

/-- `HdlcLiteFrame::to_bytes_with_flags`. -/
def hdlcToBytesWithFlags (data : Bytes) : Bytes :=
  [HdlcSpecial.flag.byte] ++ hdlcEscape crcKermit data ++ [HdlcSpecial.flag.byte]

/-! ### The two directions -/

theorem hdlcUnescapeLoop_escapeByte (byte : UInt8) (data bytes : Bytes) :
    hdlcUnescapeLoop false data (hdlcEscapeByte byte ++ bytes) =
      hdlcUnescapeLoop false (data ++ [byte]) bytes := by
  unfold hdlcEscapeByte
  split
  next hspecial =>
    have hback : byte ^^^ 0x20 ^^^ 0x20 = byte := by
      rw [UInt8.xor_assoc, UInt8.xor_self, UInt8.xor_zero]
    change hdlcUnescapeLoop true data ((byte ^^^ 0x20) :: bytes) = _
    rw [hdlcUnescapeLoop, hback, if_pos hspecial]
  next hplain =>
    have hne (special : HdlcSpecial) : byte ≠ special.byte :=
      fun h => hplain (HdlcSpecial.isSpecial_iff.mpr ⟨special, h⟩)
    change hdlcUnescapeLoop false data (byte :: bytes) = _
    rw [hdlcUnescapeLoop, if_neg (hne .escape), if_neg (hne .flag)]

theorem hdlcUnescapeLoop_flatMap (escaped data : Bytes) :
    hdlcUnescapeLoop false data (escaped.flatMap hdlcEscapeByte) = .ok (data ++ escaped) := by
  induction escaped generalizing data with
  | nil => rw [List.flatMap_nil, hdlcUnescapeLoop, List.append_nil]
  | cons byte escaped ih =>
    rw [List.flatMap_cons, hdlcUnescapeLoop_escapeByte, ih, List.append_assoc,
      List.singleton_append]

theorem length_hdlcEscapeByte (byte : UInt8) : 1 ≤ (hdlcEscapeByte byte).length := by
  unfold hdlcEscapeByte
  split
  next => exact Nat.le_succ 1
  next => exact le_refl 1

theorem length_le_flatMap_hdlcEscapeByte (bytes : Bytes) :
    bytes.length ≤ (bytes.flatMap hdlcEscapeByte).length := by
  induction bytes with
  | nil => exact Nat.zero_le _
  | cons byte bytes ih =>
    have hbyte := length_hdlcEscapeByte byte
    rw [List.flatMap_cons, List.length_append, List.length_cons]
    omega

/-- Escaped data is unescaped to itself. -/
theorem hdlcUnescape_hdlcEscape (data : Bytes) :
    hdlcUnescape crcKermit (hdlcEscape crcKermit data) = .ok data := by
  let crc := crcKermit data ^^^ 0xFFFF
  have hlen : (leBytes 2 crc.toNat).length = 2 := length_leBytes 2 _
  have hcut : (data ++ leBytes 2 crc.toNat).length - 2 = data.length := by
    rw [List.length_append, hlen]
    omega
  have hlong : 2 ≤ (hdlcEscape crcKermit data).length := by
    refine le_trans ?_ (length_le_flatMap_hdlcEscapeByte _)
    rw [List.length_append, length_leBytes]
    omega
  have hcrc : UInt16.ofNat (leNat (leBytes 2 crc.toNat)) = crc := by
    have hnat : leNat (leBytes 2 crc.toNat) = crc.toNat := leNat_leBytes crc.toNat_lt
    rw [hnat, UInt16.ofNat_toNat]
  have hloop : hdlcUnescapeLoop false [] (hdlcEscape crcKermit data) =
      .ok (data ++ leBytes 2 crc.toNat) :=
    hdlcUnescapeLoop_flatMap _ []
  have hdata : ¬(data ++ leBytes 2 crc.toNat).length < 2 := by
    rw [List.length_append, hlen]
    omega
  unfold hdlcUnescape
  rw [if_neg (Nat.not_lt.mpr hlong), hloop]
  change (if (data ++ leBytes 2 crc.toNat).length < 2 then _ else _) = _
  rw [if_neg hdata]
  dsimp only
  rw [hcut, List.take_left, List.drop_left, hcrc]
  exact if_neg (not_not.mpr rfl)

theorem flag_notMem_hdlcEscapeByte (byte : UInt8) :
    HdlcSpecial.flag.byte ∉ hdlcEscapeByte byte := by
  unfold hdlcEscapeByte
  split
  next hspecial =>
    obtain ⟨special, rfl⟩ := HdlcSpecial.isSpecial_iff.mp hspecial
    cases special <;> decide
  next hplain =>
    rw [List.mem_singleton]
    exact fun h => hplain (HdlcSpecial.isSpecial_iff.mpr ⟨.flag, h.symm⟩)

/-- There is no flag inside a frame. -/
theorem flag_notMem_hdlcEscape (data : Bytes) :
    HdlcSpecial.flag.byte ∉ hdlcEscape crcKermit data := by
  intro h
  obtain ⟨byte, -, hbyte⟩ := List.mem_flatMap.mp h
  exact flag_notMem_hdlcEscapeByte byte hbyte

end

/-! ## Spinel frames -/

inductive SpinelCommandId where
  | noop
  | reset
  | propValueGet
  | propValueSet
  | propValueInsert
  | propValueRemove
  | propValueIs
  | propValueInserted
  | propValueRemoved
  | peek
  | peekRet
  | poke
  | propValueMultiGet
  | propValueMultiSet
  | propValuesAre
  | netSave
  | netClear
  | netRecall
  | hboOffload
  | hboReclaim
  | hboDrop
  | hboOffloaded
  | hboReclaimed
  | hboDropped
  deriving DecidableEq, Repr

def SpinelCommandId.enum : Codec.Enum 8 SpinelCommandId where
  all := [.noop, .reset, .propValueGet, .propValueSet, .propValueInsert, .propValueRemove,
    .propValueIs, .propValueInserted, .propValueRemoved, .peek, .peekRet, .poke,
    .propValueMultiGet, .propValueMultiSet, .propValuesAre, .netSave, .netClear, .netRecall,
    .hboOffload, .hboReclaim, .hboDrop, .hboOffloaded, .hboReclaimed, .hboDropped]
  disc
    | .noop => 0
    | .reset => 1
    | .propValueGet => 2
    | .propValueSet => 3
    | .propValueInsert => 4
    | .propValueRemove => 5
    | .propValueIs => 6
    | .propValueInserted => 7
    | .propValueRemoved => 8
    | .peek => 18
    | .peekRet => 19
    | .poke => 20
    | .propValueMultiGet => 21
    | .propValueMultiSet => 22
    | .propValuesAre => 23
    | .netSave => 9
    | .netClear => 10
    | .netRecall => 11
    | .hboOffload => 12
    | .hboReclaim => 13
    | .hboDrop => 14
    | .hboOffloaded => 15
    | .hboReclaimed => 16
    | .hboDropped => 17
  mem_all a := by cases a <;> decide
  nodup := by decide

/-- The property that announces a reset is `LastStatus`, and no modelled function tells the others
apart: an identifier that the source does not know has no receiver. -/
abbrev SpinelPropertyId := UInt32

def SpinelPropertyId.lastStatus : SpinelPropertyId := 0

inductive SpinelStatus where
  | ok
  | failure
  | unimplemented
  | invalidArgument
  | invalidState
  | invalidCommand
  | invalidInterface
  | internalError
  | securityError
  | parseError
  | inProgress
  | nomem
  | busy
  | propNotFound
  | dropped
  | empty
  | cmdTooBig
  | noAck
  | ccaFailure
  | already
  | itemNotFound
  | invalidCommandForProp
  | unknownNeighbor
  | notCapable
  | responseTimeout
  | resetPowerOn
  | resetExternal
  | resetSoftware
  | resetFault
  | resetCrash
  | resetAssert
  | resetOther
  | resetUnknown
  | resetWatchdog
  deriving DecidableEq, Repr

def SpinelStatus.enum : Codec.Enum 8 SpinelStatus where
  all := [.ok, .failure, .unimplemented, .invalidArgument, .invalidState, .invalidCommand,
    .invalidInterface, .internalError, .securityError, .parseError, .inProgress, .nomem, .busy,
    .propNotFound, .dropped, .empty, .cmdTooBig, .noAck, .ccaFailure, .already, .itemNotFound,
    .invalidCommandForProp, .unknownNeighbor, .notCapable, .responseTimeout, .resetPowerOn,
    .resetExternal, .resetSoftware, .resetFault, .resetCrash, .resetAssert, .resetOther,
    .resetUnknown, .resetWatchdog]
  disc
    | .ok => 0
    | .failure => 1
    | .unimplemented => 2
    | .invalidArgument => 3
    | .invalidState => 4
    | .invalidCommand => 5
    | .invalidInterface => 6
    | .internalError => 7
    | .securityError => 8
    | .parseError => 9
    | .inProgress => 10
    | .nomem => 11
    | .busy => 12
    | .propNotFound => 13
    | .dropped => 14
    | .empty => 15
    | .cmdTooBig => 16
    | .noAck => 17
    | .ccaFailure => 18
    | .already => 19
    | .itemNotFound => 20
    | .invalidCommandForProp => 21
    | .unknownNeighbor => 22
    | .notCapable => 23
    | .responseTimeout => 24
    | .resetPowerOn => 112
    | .resetExternal => 113
    | .resetSoftware => 114
    | .resetFault => 115
    | .resetCrash => 116
    | .resetAssert => 117
    | .resetOther => 118
    | .resetUnknown => 119
    | .resetWatchdog => 120
  mem_all a := by cases a <;> decide
  nodup := by decide

def SpinelStatus.isReset (status : SpinelStatus) : Bool :=
  SpinelStatus.enum.disc status ≥ SpinelStatus.enum.disc .resetPowerOn

inductive SpinelFrameParsingError where
  | payloadTooShort (expected got : Nat)
  | notSpinelFrame (flag : UInt8)
  | packedU21DidNotTerminate
  | invalidPropertyId (propertyId : UInt32)
  | invalidCommandId (commandId : UInt8)
  deriving DecidableEq, Repr

structure SpinelHeader where
  flag : UInt8
  networkLinkId : UInt8
  transactionId : UInt8
  deriving DecidableEq, Repr

namespace SpinelHeader

def fromByte (byte : UInt8) : SpinelHeader where
  flag := (byte &&& 0b11000000) >>> 6
  networkLinkId := (byte &&& 0b00110000) >>> 4
  transactionId := byte &&& 0b00001111

def toByte (header : SpinelHeader) : UInt8 :=
  (header.flag <<< 6) ||| (header.networkLinkId <<< 4) ||| header.transactionId

/-- The fields fit their bits, and the flag is that of Spinel. -/
structure Valid (header : SpinelHeader) : Prop where
  flag : header.flag = 0b10
  networkLinkId : header.networkLinkId < 4
  transactionId : header.transactionId < 16

theorem fromByte_toByte {header : SpinelHeader} (h : header.Valid) :
    fromByte header.toByte = header := by
  obtain ⟨flag, networkLinkId, transactionId⟩ := header
  obtain ⟨rfl, hlink, htransaction⟩ := h
  have hall : ∀ (link : Fin 4) (transaction : Fin 16),
      fromByte (toByte ⟨0b10, UInt8.ofNat link.val, UInt8.ofNat transaction.val⟩) =
        ⟨0b10, UInt8.ofNat link.val, UInt8.ofNat transaction.val⟩ := by
    decide
  have hheader := hall ⟨networkLinkId.toNat, hlink⟩ ⟨transactionId.toNat, htransaction⟩
  rw [UInt8.ofNat_toNat, UInt8.ofNat_toNat] at hheader
  exact hheader

end SpinelHeader

structure SpinelFrame where
  header : SpinelHeader
  commandId : SpinelCommandId
  payload : Bytes
  deriving DecidableEq, Repr

/-- `parse_spinel_parts`: a header, a command and a payload of at least one byte. -/
def parseSpinelParts (bytes : Bytes) :
    Except SpinelFrameParsingError (SpinelHeader × SpinelCommandId × Bytes) := do
  if bytes.length < 3 then throw (.payloadTooShort 3 bytes.length)
  match bytes with
  | byte :: commandId :: payload =>
    let header := SpinelHeader.fromByte byte
    if header.flag ≠ 0b10 then throw (.notSpinelFrame header.flag)
    match SpinelCommandId.enum.ofDisc commandId.toFin with
    | some command => return (header, command, payload)
    | none => throw (.invalidCommandId commandId)
  | _ => throw (.payloadTooShort 3 bytes.length)

namespace SpinelFrame

def fromBytes (bytes : Bytes) : Except SpinelFrameParsingError SpinelFrame := do
  let (header, commandId, payload) ← parseSpinelParts bytes
  return { header, commandId, payload }

def toBytes (frame : SpinelFrame) : Bytes :=
  [frame.header.toByte, UInt8.ofFin (SpinelCommandId.enum.disc frame.commandId)] ++ frame.payload

/-- A frame that the parser accepts. -/
structure Valid (frame : SpinelFrame) : Prop where
  header : frame.header.Valid
  payload : frame.payload ≠ []

theorem fromBytes_toBytes {frame : SpinelFrame} (h : frame.Valid) :
    fromBytes frame.toBytes = .ok frame := by
  have hlen : ¬frame.toBytes.length < 3 := by
    have hpayload := List.length_pos_iff.mpr h.payload
    rw [toBytes, List.length_append]
    simp only [List.length_cons, List.length_nil]
    omega
  have hparts : parseSpinelParts frame.toBytes =
      .ok (frame.header, frame.commandId, frame.payload) := by
    unfold parseSpinelParts
    rw [if_neg hlen]
    change (if (SpinelHeader.fromByte frame.header.toByte).flag ≠ 0b10 then _ else _) = _
    rw [SpinelHeader.fromByte_toByte h.header, if_neg (not_not.mpr h.header.flag),
      UInt8.toFin_ofFin, Codec.Enum.ofDisc_disc]
    rfl
  rw [fromBytes, hparts]
  rfl

end SpinelFrame

/-! ## Packed integers -/

/-- `packed_uint21_deserialize`: seven bits to a byte, in at most three bytes. -/
def packedUint21Deserialize (bytes : Bytes) : Except SpinelFrameParsingError (UInt32 × Bytes) :=
  go 0 0 bytes
where
  go (index : Nat) (result : UInt32) : Bytes → Except SpinelFrameParsingError (UInt32 × Bytes)
    | [] => .error .packedU21DidNotTerminate
    | byte :: bytes =>
      let result := result ||| ((byte &&& 0b01111111).toUInt32 <<< UInt32.ofNat (7 * index))
      if byte &&& 0b10000000 = 0 then .ok (result, bytes)
      else if index ≥ 2 then .error .packedU21DidNotTerminate
      else go (index + 1) result bytes

end Ziggurat
