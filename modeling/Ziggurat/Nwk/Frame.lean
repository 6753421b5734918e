import Ziggurat.Crypto
import Ziggurat.Ieee802154.Wire
import Ziggurat.Nwk.Commands

/-!
# NWK frames

The NWK header with its optional fields, the auxiliary security header, and a frame
before and after encryption, as in `nwk/frame.rs`.

A frame is encrypted with its header and its auxiliary header as associated data, so
both `encrypt` and `decrypt` serialize them.  The source route of a header goes through
the scratch buffer of `extendAbstractBits`, and `NwkSourceRoute.size` decides whether it
fits.
-/

namespace Ziggurat

open Lib.BitCodec

/-- Failure to parse a NWK or APS frame or one of its fields off the wire. -/
inductive ParseError where
  | unexpectedEnd (ty : String)
  | tooLong (ty : String)
  | invalidDiscriminant (ty : String) (got : UInt8)
  | unsupported (what : String)
  | bits (err : ReadError)
  | address (err : Ieee802154.ParseError)
  | decrypt (err : DecryptionError)
  deriving DecidableEq, Repr

/-! ## The header -/

def broadcastAllDevices : Nwk := 0xFFFF
def broadcastRxOnWhenIdle : Nwk := 0xFFFD
def broadcastAllRoutersAndCoordinator : Nwk := 0xFFFC
def broadcastLowPowerRouters : Nwk := 0xFFFB

inductive NwkFrameType where
  | data
  | command
  | interpan
  deriving DecidableEq, Repr

def NwkFrameType.enum : Codec.Enum 2 NwkFrameType where
  all := [.data, .command, .interpan]
  disc
    | .data => 0b00
    | .command => 0b01
    | .interpan => 0b11
  mem_all a := by cases a <;> simp
  nodup := by decide

inductive NwkRouteDiscovery where
  | suppress
  | enable
  | withMulticast
  deriving DecidableEq, Repr

def NwkRouteDiscovery.enum : Codec.Enum 2 NwkRouteDiscovery where
  all := [.suppress, .enable, .withMulticast]
  disc
    | .suppress => 0b00
    | .enable => 0b01
    | .withMulticast => 0b10
  mem_all a := by cases a <;> simp
  nodup := by decide

structure NwkFrameControl where
  frameType : NwkFrameType
  protocolVersion : Fin (2 ^ 4)
  discoverRoute : NwkRouteDiscovery
  multicast : Bool
  security : Bool
  sourceRoute : Bool
  destination : Bool
  extendedSource : Bool
  endDeviceInitiator : Bool
  reserved1 : Fin (2 ^ 2)
  deriving DecidableEq, Repr

def NwkFrameControl.codec : Codec NwkFrameControl :=
  ((Codec.enum NwkFrameType.enum).pair <| (Codec.uint 4).pair <|
    (Codec.enum NwkRouteDiscovery.enum).pair <| Codec.bool.pair <| Codec.bool.pair <|
    Codec.bool.pair <| Codec.bool.pair <| Codec.bool.pair <| Codec.bool.pair <|
    Codec.uint 2).imap
    (fun (frameType, protocolVersion, discoverRoute, multicast, security, sourceRoute,
        destination, extendedSource, endDeviceInitiator, reserved1) =>
      { frameType, protocolVersion, discoverRoute, multicast, security, sourceRoute,
        destination, extendedSource, endDeviceInitiator, reserved1 })
    (fun c => (c.frameType, c.protocolVersion, c.discoverRoute, c.multicast, c.security,
      c.sourceRoute, c.destination, c.extendedSource, c.endDeviceInitiator, c.reserved1))
    (fun _ => rfl) (fun _ => rfl)

theorem NwkFrameControl.fixed_codec : codec.Fixed 16 :=
  ((Codec.fixed_enum _).pair <| (Codec.fixed_uint 4).pair <| (Codec.fixed_enum _).pair <|
    Codec.fixed_bool.pair <| Codec.fixed_bool.pair <| Codec.fixed_bool.pair <|
    Codec.fixed_bool.pair <| Codec.fixed_bool.pair <| Codec.fixed_bool.pair <|
    Codec.fixed_uint 2).imap

structure NwkSourceRoute where
  relayIndex : UInt8
  relays : List Nwk
  deriving DecidableEq, Repr

def NwkSourceRoute.codec : Codec NwkSourceRoute :=
  (Codec.counted ((Codec.uint 8).pair u8) Nwk.codec).imap
    (fun (relayIndex, relays) => { relayIndex, relays })
    (fun r => (r.relayIndex, r.relays)) (fun _ => rfl) (fun _ => rfl)

structure NwkHeader where
  frameControl : NwkFrameControl
  destination : Nwk
  source : Nwk
  radius : UInt8
  sequenceNumber : UInt8
  destinationIeee : Option Eui64
  sourceIeee : Option Eui64
  multicastControl : Option UInt8
  sourceRoute : Option NwkSourceRoute
  deriving DecidableEq, Repr

/-- An address field that a flag selects. -/
def parseEui64If (present : Bool) (remaining : Bytes) :
    Parse ParseError (Option Eui64 × Bytes) :=
  if present then do
    let (ieee, remaining) ← Parse.mapError .address (Eui64.deserialize remaining)
    return (some ieee, remaining)
  else return (none, remaining)

namespace NwkHeader

def parseMulticastControl (present : Bool) (remaining : Bytes) :
    Parse ParseError (Option UInt8 × Bytes) :=
  if present then do
    Parse.check (remaining ≠ []) (.unexpectedEnd "NWK multicast control")
    let control ← remaining.index 0
    let remaining ← remaining.sliceFrom 1
    return (some control, remaining)
  else return (none, remaining)

def parseSourceRoute (present : Bool) (remaining : Bytes) :
    Parse ParseError (Option NwkSourceRoute × Bytes) :=
  if present then do
    let (sourceRoute, read) ← Parse.ofExcept .bits (NwkSourceRoute.codec.readBytes remaining)
    let remaining ← remaining.sliceFrom read
    return (some sourceRoute, remaining)
  else return (none, remaining)

def deserialize (bytes : Bytes) : Parse ParseError (NwkHeader × Bytes) := do
  Parse.check (8 ≤ bytes.length) (.unexpectedEnd "NwkHeader")
  let (frameControl, read) ← Parse.ofExcept .bits (NwkFrameControl.codec.readBytes bytes)
  let remaining ← bytes.sliceFrom read
  let (destination, remaining) ← Parse.mapError .address (Nwk.deserialize remaining)
  let (source, remaining) ← Parse.mapError .address (Nwk.deserialize remaining)
  let radius ← remaining.index 0
  let remaining ← remaining.sliceFrom 1
  let sequenceNumber ← remaining.index 0
  let remaining ← remaining.sliceFrom 1
  let (destinationIeee, remaining) ← parseEui64If frameControl.destination remaining
  let (sourceIeee, remaining) ← parseEui64If frameControl.extendedSource remaining
  let (multicastControl, remaining) ← parseMulticastControl frameControl.multicast remaining
  let (sourceRoute, remaining) ← parseSourceRoute frameControl.sourceRoute remaining
  return (⟨frameControl, destination, source, radius, sequenceNumber, destinationIeee,
    sourceIeee, multicastControl, sourceRoute⟩, remaining)

/-- The optional fields are written where they are present, whatever the flags say. -/
def serializeInto (header : NwkHeader) (bytes : Bytes) : Checked Bytes := do
  let bytes ← extendAbstractBits bytes NwkFrameControl.codec header.frameControl
  let bytes := bytes ++ Nwk.toBytes header.destination
  let bytes := bytes ++ Nwk.toBytes header.source
  let bytes := bytes ++ [header.radius, header.sequenceNumber]
  let bytes := bytes ++ optionBytes Eui64.toBytes header.destinationIeee
  let bytes := bytes ++ optionBytes Eui64.toBytes header.sourceIeee
  let bytes := bytes ++ header.multicastControl.toList
  match header.sourceRoute with
  | some sourceRoute => extendAbstractBits bytes NwkSourceRoute.codec sourceRoute
  | none => return bytes

end NwkHeader

/-! ## The auxiliary header -/

inductive NwkSecurityHeaderKeyId where
  | dataKey
  | networkKey
  | keyTransportKey
  | keyLoadKey
  deriving DecidableEq, Repr

def NwkSecurityHeaderKeyId.enum : Codec.Enum 2 NwkSecurityHeaderKeyId where
  all := [.dataKey, .networkKey, .keyTransportKey, .keyLoadKey]
  disc
    | .dataKey => 0x00
    | .networkKey => 0x01
    | .keyTransportKey => 0x02
    | .keyLoadKey => 0x03
  mem_all a := by cases a <;> simp
  nodup := by decide

inductive NwkSecurityLevel where
  | noSecurity
  | mic32
  | mic64
  | mic128
  | enc
  | encMic32
  | encMic64
  | encMic128
  deriving DecidableEq, Repr

def NwkSecurityLevel.enum : Codec.Enum 3 NwkSecurityLevel where
  all := [.noSecurity, .mic32, .mic64, .mic128, .enc, .encMic32, .encMic64, .encMic128]
  disc
    | .noSecurity => 0x00
    | .mic32 => 0x01
    | .mic64 => 0x02
    | .mic128 => 0x03
    | .enc => 0x04
    | .encMic32 => 0x05
    | .encMic64 => 0x06
    | .encMic128 => 0x07
  mem_all a := by cases a <;> simp
  nodup := by decide

structure NwkSecurityHeaderControlField where
  securityLevel : NwkSecurityLevel
  keyId : NwkSecurityHeaderKeyId
  extendedNonce : Bool
  requireVerifiedFrameCounter : Bool
  deriving DecidableEq, Repr

namespace NwkSecurityHeaderControlField

def codec : Codec NwkSecurityHeaderControlField :=
  ((Codec.enum NwkSecurityLevel.enum).pair <| (Codec.enum NwkSecurityHeaderKeyId.enum).pair <|
    Codec.bool.pair <| Codec.bool.pair <| Codec.reserved 1).imap
    (fun (securityLevel, keyId, extendedNonce, requireVerifiedFrameCounter, _) =>
      { securityLevel, keyId, extendedNonce, requireVerifiedFrameCounter })
    (fun c => (c.securityLevel, c.keyId, c.extendedNonce, c.requireVerifiedFrameCounter, ()))
    (fun _ => rfl) (fun _ => rfl)

theorem fixed_codec : codec.Fixed 8 :=
  ((Codec.fixed_enum _).pair <| (Codec.fixed_enum _).pair <| Codec.fixed_bool.pair <|
    Codec.fixed_bool.pair <| Codec.fixed_reserved 1).imap

/-- The field's single byte, through a buffer of that size. -/
def toBytes (field : NwkSecurityHeaderControlField) : Checked Bytes :=
  match codec.writeBytes field with
  | some written => if written.length ≤ 1 then .ok written else .error .unwrap
  | none => .error .unwrap

theorem toBytes_eq_ok (field : NwkSecurityHeaderControlField) :
    ∃ bytes, field.toBytes = .ok bytes ∧ bytes.length = 1 := by
  obtain ⟨written, hwritten, hlen⟩ := fixed_codec.writeBytes field
  change written.length = 1 at hlen
  exact ⟨written, by simp [toBytes, hwritten, hlen], hlen⟩

end NwkSecurityHeaderControlField

structure NwkAuxHeader where
  securityControl : NwkSecurityHeaderControlField
  frameCounter : UInt32
  extendedSource : Option Eui64
  keySequenceNumber : UInt8
  deriving DecidableEq, Repr

namespace NwkAuxHeader

def deserialize (bytes : Bytes) : Parse ParseError (NwkAuxHeader × Bytes) := do
  Parse.check (6 ≤ bytes.length) (.unexpectedEnd "NwkAuxHeader")
  let (securityControl, read) ←
    Parse.ofExcept .bits (NwkSecurityHeaderControlField.codec.readBytes bytes)
  let remaining ← bytes.sliceFrom read
  let frameCounter ← remaining.u32At 0
  let remaining ← remaining.sliceFrom 4
  let (extendedSource, remaining) ← parseEui64If securityControl.extendedNonce remaining
  Parse.check (remaining ≠ []) (.unexpectedEnd "NWK key sequence number")
  let keySequenceNumber ← remaining.index 0
  let remaining ← remaining.sliceFrom 1
  return ({ securityControl, frameCounter, extendedSource, keySequenceNumber }, remaining)

def serializeInto (header : NwkAuxHeader) (bytes : Bytes) : Checked Bytes := do
  let bytes := bytes ++ (← header.securityControl.toBytes)
  let bytes := bytes ++ leBytes 4 header.frameCounter.toNat
  let bytes := bytes ++ optionBytes Eui64.toBytes header.extendedSource
  return bytes ++ [header.keySequenceNumber]

end NwkAuxHeader

/-! ## Frames -/

structure EncryptedNwkFrame where
  nwkHeader : NwkHeader
  auxHeader : Option NwkAuxHeader
  ciphertext : FrameBytes
  deriving DecidableEq

/-- The body of a decrypted frame: a command of the NWK layer, or bytes that it
forwards. -/
inductive NwkPayload where
  | opaqueBytes (bytes : FrameBytes)
  | command (command : NwkCommand)
  deriving DecidableEq

namespace NwkPayload

def toBytes : NwkPayload → Checked FrameBytes
  | .opaqueBytes bytes => .ok bytes
  | .command nwkCommand => do
    Checked.expect "a NWK command is frame-bounded" (FrameBytes.fromSlice (← nwkCommand.toBytes))

def fromBytes (frameType : NwkFrameType) (bytes : FrameBytes) : Checked NwkPayload :=
  match frameType with
  | .command => do return .command (← NwkCommand.fromBytes bytes.bytes)
  | .data | .interpan => .ok (.opaqueBytes bytes)

theorem fromBytes_eq_ok (frameType : NwkFrameType) (bytes : FrameBytes) :
    ∃ payload, fromBytes frameType bytes = .ok payload := by
  cases frameType with
  | command =>
    obtain ⟨command, hcommand⟩ := NwkCommand.fromBytes_eq_ok bytes.bound
    exact ⟨.command command, by rw [fromBytes, hcommand]; rfl⟩
  | data | interpan => exact ⟨.opaqueBytes bytes, rfl⟩

end NwkPayload

structure NwkFrame where
  nwkHeader : NwkHeader
  auxHeader : Option NwkAuxHeader
  payload : NwkPayload
  deriving DecidableEq

/-- `get_modified_aux_header`: the security level is not transmitted, but it is
authenticated. -/
def getModifiedAuxHeader (auxHeader : Option NwkAuxHeader) (level : NwkSecurityLevel) :
    Checked NwkAuxHeader :=
  match auxHeader with
  | none => .error (.explicit "Auxiliary header is missing")
  | some aux => .ok { aux with securityControl.securityLevel := level }

/-- `get_nonce`: the source address, the frame counter and the security control. -/
def getNonce (nwkHeader : NwkHeader) (auxHeader : NwkAuxHeader) : Checked Bytes := do
  let source ← Checked.expect "Cannot compute nonce with no source address"
    (auxHeader.extendedSource.or nwkHeader.sourceIeee)
  return Eui64.toBytes source ++ leBytes 4 auxHeader.frameCounter.toNat ++
    (← auxHeader.securityControl.toBytes)

/-- The associated data of a frame. -/
def nwkAuthData (nwkHeader : NwkHeader) (auxHeader : NwkAuxHeader) : Checked Bytes := do
  let authData ← nwkHeader.serializeInto []
  auxHeader.serializeInto authData

namespace EncryptedNwkFrame

def fromBytes (bytes : Bytes) : Parse ParseError EncryptedNwkFrame := do
  -- A longer input would parse into a frame too large to serialize again.
  Parse.check (bytes.length ≤ maxPhyPacketSize) (.tooLong "NwkFrame")
  let (nwkHeader, remaining) ← NwkHeader.deserialize bytes
  let (auxHeader, remaining) ← parseAuxHeader nwkHeader.frameControl.security remaining
  let ciphertext ← FrameBytes.fromSliceOr remaining (.tooLong "ciphertext")
  return ⟨nwkHeader, auxHeader, ciphertext⟩
where
  parseAuxHeader (security : Bool) (remaining : Bytes) :
      Parse ParseError (Option NwkAuxHeader × Bytes) :=
    if security then do
      let (auxHeader, remaining) ← NwkAuxHeader.deserialize remaining
      return (some auxHeader, remaining)
    else return (none, remaining)

def extendFrameBytes (frame : EncryptedNwkFrame) (bytes : Bytes) : Checked Bytes := do
  let bytes ← frame.nwkHeader.serializeInto bytes
  let bytes ← match frame.auxHeader with
    | some auxHeader => auxHeader.serializeInto bytes
    | none => .ok bytes
  return bytes ++ frame.ciphertext.bytes

def toBytes (frame : EncryptedNwkFrame) : Checked Bytes := frame.extendFrameBytes []

instance : FramePayload EncryptedNwkFrame := ⟨extendFrameBytes⟩

variable (backend : CryptoBackend)

def decrypt (frame : EncryptedNwkFrame) (key : Key) : Parse DecryptionError NwkFrame := do
  let auxHeader ← getModifiedAuxHeader frame.auxHeader .encMic32
  let nonce ← getNonce frame.nwkHeader auxHeader
  let authData ← nwkAuthData frame.nwkHeader auxHeader
  let payloadBytes ← decryptCcm backend key nonce authData frame.ciphertext
  let payload ← NwkPayload.fromBytes frame.nwkHeader.frameControl.frameType payloadBytes
  return ⟨frame.nwkHeader, frame.auxHeader, payload⟩

end EncryptedNwkFrame

/-- `NwkFrame::encrypt`. -/
def NwkFrame.encrypt (backend : CryptoBackend) (frame : NwkFrame) (key : Key) :
    Checked EncryptedNwkFrame := do
  let auxHeader ← getModifiedAuxHeader frame.auxHeader .encMic32
  let nonce ← getNonce frame.nwkHeader auxHeader
  let authData ← nwkAuthData frame.nwkHeader auxHeader
  let ciphertext ← encryptCcm backend key nonce authData (← frame.payload.toBytes)
  return ⟨frame.nwkHeader, frame.auxHeader, ciphertext⟩

end Ziggurat
