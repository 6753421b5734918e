import Ziggurat.Aps.Commands

/-!
# Secured APS frames

The auxiliary header of APS security, and the three secured kinds of frame.  The
functions that protect a payload and take it back are shared by the three kinds, and so
is their shape: a header in the clear, the auxiliary header, and the ciphertext.
-/

namespace Ziggurat

open Lib.BitCodec

/-! ## The auxiliary header -/

/-- The key sequence number is present for a network key only. -/
structure ApsAuxHeader where
  securityControl : NwkSecurityHeaderControlField
  frameCounter : UInt32
  extendedSource : Option Eui64
  keySequenceNumber : Option UInt8
  deriving DecidableEq, Repr

namespace ApsAuxHeader

def parseKeySequenceNumber (keyId : NwkSecurityHeaderKeyId) (remaining : Bytes) :
    Parse ParseError (Option UInt8 × Bytes) :=
  if keyId = .networkKey then do
    Parse.check (remaining ≠ []) (.unexpectedEnd "ApsAuxHeader key sequence number")
    let keySequenceNumber ← remaining.index 0
    let remaining ← remaining.sliceFrom 1
    return (some keySequenceNumber, remaining)
  else return (none, remaining)

def deserialize (bytes : Bytes) : Parse ParseError (ApsAuxHeader × Bytes) := do
  Parse.check (5 ≤ bytes.length) (.unexpectedEnd "ApsAuxHeader")
  let securityControl ←
    Parse.ofExcept .bits (fromAbstractBytes NwkSecurityHeaderControlField.codec bytes)
  let remaining ← bytes.sliceFrom 1
  let frameCounter ← remaining.u32At 0
  let remaining ← remaining.sliceFrom 4
  let (extendedSource, remaining) ← parseEui64If securityControl.extendedNonce remaining
  let (keySequenceNumber, remaining) ← parseKeySequenceNumber securityControl.keyId remaining
  return (⟨securityControl, frameCounter, extendedSource, keySequenceNumber⟩, remaining)

def serializeInto (header : ApsAuxHeader) (bytes : Bytes) : Checked Bytes := do
  let bytes := bytes ++ (← header.securityControl.toBytes)
  let bytes := bytes ++ leBytes 4 header.frameCounter.toNat
  let bytes := bytes ++ optionBytes Eui64.toBytes header.extendedSource
  return bytes ++ header.keySequenceNumber.toList

/-- The security level is not transmitted, but it is authenticated. -/
def getModified (header : ApsAuxHeader) (level : NwkSecurityLevel) : ApsAuxHeader :=
  { header with securityControl.securityLevel := level }

def getNonce (header : ApsAuxHeader) (source : Eui64) : Checked Bytes := do
  return Eui64.toBytes source ++ leBytes 4 header.frameCounter.toNat ++
    (← header.securityControl.toBytes)

end ApsAuxHeader

/-! ## Payload protection -/

section

variable (backend : CryptoBackend)

def encryptApsPayload (key : Key) (auxHeader : ApsAuxHeader) (header plaintext : Bytes) :
    Checked FrameBytes := do
  let modified := auxHeader.getModified .encMic32
  let source ← Checked.expect "outgoing secured APS frames always carry an extended nonce"
    auxHeader.extendedSource
  let nonce ← modified.getNonce source
  let authData ← modified.serializeInto header
  let buffer ← Checked.expect "plaintext is frame-bounded" (FrameBytes.fromSlice plaintext)
  encryptCcm backend key nonce authData buffer

/-- `source` is the originator's address, for a frame that does not carry it. -/
def decryptApsPayload (key : Key) (auxHeader : ApsAuxHeader) (source : Eui64)
    (header taggedCiphertext : Bytes) : Parse ParseError FrameBytes := do
  let modified := auxHeader.getModified .encMic32
  let nonce ← modified.getNonce (auxHeader.extendedSource.getD source)
  let authData ← modified.serializeInto header
  let buffer ← (Checked.expect "ciphertext is frame-bounded"
    (FrameBytes.fromSlice taggedCiphertext) : Checked FrameBytes)
  Parse.mapError .decrypt (decryptCcm backend key nonce authData buffer)

end

/-- The auxiliary header and the ciphertext of a secured frame. -/
def parseSecured (remaining : Bytes) : Parse ParseError (ApsAuxHeader × FrameBytes) := do
  let (auxHeader, remaining) ← ApsAuxHeader.deserialize remaining
  let ciphertext ← FrameBytes.fromSliceOr remaining (.tooLong "ciphertext")
  return (auxHeader, ciphertext)

/-! ## Secured command frames -/

structure EncryptedApsCommandFrame where
  frameControl : ApsFrameControl
  counter : UInt8
  auxHeader : ApsAuxHeader
  ciphertext : FrameBytes
  deriving DecidableEq

namespace EncryptedApsCommandFrame

def fromBytes (bytes : Bytes) : Parse ParseError EncryptedApsCommandFrame := do
  Parse.check (7 ≤ bytes.length) (.unexpectedEnd "EncryptedApsCommandFrame")
  let frameControl ← Parse.ofExcept .bits (fromAbstractBytes ApsFrameControl.codec bytes)
  let counter ← bytes.index 1
  let (auxHeader, ciphertext) ← parseSecured (← bytes.sliceFrom 2)
  return ⟨frameControl, counter, auxHeader, ciphertext⟩

def toBytes (frame : EncryptedApsCommandFrame) : Checked Bytes := do
  let bytes ← apsCommandHeaderToBytes frame.frameControl frame.counter
  return (← frame.auxHeader.serializeInto bytes) ++ frame.ciphertext.bytes

/-- A command always carries the address of its sender.  The decrypted body is parsed
after the cleartext header, as a frame in the clear would be. -/
def decrypt (backend : CryptoBackend) (frame : EncryptedApsCommandFrame) (key : Key) :
    Parse ParseError ApsCommandFrame := do
  match frame.auxHeader.extendedSource with
  | none => throw (.unsupported "APS command frames without an extended nonce")
  | some source =>
    let header ← apsCommandHeaderToBytes frame.frameControl frame.counter
    let plaintext ←
      decryptApsPayload backend key frame.auxHeader source header frame.ciphertext.bytes
    ApsCommandFrame.fromBytes (header ++ plaintext.bytes)

end EncryptedApsCommandFrame

def ApsCommandFrame.encrypt (backend : CryptoBackend) (frame : ApsCommandFrame) (key : Key)
    (auxHeader : ApsAuxHeader) : Checked EncryptedApsCommandFrame := do
  let ciphertext ← encryptApsPayload backend key auxHeader
    (← apsCommandHeaderToBytes frame.frameControl frame.counter) (← frame.payloadToBytes)
  return ⟨frame.frameControl, frame.counter, auxHeader, ciphertext⟩

/-! ## Secured data frames -/

structure EncryptedApsDataFrame where
  header : ApsDataHeader
  auxHeader : ApsAuxHeader
  ciphertext : FrameBytes
  deriving DecidableEq

namespace EncryptedApsDataFrame

def fromBytes (bytes : Bytes) : Parse ParseError EncryptedApsDataFrame := do
  let (header, remaining) ← ApsDataHeader.deserialize bytes
  let (auxHeader, ciphertext) ← parseSecured remaining
  return ⟨header, auxHeader, ciphertext⟩

def decrypt (backend : CryptoBackend) (frame : EncryptedApsDataFrame) (key : Key)
    (source : Eui64) : Parse ParseError ApsDataFrame := do
  let header ← frame.header.toBytes
  let asdu ← decryptApsPayload backend key frame.auxHeader source header frame.ciphertext.bytes
  return ⟨frame.header, asdu⟩

end EncryptedApsDataFrame

def ApsDataFrame.encrypt (backend : CryptoBackend) (frame : ApsDataFrame) (key : Key)
    (auxHeader : ApsAuxHeader) : Checked EncryptedApsDataFrame := do
  let ciphertext ← encryptApsPayload backend key auxHeader
    (← frame.toApsDataHeader.toBytes) frame.asdu.bytes
  return ⟨frame.toApsDataHeader, auxHeader, ciphertext⟩

/-! ## Secured acknowledgements -/

/-- An acknowledgement has no payload: the ciphertext is the MIC of its headers. -/
structure EncryptedApsAckFrame where
  header : ApsAckFrame
  auxHeader : ApsAuxHeader
  ciphertext : FrameBytes
  deriving DecidableEq

namespace EncryptedApsAckFrame

def fromBytes (bytes : Bytes) : Parse ParseError EncryptedApsAckFrame := do
  let header ← ApsAckFrame.fromBytes bytes
  -- The parser of the header does not say how many bytes it took.
  let headerLen := if header.frameControl.ackFormat then 2 else 8
  let (auxHeader, ciphertext) ← parseSecured (← bytes.sliceFrom headerLen)
  return ⟨header, auxHeader, ciphertext⟩

def toBytes (frame : EncryptedApsAckFrame) : Checked Bytes := do
  return (← frame.auxHeader.serializeInto (← frame.header.toBytes)) ++ frame.ciphertext.bytes

def decrypt (backend : CryptoBackend) (frame : EncryptedApsAckFrame) (key : Key)
    (source : Eui64) : Parse ParseError ApsAckFrame := do
  let header ← frame.header.toBytes
  let _ ← decryptApsPayload backend key frame.auxHeader source header frame.ciphertext.bytes
  return frame.header

end EncryptedApsAckFrame

def ApsAckFrame.encrypt (backend : CryptoBackend) (frame : ApsAckFrame) (key : Key)
    (auxHeader : ApsAuxHeader) : Checked EncryptedApsAckFrame := do
  let ciphertext ← encryptApsPayload backend key auxHeader (← frame.toBytes) []
  return ⟨frame, auxHeader, ciphertext⟩

/-! ## Any APS frame -/

inductive ApsFrame where
  | data (frame : ApsDataFrame)
  | encryptedData (frame : EncryptedApsDataFrame)
  | ack (frame : ApsAckFrame)
  | encryptedAck (frame : EncryptedApsAckFrame)
  | command (frame : ApsCommandFrame)
  | encryptedCommand (frame : EncryptedApsCommandFrame)
  deriving DecidableEq

/-- `ApsFrameType::try_from` of the low bits of the first byte. -/
def ApsFrameType.tryFrom (bits : UInt8) : Parse ParseError ApsFrameType :=
  match ApsFrameType.enum.ofDisc (Fin.ofNat _ bits.toNat) with
  | some frameType => pure frameType
  | none => throw (.invalidDiscriminant "ApsFrameType" bits)

/-- `parse_aps_frame`: the first byte has the frame type and the security flag. -/
def parseApsFrame (bytes : Bytes) : Parse ParseError ApsFrame := do
  Parse.check (bytes ≠ []) (.unexpectedEnd "ApsFrame")
  let first ← bytes.index 0
  let frameType ← ApsFrameType.tryFrom (first &&& 0b11)
  let security := first &&& 0b00100000 != 0
  match frameType, security with
  | .command, true => return .encryptedCommand (← EncryptedApsCommandFrame.fromBytes bytes)
  | .command, false => return .command (← ApsCommandFrame.fromBytes bytes)
  | .data, true => return .encryptedData (← EncryptedApsDataFrame.fromBytes bytes)
  | .ack, true => return .encryptedAck (← EncryptedApsAckFrame.fromBytes bytes)
  | .data, false => return .data (← ApsDataFrame.fromBytes bytes)
  | .ack, false => return .ack (← ApsAckFrame.fromBytes bytes)
  | .interpan, _ => throw (.unsupported "Interpan")

end Ziggurat
