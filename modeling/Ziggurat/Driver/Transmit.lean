import Ziggurat.Driver.Network
import Ziggurat.Ieee802154.RoundTrip
import Ziggurat.Nwk.FrameSpec

/-!
# Transmits

The last part of the way of a frame: the sender takes it from the send table, secures it with a
fresh frame counter, wraps it in a MAC frame, and hands the bytes to the radio.  A frame that is
sent again is secured again; what an earlier attempt left in it is overwritten.

The state of a transmit is that of the stack.  What the radio replies is an argument, and so is
whether the count of all transmits wraps at this one: it only clears the failures that neighbors
are held to account for.
-/

namespace Ziggurat

namespace Ieee802154Frame

/-- Write through `header_mut`. -/
def mapHeader {P : Type} (f : Ieee802154FrameHeader → Ieee802154FrameHeader) :
    Ieee802154Frame P → Ieee802154Frame P
  | .beacon frame => .beacon { frame with header := f frame.header }
  | .data frame => .data { frame with header := f frame.header }
  | .ack frame => .ack { frame with header := f frame.header }
  | .command frame => .command { frame with header := f frame.header }

end Ieee802154Frame

namespace Driver

open Lib.BitCodec Lib.Stateful

/-- What an attempt to transmit meets. -/
structure Attempt where
  /-- The answer of the radio. -/
  reply : Except RadioError TxResult
  /-- Whether `tx_total` wraps to zero. -/
  txTotalWraps : Bool

/-- What comes of a transmit: the frame as the attempt leaves it, the bytes without the FCS, and
the outcome. -/
structure Sent where
  frame : Frame
  psdu : Bytes
  result : Except DeliveryError Unit

/-! ## Security -/

/-- Advance the frame counter, and tell the client of every so many frames. -/
def nextNwkFrameCounter : StackM UInt32 := do
  let stack ← get
  let (advance, nwkSecurity) ← stack.nwkSecurity.nextOutgoingFrameCounter
  set { stack with nwkSecurity }
  if advance.shouldPersist then
    liftNet (pushNotification (.frameCounterUpdate advance.value))
  return advance.value

section

variable (backend : CryptoBackend) (env : Env)

/-- The auxiliary header that every attempt begins with. -/
def freshAuxHeader (security : NwkSecurity) : NwkAuxHeader where
  securityControl :=
    { securityLevel := .noSecurity
      keyId := .networkKey
      extendedNonce := true
      requireVerifiedFrameCounter := false }
  frameCounter := 0
  extendedSource := some env.ieeeAddress
  keySequenceNumber := security.activeKeySeqNumber

def applyNwkAuxHeader (frame : NwkFrame) (security : NwkSecurityMode) : StackM NwkFrame := do
  if security = .networkKey then
    let stack ← get
    return { frame with auxHeader := some (freshAuxHeader env stack.nwkSecurity) }
  else return frame

/-- Encrypt a frame with the next frame counter, which is left in the frame. -/
def encryptNwkFrame (frame : NwkFrame) (security : NwkSecurityMode) :
    StackM (EncryptedNwkFrame × NwkFrame) :=
  match security with
  | .networkKey => do
    let frameCounter ← nextNwkFrameCounter
    let auxHeader ← Checked.unwrap frame.auxHeader
    let frame := { frame with auxHeader := some { auxHeader with frameCounter } }
    let stack ← get
    let encrypted ← frame.encrypt backend stack.nwkSecurity.networkKey
    return (encrypted, frame)
  | .unsecured => do
    let ciphertext ← frame.payload.toBytes
    return ({ nwkHeader := frame.nwkHeader, auxHeader := none, ciphertext }, frame)

/-! ## The MAC frame -/

/-- The header of a data frame that we transmit. -/
def dataFrameHeader (net : Net) (destination : Nwk) (framePending ackRequest : Bool) :
    Ieee802154FrameHeader where
  frameControl :=
    { frameType := .data
      securityEnabled := false
      framePending
      ackRequest
      panIdCompression := true
      reserved1 := false
      sequenceNumberSuppression := false
      informationElementsPresent := false
      destAddrMode := .short
      frameVersion := .ieee2003
      srcAddrMode := .short }
  sequenceNumber := some net.ieee802154SequenceNumber
  destPanId := some net.panId
  destAddress := some (.nwk destination)
  srcPanId := none
  srcAddress := some (.nwk env.networkAddress)

def buildUnicast802154DataFrame (net : Net) (nextHop : Nwk) (payload : EncryptedNwkFrame)
    (framePending : Bool) : Ieee802154Frame EncryptedNwkFrame :=
  .data { header := dataFrameHeader env net nextHop framePending true, payload, fcs := 0 }

/-- All broadcasts have the MAC broadcast address: the kinds of broadcasts are a matter of the
NWK layer. -/
def buildBroadcast802154DataFrame (net : Net) (payload : EncryptedNwkFrame) :
    Ieee802154Frame EncryptedNwkFrame :=
  .data { header := dataFrameHeader env net 0xFFFF false false, payload, fcs := 0 }

/-- The outcome of a transmit by the radio. -/
def deliveryResult {P : Type} (frame : Ieee802154Frame P) :
    Except RadioError TxResult → Except DeliveryError Unit
  | .error err => .error (.radio err)
  | .ok .acked => .ok ()
  | .ok .noAck =>
    -- a frame with no destination never asked for an acknowledgement
    match frame.header.destAddress with
    | some nextHop => .error (.nwkNoAck nextHop)
    | none => .ok ()
  | .ok .channelAccessFailure => .error .ccaFailure
  | .ok other => .error (.transmitFailed other)

/-- A MAC frame gets its sequence number as it is sent, unless it goes without one. -/
def number802154Frame {P : Type} (frame : Ieee802154Frame P) : NetM (Ieee802154Frame P) := do
  if frame.header.frameControl.sequenceNumberSuppression then return frame
  else
    modify fun net => { net with ieee802154SequenceNumber := net.ieee802154SequenceNumber + 1 }
    let sequenceNumber := (← get).ieee802154SequenceNumber
    return frame.mapHeader ({ · with sequenceNumber := some sequenceNumber })

/-- Number a MAC frame and hand it to the radio.  The bytes are made in any case: they are
traced before the radio is asked. -/
def send802154Frame {P : Type} [FramePayload P] (frame : Ieee802154Frame P)
    (reply : Except RadioError TxResult) :
    NetM (Bytes × Ieee802154Frame P × Except DeliveryError Unit) := do
  let frame ← number802154Frame frame
  let psdu ← frame.toBytesWithoutFcs
  let result := if env.hackDisableTx then .ok () else deliveryResult frame reply
  return (psdu, frame, result)

/-! ## Attempts -/

/-- `increment_tx_total`. -/
def incrementTxTotal (wraps : Bool) : NetM Unit :=
  if wraps then
    modify fun net => { net with neighbors := net.neighbors.resetTransmitFailures }
  else pure ()

/-- The books on the neighbor that a frame is handed to, and on the route of its destination. -/
def recordTransmit (nextHop destination : Nwk) : NetM Unit :=
  modify fun net =>
    { net with
      neighbors := match net.addressMap.eui64For nextHop with
        | some eui64 => net.neighbors.recordOutboundActivity eui64
        | none => net.neighbors
      routing := net.routing.recordUsage destination }

/-- A unicast that is not acknowledged is held against its next hop. -/
def recordFailure (nextHop : Nwk) (result : Except DeliveryError Unit) : NetM Unit :=
  match result with
  | .error (.nwkNoAck _) => modify fun net =>
      { net with
        neighbors := match net.addressMap.eui64For nextHop with
          | some eui64 => net.neighbors.recordTransmitFailure eui64
          | none => net.neighbors }
  | _ => pure ()

def transmitUnicast (frame : NwkFrame) (nextHop : Nwk) (security : NwkSecurityMode)
    (framePending : Bool) (attempt : Attempt) : StackM Sent := do
  let frame ← applyNwkAuxHeader env frame security
  let (encrypted, frame) ← encryptNwkFrame backend frame security
  let stack ← get
  let macFrame := buildUnicast802154DataFrame env stack.net nextHop encrypted framePending
  liftNet (recordTransmit nextHop frame.nwkHeader.destination)
  liftNet (incrementTxTotal attempt.txTotalWraps)
  let (psdu, _, result) ← liftNet (send802154Frame env macFrame attempt.reply)
  liftNet (recordFailure nextHop result)
  return { frame := .nwk frame security, psdu, result }

def transmitBroadcast (frame : NwkFrame) (security : NwkSecurityMode) (attempt : Attempt) :
    StackM Sent := do
  let frame ← applyNwkAuxHeader env frame security
  let (encrypted, frame) ← encryptNwkFrame backend frame security
  let stack ← get
  let macFrame := buildBroadcast802154DataFrame env stack.net encrypted
  liftNet (incrementTxTotal attempt.txTotalWraps)
  let (psdu, _, result) ← liftNet (send802154Frame env macFrame attempt.reply)
  return { frame := .nwk frame security, psdu, result }

/-- A frame that is complete but for its sequence number. -/
def transmitRaw (frame : Ieee802154Frame FrameBytes) (attempt : Attempt) : StackM Sent := do
  let (psdu, frame, result) ← liftNet (send802154Frame env frame attempt.reply)
  return { frame := .raw frame, psdu, result }

/-- One transmit of a frame that the send table lent out. -/
def transmit (frame : Frame) (transmit : Transmit) (attempt : Attempt) : StackM Sent :=
  match transmit, frame with
  | .unicast nextHop framePending, .nwk frame security =>
    transmitUnicast backend env frame nextHop security framePending attempt
  | .unicast _ framePending, .raw frame =>
    transmitRaw env (frame.mapHeader
      fun header => { header with frameControl.framePending := framePending }) attempt
  | .broadcast, .nwk frame security => transmitBroadcast backend env frame security attempt
  | .broadcast, .raw frame => transmitRaw env frame attempt

end

/-! ## What a transmit returns -/

section

variable {backend : CryptoBackend} {env : Env} {stack : ZigbeeStack} {frame : NwkFrame}
  {body : FrameBytes}

theorem nextNwkFrameCounter_eq_ok
    (hroom : stack.nwkSecurity.primary.outgoingFrameCounter.toNat + 1 < 2 ^ 32) :
    nextNwkFrameCounter stack = .ok (stack.nwkSecurity.primary.outgoingFrameCounter + 1,
      { stack with
        nwkSecurity.primary.outgoingFrameCounter :=
          stack.nwkSecurity.primary.outgoingFrameCounter + 1
        net :=
          if (stack.nwkSecurity.primary.outgoingFrameCounter + 1) %
              stack.nwkSecurity.persistInterval = 0 then
            stack.net.pushNotification
              (.frameCounterUpdate (stack.nwkSecurity.primary.outgoingFrameCounter + 1))
          else stack.net }) := by
  have hnext : stack.nwkSecurity.nextOutgoingFrameCounter = .ok
      (⟨stack.nwkSecurity.primary.outgoingFrameCounter + 1,
        (stack.nwkSecurity.primary.outgoingFrameCounter + 1) %
          stack.nwkSecurity.persistInterval == 0⟩,
      { stack.nwkSecurity with
        primary.outgoingFrameCounter := stack.nwkSecurity.primary.outgoingFrameCounter + 1 }) := by
    rw [NwkSecurity.nextOutgoingFrameCounter, Checked.ensure_of _ hroom]
    rfl
  unfold nextNwkFrameCounter
  rw [bind_of_ok rfl, bind_of_ok (lift_of_ok hnext _)]
  dsimp only
  rw [bind_of_ok rfl]
  by_cases h : (stack.nwkSecurity.primary.outgoingFrameCounter + 1) %
      stack.nwkSecurity.persistInterval = 0
  · rw [if_pos (beq_iff_eq.mpr h), if_pos h]
    rfl
  · rw [if_neg (fun heq => h (beq_iff_eq.mp heq)), if_neg h]
    rfl

theorem nextNwkFrameCounter_eq_error
    (hroom : ¬ stack.nwkSecurity.primary.outgoingFrameCounter.toNat + 1 < 2 ^ 32) :
    nextNwkFrameCounter stack = .error .unwrap := by
  unfold nextNwkFrameCounter
  rw [bind_of_ok rfl, NwkSecurity.nextOutgoingFrameCounter_eq_error hroom]
  rfl

end

end Driver

end Ziggurat
