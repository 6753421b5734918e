import Ziggurat.Spinel.Frame

/-!
# The Spinel protocol state

`SpinelProtocol` accumulates the bytes that the radio sends, takes the frames out of them and
routes each one: to the request with its transaction identifier, to the receiver of a property, or
to recovery from a reset.  It also hands out the transaction identifiers of requests.

A pending request is the sender of a oneshot channel.  The model names each channel by a number,
and an inbound frame returns what is sent to channels, next to the new state.  Whether there is
room for it is a matter of the channel.
-/

namespace Ziggurat

/-- `MAX_HDLC_BUFFER_SIZE`: so many bytes without a flag mean that the stream is out of step. -/
def maxHdlcBufferSize : Nat := 4096

structure SpinelProtocol where
  buffer : Bytes
  ignoringUntilNextFlag : Bool
  nextTid : UInt8
  /-- The channel that waits for the response with a transaction identifier. -/
  pendingFrames : UInt8 → Option Nat
  /-- Which properties have a receiver. -/
  propertyUpdateReceivers : SpinelPropertyId → Bool
  resetNotificationReceiver : Bool

/-- What is sent to a channel: a response with `send`, and the others with `try_send`. -/
inductive SpinelDelivery where
  | response (channel : Nat) (frame : SpinelFrame)
  | propertyUpdate (propertyId : SpinelPropertyId) (value : Bytes)
  | reset (status : SpinelStatus)
  deriving DecidableEq, Repr

namespace SpinelProtocol

def new : SpinelProtocol where
  buffer := []
  ignoringUntilNextFlag := true
  nextTid := 1
  pendingFrames := fun _ => none
  propertyUpdateReceivers := fun _ => false
  resetNotificationReceiver := false

/-! ## Resets -/

def failAllPendingRequests (protocol : SpinelProtocol) : SpinelProtocol :=
  { protocol with pendingFrames := fun _ => none }

def notifyReset (protocol : SpinelProtocol) (status : SpinelStatus) :
    SpinelProtocol × List SpinelDelivery :=
  let protocol := protocol.failAllPendingRequests
  (protocol, if protocol.resetNotificationReceiver then [.reset status] else [])

/-- `handle_unsolicited_last_status`: only a known reset status does anything. -/
def handleUnsolicitedLastStatus (protocol : SpinelProtocol) (value : Bytes) :
    SpinelProtocol × List SpinelDelivery :=
  match packedUint21Deserialize value with
  | .ok (statusInt, _) =>
    if statusInt.toNat < 256 then
      match SpinelStatus.enum.ofDisc statusInt.toUInt8.toFin with
      | some status => if status.isReset then protocol.notifyReset status else (protocol, [])
      | none => (protocol, [])
    else (protocol, [])
  | .error _ => (protocol, [])

/-! ## Routing -/

/-- `handle_inbound_frame`. -/
def handleInboundFrame (protocol : SpinelProtocol) (header : SpinelHeader)
    (commandId : SpinelCommandId) (payload : Bytes) : SpinelProtocol × List SpinelDelivery :=
  let tid := header.transactionId
  if tid = 0 then
    if commandId = .propValueIs then
      match packedUint21Deserialize payload with
      | .ok (propertyId, value) =>
        if propertyId = SpinelPropertyId.lastStatus then protocol.handleUnsolicitedLastStatus value
        else if protocol.propertyUpdateReceivers propertyId then
          (protocol, [.propertyUpdate propertyId value])
        else (protocol, [])
      | .error _ => (protocol, [])
    else (protocol, [])
  else match protocol.pendingFrames tid with
    | some channel =>
      ({ protocol with pendingFrames := Function.update protocol.pendingFrames tid none },
        [.response channel { header, commandId, payload }])
    | none => (protocol, [])

/-- What a frame without a transaction identifier can do. -/
inductive Unsolicited (protocol : SpinelProtocol) : SpinelProtocol × List SpinelDelivery → Prop
  | ignored : Unsolicited protocol (protocol, [])
  | updated (propertyId : SpinelPropertyId) (value : Bytes) :
    Unsolicited protocol (protocol, [.propertyUpdate propertyId value])
  | reset (status : SpinelStatus) : Unsolicited protocol (protocol.notifyReset status)

theorem unsolicited_handleUnsolicitedLastStatus (protocol : SpinelProtocol) (value : Bytes) :
    Unsolicited protocol (protocol.handleUnsolicitedLastStatus value) := by
  unfold handleUnsolicitedLastStatus
  split
  next =>
    split_ifs
    · split
      next status _ =>
        split_ifs
        · exact .reset status
        · exact .ignored
      next => exact .ignored
    · exact .ignored
  next => exact .ignored

theorem unsolicited_handleInboundFrame {protocol : SpinelProtocol} {header : SpinelHeader}
    (h : header.transactionId = 0) (commandId : SpinelCommandId) (payload : Bytes) :
    Unsolicited protocol (protocol.handleInboundFrame header commandId payload) := by
  unfold handleInboundFrame
  rw [if_pos h]
  split_ifs
  · split
    next propertyId value _ =>
      split_ifs
      · exact unsolicited_handleUnsolicitedLastStatus protocol value
      · exact .updated propertyId value
      · exact .ignored
    next => exact .ignored
  · exact .ignored

theorem handleInboundFrame_of_ne {protocol : SpinelProtocol} {header : SpinelHeader}
    (h : header.transactionId ≠ 0) (commandId : SpinelCommandId) (payload : Bytes) :
    protocol.handleInboundFrame header commandId payload =
      ({ protocol with
          pendingFrames := Function.update protocol.pendingFrames header.transactionId none },
        (protocol.pendingFrames header.transactionId).toList.map
          (.response · { header, commandId, payload })) := by
  unfold handleInboundFrame
  rw [if_neg h]
  split
  next channel hchannel =>
    rw [hchannel]
    rfl
  next hnone =>
    have hsame : Function.update protocol.pendingFrames header.transactionId none =
        protocol.pendingFrames := by
      rw [← hnone, Function.update_eq_self]
    rw [hnone, hsame]
    rfl

theorem buffer_handleInboundFrame (protocol : SpinelProtocol) (header : SpinelHeader)
    (commandId : SpinelCommandId) (payload : Bytes) :
    (protocol.handleInboundFrame header commandId payload).1.buffer = protocol.buffer := by
  by_cases h : header.transactionId = 0
  · generalize hresult : protocol.handleInboundFrame header commandId payload = result
    obtain _ | _ | _ := hresult ▸ unsolicited_handleInboundFrame h commandId payload
    · rfl
    · rfl
    · rfl
  · rw [handleInboundFrame_of_ne h]

/-! ## Requests -/

/-- The loop of `prepare_request`: the first identifier from `tid` on that is not pending.  It has
come around to `next_tid`, and the assertion fails, before `fuel` runs out. -/
def freeTid (pendingFrames : UInt8 → Option Nat) (nextTid : UInt8) : Nat → UInt8 → Checked UInt8
  | 0, _ => .error (.explicit "All Spinel TIDs are in flight")
  | fuel + 1, tid =>
    if (pendingFrames tid).isSome then do
      let tid := 1 + tid % 7
      Checked.ensure (tid ≠ nextTid) (.explicit "All Spinel TIDs are in flight")
      freeTid pendingFrames nextTid fuel tid
    else .ok tid

/-- `prepare_request`, with `channel` for the response. -/
def prepareRequest (protocol : SpinelProtocol) (channel : Nat) (commandId : SpinelCommandId)
    (payload : Bytes) : Checked (SpinelFrame × SpinelProtocol) := do
  let tid ← freeTid protocol.pendingFrames protocol.nextTid 8 protocol.nextTid
  let frame := { header := ⟨0b10, 0, tid⟩, commandId, payload }
  return (frame, { protocol with
    nextTid := 1 + tid % 7
    pendingFrames := Function.update protocol.pendingFrames tid (some channel) })

def cancelRequest (protocol : SpinelProtocol) (tid : UInt8) : SpinelProtocol :=
  { protocol with pendingFrames := Function.update protocol.pendingFrames tid none }

/-! ## Accumulating bytes -/

section

variable (crcKermit : Bytes → UInt16)

/-- `next_frame_into`: the data of the next frame in the buffer.  What stands between two flags
and is not a frame is dropped. -/
def nextFrameInto (protocol : SpinelProtocol) : Option Bytes × SpinelProtocol :=
  match _h : protocol.buffer.findIdx? (· = HdlcSpecial.flag.byte) with
  | none =>
    if protocol.buffer.length > maxHdlcBufferSize then
      (none, { protocol with buffer := [], ignoringUntilNextFlag := true })
    else (none, protocol)
  | some index =>
    let ignoring := protocol.ignoringUntilNextFlag
    let parsed :=
      if !ignoring && index > 0 then
        (hdlcUnescape crcKermit (protocol.buffer.take index)).toOption
      else none
    let protocol' : SpinelProtocol := { protocol with
      buffer := protocol.buffer.drop (index + 1)
      ignoringUntilNextFlag := false }
    match parsed with
    | some data => (some data, protocol')
    | none => nextFrameInto protocol'
termination_by protocol.buffer.length
decreasing_by
  have hlt := (List.findIdx?_eq_some_iff_getElem.mp _h).1
  simp only [List.length_drop]
  omega

theorem length_buffer_nextFrameInto {protocol protocol' : SpinelProtocol} {data : Bytes}
    (h : protocol.nextFrameInto crcKermit = (some data, protocol')) :
    protocol'.buffer.length < protocol.buffer.length := by
  fun_induction nextFrameInto crcKermit protocol with
  | case1 => cases h
  | case2 => cases h
  | case3 protocol index hindex ignoring parsed next data' hparsed =>
    obtain ⟨-, rfl⟩ := Prod.mk.inj h
    have hlt := (List.findIdx?_eq_some_iff_getElem.mp hindex).1
    simp only [next, List.length_drop]
    omega
  | case4 protocol index hindex ignoring parsed next hparsed ih =>
    have hlt := (List.findIdx?_eq_some_iff_getElem.mp hindex).1
    have hdrop : next.buffer.length < protocol.buffer.length := by
      simp only [next, List.length_drop]
      omega
    exact (ih h).trans hdrop

/-- The loop of `parse_frames_from_bytes`. -/
def parseFrames (protocol : SpinelProtocol) : List SpinelFrame × SpinelProtocol :=
  match _h : protocol.nextFrameInto crcKermit with
  | (none, protocol') => ([], protocol')
  | (some data, protocol') =>
    let (frames, protocol'') := parseFrames protocol'
    ((SpinelFrame.fromBytes data).toOption.toList ++ frames, protocol'')
termination_by protocol.buffer.length
decreasing_by exact length_buffer_nextFrameInto crcKermit _h

/-- `parse_frames_from_bytes`. -/
def parseFramesFromBytes (protocol : SpinelProtocol) (bytes : Bytes) :
    List SpinelFrame × SpinelProtocol :=
  parseFrames crcKermit { protocol with buffer := protocol.buffer ++ bytes }

/-- The loop of `handle_inbound_bytes`. -/
def handleFrames (protocol : SpinelProtocol) : SpinelProtocol × List SpinelDelivery :=
  match _h : protocol.nextFrameInto crcKermit with
  | (none, protocol') => (protocol', [])
  | (some data, protocol') =>
    match parseSpinelParts data with
    | .ok (header, commandId, payload) =>
      let routed := protocol'.handleInboundFrame header commandId payload
      let (protocol'', deliveries) := handleFrames routed.1
      (protocol'', routed.2 ++ deliveries)
    | .error _ => handleFrames protocol'
termination_by protocol.buffer.length
decreasing_by
  · rw [buffer_handleInboundFrame]
    exact length_buffer_nextFrameInto crcKermit _h
  · exact length_buffer_nextFrameInto crcKermit _h

/-- `handle_inbound_bytes`. -/
def handleInboundBytes (protocol : SpinelProtocol) (bytes : Bytes) :
    SpinelProtocol × List SpinelDelivery :=
  handleFrames crcKermit { protocol with buffer := protocol.buffer ++ bytes }

end

end SpinelProtocol

end Ziggurat
