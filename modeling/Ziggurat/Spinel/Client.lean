import Ziggurat.Spinel.Protocol

/-!
# Commands to the radio

`send_command` prepares a request under the lock of the protocol, writes it to the port, and waits
for the response or for a timeout.  Any number of such calls run at the same time as the reader,
which routes what the radio sends.  Here each call is a state machine whose steps are the sections
that run without interruption: from one lock of the protocol, or one await, to the next.

`SpinelClient.step` is one such section, of any call or of the reader.  The radio is not modelled:
it answers a request that reached it once, at any later time, or never.

The response in a channel is kept together with the request that it answers.  The code does not
know that request: it is there to say whose response a call returns.
-/

namespace Ziggurat

/-- The errors that `send_command` returns. -/
inductive SpinelError where
  | ioError
  | cancelledByReset
  | timeout
  deriving DecidableEq, Repr

namespace SpinelClient

/-- Why a call gives its request up. -/
inductive Cancellation where
  | reset
  | timeout
  deriving DecidableEq, Repr

/-- Where a call is. -/
inductive Stage where
  /-- In `send_frame`, before the bytes are out. -/
  | sending
  /-- The bytes are out, and `write_all` has not returned. -/
  | sent
  /-- In the await of the response. -/
  | waiting
  /-- Before the lock for `cancel_request`. -/
  | cancelling (cause : Cancellation)
  /-- Before the timeout is counted. -/
  | counting
  /-- Before the lock for `notify_reset`. -/
  | recovering
  /-- Returned a frame, the response to `request`. -/
  | returned (request : Nat) (frame : SpinelFrame)
  | failed (err : SpinelError)
  deriving DecidableEq, Repr

structure Call where
  request : SpinelFrame
  stage : Stage
  /-- What is in the channel, and the request that it answers. -/
  response : Option (Nat × SpinelFrame)
  deriving DecidableEq, Repr

def Call.tid (call : Call) : UInt8 := call.request.header.transactionId

inductive Event where
  | start (commandId : SpinelCommandId) (payload : Bytes)
  | transmit (id : Nat)
  | written (id : Nat)
  | writeFailed (id : Nat)
  /-- The radio answers a request, with its transaction identifier. -/
  | respond (id : Nat) (frame : SpinelFrame)
  | unsolicited (frame : SpinelFrame)
  /-- The channel is polled, and it has a frame or is closed. -/
  | poll (id : Nat)
  /-- The channel is polled, it is empty, and the time is up. -/
  | timeout (id : Nat)
  | cancel (id : Nat)
  | count (id : Nat)
  | recover (id : Nat)
  deriving DecidableEq, Repr

def Event.isStart : Event → Bool
  | .start _ _ => true
  | _ => false

end SpinelClient

/-- `MAX_CONSECUTIVE_TIMEOUTS`. -/
def maxConsecutiveTimeouts : UInt32 := 4

structure SpinelClient where
  protocol : SpinelProtocol
  /-- The calls so far.  A call has the number of its channel. -/
  calls : Nat → Option SpinelClient.Call
  nextCall : Nat
  consecutiveTimeouts : UInt32
  /-- The requests that the radio has and may still answer. -/
  unanswered : Nat → Bool

namespace SpinelClient

def new : SpinelClient where
  protocol := .new
  calls := fun _ => none
  nextCall := 0
  consecutiveTimeouts := 0
  unanswered := fun _ => false

def setCall (client : SpinelClient) (id : Nat) (call : Call) : SpinelClient :=
  { client with calls := Function.update client.calls id (some call) }

/-- What the reader hands to channels, for a frame that answers `request`. -/
def deliver (client : SpinelClient) (request : Nat) : List SpinelDelivery → SpinelClient
  | [] => client
  | .response channel frame :: deliveries =>
    match client.calls channel with
    | some call =>
      (client.setCall channel { call with response := some (request, frame) }).deliver request
        deliveries
    | none => client.deliver request deliveries
  | _ :: deliveries => client.deliver request deliveries

/-- The sender of a channel is in the table of the protocol, or it has been dropped. -/
def Alive (client : SpinelClient) (id : Nat) (call : Call) : Prop :=
  client.protocol.pendingFrames call.tid = some id

instance (client : SpinelClient) (id : Nat) (call : Call) : Decidable (client.Alive id call) :=
  inferInstanceAs (Decidable (_ = _))

/-- One section of a call or of the reader, unless it cannot run or panics. -/
def step (client : SpinelClient) : Event → Option SpinelClient
  | .start commandId payload =>
    match client.protocol.prepareRequest client.nextCall commandId payload with
    | .ok (frame, protocol) =>
      some { client.setCall client.nextCall ⟨frame, .sending, none⟩ with
        protocol
        nextCall := client.nextCall + 1 }
    | .error _ => none
  | .transmit id => do
    let call ← client.calls id
    guard (call.stage = .sending)
    return { client.setCall id { call with stage := .sent } with
      unanswered := Function.update client.unanswered id true }
  | .written id => do
    let call ← client.calls id
    guard (call.stage = .sent)
    return client.setCall id { call with stage := .waiting }
  | .writeFailed id => do
    let call ← client.calls id
    guard (call.stage = .sending ∨ call.stage = .sent)
    -- the entry of the request stays in the table
    return client.setCall id { call with stage := .failed .ioError }
  | .respond id frame => do
    let call ← client.calls id
    guard (client.unanswered id = true ∧ frame.header.transactionId = call.tid)
    let (protocol, deliveries) :=
      client.protocol.handleInboundFrame frame.header frame.commandId frame.payload
    return { client with
      protocol
      unanswered := Function.update client.unanswered id false }.deliver id deliveries
  | .unsolicited frame => do
    guard (frame.header.transactionId = 0)
    let (protocol, _) :=
      client.protocol.handleInboundFrame frame.header frame.commandId frame.payload
    return { client with protocol }
  | .poll id => do
    let call ← client.calls id
    guard (call.stage = .waiting)
    match call.response with
    | some (request, frame) =>
      return { client.setCall id { call with stage := .returned request frame } with
        consecutiveTimeouts := 0 }
    | none =>
      guard (¬client.Alive id call)
      return client.setCall id { call with stage := .cancelling .reset }
  | .timeout id => do
    let call ← client.calls id
    guard (call.stage = .waiting ∧ call.response = none ∧ client.Alive id call)
    return client.setCall id { call with stage := .cancelling .timeout }
  | .cancel id => do
    let call ← client.calls id
    let stage ← match call.stage with
      | .cancelling .reset => some (.failed .cancelledByReset)
      | .cancelling .timeout => some .counting
      | _ => none
    return { client.setCall id { call with stage } with
      protocol := client.protocol.cancelRequest call.tid }
  | .count id => do
    let call ← client.calls id
    guard (call.stage = .counting)
    let timeouts := client.consecutiveTimeouts + 1
    if timeouts ≥ maxConsecutiveTimeouts then
      return { client.setCall id { call with stage := .recovering } with
        consecutiveTimeouts := 0 }
    else
      return { client.setCall id { call with stage := .failed .timeout } with
        consecutiveTimeouts := timeouts }
  | .recover id => do
    let call ← client.calls id
    guard (call.stage = .recovering)
    return { client.setCall id { call with stage := .failed .timeout } with
      protocol := (client.protocol.notifyReset .responseTimeout).1 }

/-- A run of steps that are allowed in the states where they are taken. -/
inductive Run (Allowed : SpinelClient → Event → Prop) : SpinelClient → SpinelClient → Prop
  | refl (client : SpinelClient) : Run Allowed client client
  | tail {client client' client'' : SpinelClient} {event : Event} :
    Run Allowed client client' → client'.step event = some client'' → Allowed client' event →
    Run Allowed client client''

variable {Allowed : SpinelClient → Event → Prop} {client client' client'' : SpinelClient}

theorem Run.head {event : Event} (hstep : client.step event = some client')
    (hallowed : Allowed client event) (hrun : Run Allowed client' client'') :
    Run Allowed client client'' := by
  induction hrun with
  | refl => exact (Run.refl client).tail hstep hallowed
  | tail _ hstep' hallowed' ih => exact ih.tail hstep' hallowed'

theorem Run.mono {Allowed' : SpinelClient → Event → Prop}
    (hle : ∀ client event, Allowed client event → Allowed' client event)
    (h : Run Allowed client client') : Run Allowed' client client' := by
  induction h with
  | refl => exact .refl _
  | tail _ hstep hallowed ih => exact ih.tail hstep (hle _ _ hallowed)

end SpinelClient

end Ziggurat
