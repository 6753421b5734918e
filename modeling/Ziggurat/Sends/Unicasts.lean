import Ziggurat.FlatMap
import Ziggurat.Rust
import Ziggurat.Sends.Basic

/-!
# The table of unicasts with a known next hop

The model of `sends/unicasts.rs`.  A unicast is transmitted with retries, or
held until the sleepy child it is for polls.

Every function is the source's, as state passing on the record map.  A `Checked`
result is one that can reach an `unwrap`, an `expect` or an `unreachable!` of
the source.  The two loops of `tick` and `drop_indirect` first collect ids and
then settle them one by one, as the source does.
-/

namespace Ziggurat

/-- What a unicast is enqueued with. -/
structure Unicast (F W : Type) where
  frame : F
  priority : TxPriority
  waiter : W
  confirm : Confirm
  nextHop : Nwk
  /-- The address the device polls under, for a frame held until it polls. -/
  pollAddress : Option Ieee802154Address

namespace Unicasts

/-- The stage of a unicast. -/
inductive Stage where
  /-- Ready for the sender. -/
  | queued
  /-- In the radio.  `acked` records an APS ack that arrived meanwhile. -/
  | transmitting (acked : Bool)
  /-- A failed transmit waiting out its retry delay. -/
  | retrying (due : Instant)
  /-- A held frame waiting for its device to poll. -/
  | awaitingPoll
  /-- Handed off; waiting for the end-to-end APS ack. -/
  | awaitingApsAck
  deriving DecidableEq, Repr

/-- A unicast in the table. -/
structure Record (F W : Type) where
  frame : Option F
  priority : TxPriority
  waiter : W
  confirm : Confirm
  nextHop : Nwk
  pollAddress : Option Ieee802154Address
  attemptsRemaining : Nat
  stage : Stage
  deadline : Instant
  copyOf : Option SendId

/-- `Stage::Transmitting { .. }` as a test. -/
def Stage.isTransmitting : Stage → Bool
  | .transmitting _ => true
  | _ => false

namespace Record

variable {F W : Type}

/-- The address this send keeps a frame-pending bit set for. -/
def pendingFor (record : Record F W) : Option Ieee802154Address :=
  match record.pollAddress, record.stage with
  | some address, .awaitingPoll => some address
  | some address, .queued => some address
  | some address, .transmitting _ => some address
  | _, _ => none

/-- The failure that a lapsed deadline means in this stage. -/
def deadlineFailure (record : Record F W) : Option SendFailure :=
  match record.stage with
  | .transmitting _ => none
  | .awaitingApsAck => some .apsAckTimeout
  | .queued | .retrying _ | .awaitingPoll =>
    match record.pollAddress with
    | none => some .handoffTimeout
    | some destination => some (.indirectExpired destination)

/-- When the timer must look at this send. -/
def nextWake (record : Record F W) : Option Instant :=
  match record.stage with
  | .transmitting _ => none
  | .retrying due => some (min due record.deadline)
  | .queued | .awaitingPoll | .awaitingApsAck => some record.deadline

/-- The first half of the loop body of `tick`: a retry that is due is queued. -/
def requeue (now : Instant) (record : Record F W) : Record F W :=
  match record.stage with
  | .retrying due => if due ≤ now then { record with stage := .queued } else record
  | _ => record

/-- The second half of the loop body of `tick`: the failure of a record past
its deadline. -/
def lapse (now : Instant) (record : Record F W) : Option SendFailure :=
  if record.deadline ≤ now then record.deadlineFailure else none

end Record

end Unicasts

/-- The table of unicasts. -/
structure Unicasts (F W : Type) where
  records : FlatMap SendId (Unicasts.Record F W)

namespace Unicasts

variable {F W E : Type}

/-- `Unicasts::default`. -/
def empty : Unicasts F W := ⟨.new⟩

def contains (t : Unicasts F W) (id : SendId) : Bool :=
  t.records.containsKey id

/-- The stage and the deadline a unicast enters the table with.  A deadline it
was admitted with earlier replaces the handoff timeout and caps the persistence
time. -/
def admission (pollAddress : Option Ieee802154Address) (now : Instant)
    (admittedDeadline : Option Instant) (tunables : Tunables) : Stage × Instant :=
  let persistenceDeadline := Instant.add now tunables.transactionPersistenceTime
  match pollAddress, admittedDeadline with
  | none, none => (.queued, Instant.add now tunables.handoffTimeout)
  | none, some deadline => (.queued, deadline)
  | some _, none => (.awaitingPoll, persistenceDeadline)
  | some _, some deadline => (.awaitingPoll, min persistenceDeadline deadline)

/-- The record a unicast enters the table as. -/
def newRecord (unicast : Unicast F W) (now : Instant) (admittedDeadline : Option Instant)
    (copyOf : Option SendId) (tunables : Tunables) : Record F W :=
  let (stage, deadline) := admission unicast.pollAddress now admittedDeadline tunables
  { frame := some unicast.frame
    priority := unicast.priority
    waiter := unicast.waiter
    confirm := unicast.confirm
    nextHop := unicast.nextHop
    pollAddress := unicast.pollAddress
    attemptsRemaining := tunables.unicastRetries
    stage := stage
    deadline := deadline
    copyOf := copyOf }

def enqueue (t : Unicasts F W) (id : SendId) (unicast : Unicast F W) (now : Instant)
    (admittedDeadline : Option Instant) (copyOf : Option SendId) (tunables : Tunables) :
    Unicasts F W :=
  ⟨t.records.insert id (newRecord unicast now admittedDeadline copyOf tunables)⟩

/-- A record `best_queued` may pick. -/
def Record.ready (now : Instant) (record : Record F W) : Bool :=
  record.stage = .queued ∧ now < record.deadline

/-- The highest-priority queued send, oldest first within a priority. -/
def bestQueued (t : Unicasts F W) (now : Instant) : Option (SendId × TxPriority) :=
  (maxByKey (fun e => schedulingKey e.1 e.2.priority)
    (t.records.entries.filter (fun e => e.2.ready now))).map
    (fun e => (e.1, e.2.priority))

def dequeue (t : Unicasts F W) (id : SendId) : Checked (InFlight F × Unicasts F W) := do
  let record ← Checked.unwrap (t.records.get id)
  let framePending := match record.pollAddress with
    | none => false
    | some address => t.records.entries.any
        (fun e => e.1 ≠ id && e.2.pendingFor = some address)
  Checked.ensure (record.stage = .queued) .debugAssert
  let frame ← Checked.unwrap record.frame
  let lent := { record with frame := none, stage := .transmitting false }
  return ({ id, frame, transmit := .unicast record.nextHop framePending },
    ⟨t.records.set id lent⟩)

/-- Remove a record and report its verdict. -/
def settle (t : Unicasts F W) (id : SendId) (result : Except E Unit)
    (failedHop : Option Nwk) (actions : Actions F W E) :
    Checked (Unicasts F W × Actions F W E) := do
  let record ← Checked.unwrap (t.records.get id)
  -- The handoff is repeated: its own action may not have reached the waiter yet
  let actions := if record.stage = .awaitingApsAck
    then actions ++ [.handedOff record.waiter] else actions
  let frame ← Checked.expect "a transmitting send is never settled from outside" record.frame
  return (⟨t.records.remove id⟩,
    actions ++ [.settled record.waiter result frame failedHop])

/-- The frame reached its next hop. -/
def handedOff (t : Unicasts F W) (id : SendId) (now : Instant) (acked : Bool)
    (actions : Actions F W E) : Checked (Unicasts F W × Actions F W E) := do
  let record ← Checked.unwrap (t.records.get id)
  let wait := match record.confirm with
    | .onHandoff => none
    | .apsAck _ wait => if acked then none else some wait
  match wait with
  | none => t.settle id (.ok ()) none actions
  | some wait =>
    let waiting :=
      { record with stage := .awaitingApsAck, deadline := Instant.add now wait }
    return (⟨t.records.set id waiting⟩, actions ++ [.handedOff record.waiter])

def transmitted (t : Unicasts F W) (id : SendId) (frame : F) (result : Except E Unit)
    (now : Instant) (retryDelay : Duration) :
    Checked (Unicasts F W × Actions F W E) := do
  let record ← Checked.expect "a transmitting send is never settled from outside"
    (t.records.get id)
  match record.stage with
  | .transmitting acked =>
    let record := { record with frame := some frame }
    let t : Unicasts F W := ⟨t.records.set id record⟩
    match result with
    | .ok () => t.handedOff id now acked []
    | .error err =>
      -- An ack that arrived while the radio reported a failure: the frame got through
      if acked then
        t.handedOff id now acked []
      else
        match record.pollAddress with
        | some _ =>
          if now < record.deadline then
            return (⟨t.records.set id { record with stage := .awaitingPoll }⟩, [])
          else
            t.settle id (.error err) none []
        | none =>
          if record.attemptsRemaining = 0 then
            t.settle id (.error err) (some record.nextHop) []
          else
            return (⟨t.records.set id
              { record with
                attemptsRemaining := record.attemptsRemaining - 1
                stage := .retrying (Instant.add now retryDelay) }⟩, [])
  | _ => .error (.unreachable "only a transmitting send is reported on")

/-- Whether an address is one of the two the polling device goes by. -/
def pollMatches (eui64 : Option Eui64) (nwk : Option Nwk) : Ieee802154Address → Bool
  | .eui64 e => eui64 = some e
  | .nwk n => nwk = some n

/-- A record that a poll at `now` of the device may extract. -/
def Record.pollable (eui64 : Option Eui64) (nwk : Option Nwk) (now : Instant)
    (record : Record F W) : Bool :=
  match record.pollAddress, record.stage with
  | some address, .awaitingPoll => pollMatches eui64 nwk address && now < record.deadline
  | _, _ => false

/-- The poll is answered ahead of everything else. -/
def Record.polled (record : Record F W) : Record F W :=
  { record with priority := .stackCritical, stage := .queued }

/-- A MAC Data Request: queue the oldest frame awaiting the device. -/
def poll (t : Unicasts F W) (eui64 : Option Eui64) (nwk : Option Nwk) (now : Instant) :
    Checked (Bool × Unicasts F W) :=
  match t.records.entries.find? (fun e => e.2.pollable eui64 nwk now) with
  | none => .ok (false, t)
  | some (id, _) => do
    let record ← Checked.unwrap (t.records.get id)
    return (true, ⟨t.records.set id record.polled⟩)

/-- A record whose verdict is the ack `ack`. -/
def Record.expects (ack : ApsAckData) (record : Record F W) : Bool :=
  match record.confirm with
  | .apsAck expected _ => expected = ack
  | .onHandoff => false

/-- An end-to-end APS ack arrived: it settles the oldest send waiting for it. -/
def ackReceived (t : Unicasts F W) (ack : ApsAckData) :
    Checked (Unicasts F W × Actions F W E) :=
  match t.records.entries.find? (fun e => e.2.expects ack) with
  | none => .ok (t, [])
  | some (id, _) => do
    let record ← Checked.unwrap (t.records.get id)
    if record.stage.isTransmitting then
      -- Faster than the radio's own report: `transmitted` settles it
      return (⟨t.records.set id { record with stage := .transmitting true }⟩, [])
    else
      t.settle id (.ok ()) none []

/-- Settle a list of sends in turn. -/
def settleAll (t : Unicasts F W) (verdicts : List (SendId × Except E Unit)) :
    Checked (Unicasts F W × Actions F W E) :=
  verdicts.foldlM (fun s v => s.1.settle v.1 v.2 none s.2) (t, [])

/-- The address of a frame that leaves with the device that awaits it. -/
def Record.dropped (eui64 : Option Eui64) (nwk : Nwk) (record : Record F W) :
    Option Ieee802154Address :=
  match record.pollAddress, record.stage with
  | some address, .awaitingPoll =>
    if address = .nwk nwk ∨ eui64.any (fun e => address = .eui64 e) then some address
    else none
  | _, _ => none

/-- Fail every frame awaiting a device's poll. -/
def dropIndirect [FromSendFailure E] (t : Unicasts F W) (eui64 : Option Eui64) (nwk : Nwk) :
    Checked (Unicasts F W × Actions F W E) :=
  t.settleAll <| t.records.entries.filterMap fun e =>
    (e.2.dropped eui64 nwk).map fun destination =>
      (e.1, .error (ofFailure (.indirectExpired destination)))

def hasAwaitingPoll (t : Unicasts F W) (address : Ieee802154Address) : Bool :=
  t.records.values.any (fun record => record.pendingFor = some address)

/-- Drop every record and return its waiter. -/
def abandon (t : Unicasts F W) : List W × Unicasts F W :=
  (t.records.values.map (·.waiter), empty)

/-- `none` if the send is in the radio right now, or unknown. -/
def cancel [FromSendFailure E] (t : Unicasts F W) (id : SendId) :
    Checked (Option (Unicasts F W × Actions F W E)) :=
  match t.records.get id with
  | none => .ok none
  | some record =>
    if record.stage.isTransmitting then .ok none
    else some <$> t.settle id (.error (ofFailure .cancelled)) none []

def isTransmitting (t : Unicasts F W) (id : SendId) : Checked Bool := do
  let record ← Checked.unwrap (t.records.get id)
  return record.stage.isTransmitting

/-- The live copies of a broadcast to its sleepy children. -/
def copiesOf (t : Unicasts F W) (broadcast : SendId) : List SendId :=
  (t.records.entries.filter (fun e => e.2.copyOf = some broadcast)).map Prod.fst

/-- Re-queue retries that are due and fail records past their deadline. -/
def tick [FromSendFailure E] (t : Unicasts F W) (now : Instant) :
    Checked (Unicasts F W × Actions F W E) :=
  let t : Unicasts F W := ⟨t.records.mapVal (fun _ record => record.requeue now)⟩
  t.settleAll <| t.records.entries.filterMap fun e =>
    (e.2.lapse now).map fun failure => (e.1, .error (ofFailure failure))

def nextWake (t : Unicasts F W) : Option Instant :=
  (t.records.values.filterMap Record.nextWake).min?

end Unicasts

end Ziggurat
