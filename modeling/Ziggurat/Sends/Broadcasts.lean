import Ziggurat.FlatMap
import Ziggurat.Rust
import Ziggurat.Sends.Basic

/-!
# The table of broadcasts

The model of `sends/broadcasts.rs`.  A broadcast is sent once, or rebroadcast on
a schedule until its passive-ack quorum is heard or its copies run out.  The
record's frame is the only copy: at most one is ever outstanding.

`tick` walks the records once, mutating the schedule of each idle one whose next
copy is due, and collects the verdicts to settle after the walk.  The body of the
walk is `Record.advance` for the mutation and `Record.verdict` for the verdict.
-/

namespace Ziggurat

/-- How a broadcast is retransmitted and when it is done. -/
inductive Schedule where
  /-- One copy; its transmit result is the verdict. -/
  | once
  /-- Rebroadcast until the quorum for `key` is heard or the copies run out. -/
  | passiveAck (key : Nwk × UInt8) (copiesRemaining : Nat) (nextAttempt : Instant)
  /-- `copiesRemaining` copies at `interval`. -/
  | fixedInterval (interval : Duration) (copiesRemaining : Nat) (nextAttempt : Instant)
  deriving DecidableEq, Repr

/-- What a broadcast is enqueued with. -/
structure Broadcast (F W : Type) where
  frame : F
  priority : TxPriority
  waiter : W
  schedule : Schedule

namespace Broadcasts

/-- What a tick finds a schedule's next copy to be. -/
inductive Due where
  | copy
  | over
  deriving DecidableEq, Repr

/-- Where the copy of a broadcast is. -/
inductive CopyState where
  | idle
  | queued
  | transmitting
  deriving DecidableEq, Repr

/-- A broadcast in the table. -/
structure Record (F W E : Type) where
  frame : Option F
  priority : TxPriority
  waiter : W
  schedule : Schedule
  copy : CopyState
  handedOff : Bool
  /-- The quorum was heard before a copy was handed off. -/
  quorumHeard : Bool
  /-- The last copy's radio failure. -/
  lastError : Option E
  deadline : Instant

namespace Record

variable {F W E : Type}

def nextAttempt (record : Record F W E) : Option Instant :=
  match record.schedule with
  | .once => none
  | .passiveAck _ _ nextAttempt => some nextAttempt
  | .fixedInterval _ _ nextAttempt => some nextAttempt

/-- When the timer must look at this send. -/
def nextWake (record : Record F W E) : Option Instant :=
  match record.copy with
  | .transmitting => none
  | .queued => some record.deadline
  | .idle => some (min (record.nextAttempt.getD record.deadline) record.deadline)

end Record

end Broadcasts

/-- The table of broadcasts. -/
structure Broadcasts (F W E : Type) where
  records : FlatMap SendId (Broadcasts.Record F W E)

namespace Broadcasts

variable {F W E : Type}

/-- `Broadcasts::default`. -/
def empty : Broadcasts F W E := ⟨.new⟩

/-- The record a broadcast enters the table as. -/
def newRecord (broadcast : Broadcast F W) (now : Instant) (tunables : Tunables) :
    Record F W E :=
  { frame := some broadcast.frame
    priority := broadcast.priority
    waiter := broadcast.waiter
    schedule := broadcast.schedule
    copy := match broadcast.schedule with
      | .once => .queued
      | .passiveAck .. | .fixedInterval .. => .idle
    handedOff := false
    quorumHeard := false
    lastError := none
    deadline := Instant.add now tunables.handoffTimeout }

def enqueue (t : Broadcasts F W E) (id : SendId) (broadcast : Broadcast F W)
    (now : Instant) (tunables : Tunables) : Broadcasts F W E :=
  ⟨t.records.insert id (newRecord broadcast now tunables)⟩

/-- A record `best_queued` may pick. -/
def Record.ready (now : Instant) (record : Record F W E) : Bool :=
  record.copy = .queued ∧ now < record.deadline

/-- The highest-priority queued copy, oldest first within a priority. -/
def bestQueued (t : Broadcasts F W E) (now : Instant) : Option (SendId × TxPriority) :=
  (maxByKey (fun e => schedulingKey e.1 e.2.priority)
    (t.records.entries.filter (fun e => e.2.ready now))).map
    (fun e => (e.1, e.2.priority))

def dequeue (t : Broadcasts F W E) (id : SendId) :
    Checked (InFlight F × Broadcasts F W E) := do
  let record ← Checked.unwrap (t.records.get id)
  Checked.ensure (record.copy = .queued) .debugAssert
  let frame ← Checked.unwrap record.frame
  let lent := { record with frame := none, copy := .transmitting }
  return ({ id, frame, transmit := .broadcast }, ⟨t.records.set id lent⟩)

/-- Remove a record and report its verdict. -/
def settle (t : Broadcasts F W E) (id : SendId) (result : Except E Unit)
    (actions : Actions F W E) : Checked (Broadcasts F W E × Actions F W E) := do
  let record ← Checked.unwrap (t.records.get id)
  -- The handoff is repeated: its own action may not have reached the waiter yet
  let actions := if record.handedOff
    then actions ++ [.handedOff record.waiter] else actions
  let frame ← Checked.expect "a transmitting send is never settled from outside" record.frame
  return (⟨t.records.remove id⟩, actions ++ [.settled record.waiter result frame none])

/-- A schedule after a copy's transmit completed at `now`. -/
def rearm (schedule : Schedule) (now : Instant) (passiveAckInterval : Duration) : Schedule :=
  match schedule with
  | .once => .once
  | .passiveAck key copies _ => .passiveAck key copies (Instant.add now passiveAckInterval)
  | .fixedInterval interval copies _ =>
    .fixedInterval interval copies (Instant.add now interval)

def transmitted (t : Broadcasts F W E) (id : SendId) (frame : F) (result : Except E Unit)
    (now : Instant) (passiveAckInterval : Duration) :
    Checked (Broadcasts F W E × Actions F W E) := do
  let record ← Checked.expect "a transmitting send is never settled from outside"
    (t.records.get id)
  Checked.ensure (record.copy = .transmitting) .debugAssert
  let record := { record with copy := .idle, frame := some frame }
  match record.schedule with
  | .once => settle ⟨t.records.set id record⟩ id result []
  | .passiveAck .. | .fixedInterval .. =>
    let record := { record with schedule := rearm record.schedule now passiveAckInterval }
    -- A lost copy is not terminal; the first copy on air is the handoff
    let firstHandoff := result.isOk && !record.handedOff
    let record := match result with
      | .ok () => { record with handedOff := true }
      | .error err => { record with lastError := some err }
    let t : Broadcasts F W E := ⟨t.records.set id record⟩
    if record.quorumHeard && record.handedOff then
      t.settle id (.ok ()) []
    else if firstHandoff then
      return (t, [.handedOff record.waiter])
    else
      return (t, [])

/-- A passive-ack broadcast under `key`. -/
def Record.awaits (key : Nwk × UInt8) (record : Record F W E) : Bool :=
  match record.schedule with
  | .passiveAck k _ _ => k = key
  | _ => false

/-- The passive-ack quorum for a broadcast was heard. -/
def delivered (t : Broadcasts F W E) (key : Nwk × UInt8) :
    Checked (Broadcasts F W E × Actions F W E) :=
  match t.records.entries.find? (fun e => e.2.awaits key) with
  | none => .ok (t, [])
  | some (id, _) => do
    let record ← Checked.unwrap (t.records.get id)
    if record.copy = .transmitting ∨ ¬ record.handedOff then
      return (⟨t.records.set id { record with quorumHeard := true }⟩, [])
    else
      t.settle id (.ok ()) []

/-- Drop every record and return its waiter. -/
def abandon (t : Broadcasts F W E) : List W × Broadcasts F W E :=
  (t.records.values.map (·.waiter), empty)

/-- `none` if a copy is in the radio right now, or the send is unknown. -/
def cancel [FromSendFailure E] (t : Broadcasts F W E) (id : SendId) :
    Checked (Option (Broadcasts F W E × Actions F W E)) :=
  match t.records.get id with
  | none => .ok none
  | some record =>
    if record.copy = .transmitting then .ok none
    else some <$> t.settle id (.error (ofFailure .cancelled)) []

/-- The verdict of a handed-off broadcast whose schedule ended before a quorum. -/
def handedOffVerdict [FromSendFailure E] (schedule : Schedule) : Checked (Except E Unit) :=
  match schedule with
  | .passiveAck .. => .ok (.error (ofFailure .broadcastQuorumNotReached))
  | .fixedInterval .. => .ok (.ok ())
  | .once => .error (.unreachable "a single copy settles on its own report")

/-- Consume a schedule's next copy if it is due. -/
def scheduleDue (schedule : Schedule) (now : Instant) : Option Due × Schedule :=
  match schedule with
  | .once => (none, schedule)
  | .passiveAck key copies nextAttempt =>
    if nextAttempt > now then (none, schedule)
    else if copies = 0 then (some .over, schedule)
    else (some .copy, .passiveAck key (copies - 1) nextAttempt)
  | .fixedInterval interval copies nextAttempt =>
    if nextAttempt > now then (none, schedule)
    else if copies = 0 then (some .over, schedule)
    else (some .copy, .fixedInterval interval (copies - 1) nextAttempt)

/-- The first half of the loop body of `tick`: an idle record whose next copy is
due consumes it, and what the schedule answered. -/
def Record.advance (now : Instant) (record : Record F W E) :
    Record F W E × Option Due :=
  match record.copy with
  | .idle =>
    let (due, schedule) := scheduleDue record.schedule now
    ({ record with
        schedule
        copy := if due = some .copy then .queued else .idle }, due)
  | _ => (record, none)

/-- The verdict of a record past its deadline. -/
def Record.lapse [FromSendFailure E] (now : Instant) (record : Record F W E) :
    Checked (Option (Except E Unit)) :=
  if record.deadline ≤ now then
    if record.handedOff then some <$> handedOffVerdict record.schedule
    else .ok (some (.error (ofFailure .handoffTimeout)))
  else .ok none

/-- The second half of the loop body of `tick`: the verdict an advanced record
is settled with after the walk.  A schedule that ran out takes the last error
out of a record that the settling drops. -/
def Record.verdict [FromSendFailure E] (now : Instant) (record : Record F W E)
    (due : Option Due) : Checked (Option (Except E Unit)) :=
  if record.copy = .transmitting then .ok none
  else if due = some .over then
    if record.handedOff then some <$> handedOffVerdict record.schedule
    else do
      let err ← Checked.unwrap record.lastError
      return some (.error err)
  else record.lapse now

/-- The verdicts that the walk of `tick` collects. -/
def tickVerdicts [FromSendFailure E] (now : Instant) :
    List (SendId × Record F W E) → Checked (List (SendId × Except E Unit))
  | [] => .ok []
  | (id, record) :: rest => do
    let (record, due) := record.advance now
    let verdict ← record.verdict now due
    let verdicts ← tickVerdicts now rest
    return match verdict with
      | some result => (id, result) :: verdicts
      | none => verdicts

/-- Settle a list of sends in turn. -/
def settleAll (t : Broadcasts F W E) (verdicts : List (SendId × Except E Unit)) :
    Checked (Broadcasts F W E × Actions F W E) :=
  verdicts.foldlM (fun s v => s.1.settle v.1 v.2 s.2) (t, [])

/-- Queue copies that are due, complete or fail schedules that ran out, and fail
records past their deadline. -/
def tick [FromSendFailure E] (t : Broadcasts F W E) (now : Instant) :
    Checked (Broadcasts F W E × Actions F W E) := do
  let verdicts ← tickVerdicts now t.records.entries
  let t : Broadcasts F W E := ⟨t.records.mapVal (fun _ record => (record.advance now).1)⟩
  t.settleAll verdicts

def nextWake (t : Broadcasts F W E) : Option Instant :=
  (t.records.values.filterMap Record.nextWake).min?

end Broadcasts

end Ziggurat
