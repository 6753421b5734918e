import Ziggurat.Sends.Broadcasts
import Ziggurat.Sends.Unicasts
import Ziggurat.Sends.Unrouted

/-!
# The three send tables behind one id space

The model of `impl Sends` in `sends/mod.rs`: admission hands out the ids, the
sender dequeues the best ready frame across the tables, and a report, a cancel
or a timer pass is routed to the table that holds the id.

`route_unicasts` takes a closure that may rewrite the frame and keep state of
its own between calls.  `resolve k frame` is its answer to the `k`-th call of
one `route_unicasts`: the frame it leaves, and the next hop or the error.
-/

namespace Ziggurat

/-- The three tables. -/
structure Sends (F W E : Type) where
  nextId : SendId
  unicasts : Unicasts F W
  unroutedUnicasts : UnroutedUnicasts F W
  broadcasts : Broadcasts F W E

/-- The answers of the closure of one `route_unicasts`, call by call. -/
abbrev Resolve (F E : Type) :=
  Nat → F → F × Except E (Nwk × Option Ieee802154Address)

/-- The candidate of a table is one of the records that it was picked from. -/
theorem FlatMap.get_of_maxByKey {K V κ β : Type} [LinearOrder K] [LinearOrder κ]
    {m : FlatMap K V} {key : K × V → κ} {p : K × V → Bool} {f : K × V → β} {best : β}
    (h : (maxByKey key (m.entries.filter p)).map f = some best) :
    ∃ e, m.get e.1 = some e.2 ∧ p e = true ∧ f e = best := by
  obtain ⟨e, hmax, heq⟩ := Option.map_eq_some_iff.mp h
  obtain ⟨hmem, hready⟩ := List.mem_filter.mp (maxByKey_mem hmax)
  exact ⟨e, FlatMap.mem_entries.mp hmem, hready, heq⟩

namespace Sends

variable {F W E : Type}

/-- `Sends::default`. -/
def empty : Sends F W E := ⟨0, .empty, .empty, .empty⟩

/-- `Sends::next_id`: the counter is a `u32`. -/
def allocate (s : Sends F W E) : Checked (SendId × Sends F W E) := do
  Checked.ensure (s.nextId + 1 < 2 ^ 32) .overflow
  return (s.nextId, { s with nextId := s.nextId + 1 })

theorem allocate_eq_ok {s : Sends F W E} (h : s.nextId + 1 < 2 ^ 32) :
    s.allocate = .ok (s.nextId, { s with nextId := s.nextId + 1 }) := by
  rw [allocate, Checked.ensure_of _ h]
  rfl

def enqueueUnicast (s : Sends F W E) (unicast : Unicast F W) (now : Instant)
    (tunables : Tunables) : Checked (SendId × Actions F W E × Sends F W E) := do
  let (id, s) ← s.allocate
  return (id, [], { s with unicasts := s.unicasts.enqueue id unicast now none none tunables })

/-- A broadcast's copy for one sleepy child. -/
def enqueueBroadcastCopy (s : Sends F W E) (broadcast : SendId) (unicast : Unicast F W)
    (now : Instant) (tunables : Tunables) :
    Checked (SendId × Actions F W E × Sends F W E) := do
  let (id, s) ← s.allocate
  return (id, [], { s with
    unicasts := s.unicasts.enqueue id unicast now none (some broadcast) tunables })

def enqueueUnroutedUnicast (s : Sends F W E) (send : UnroutedUnicast F W) (now : Instant)
    (tunables : Tunables) : Checked (SendId × Actions F W E × Sends F W E) := do
  let (id, s) ← s.allocate
  return (id, [], { s with
    unroutedUnicasts := s.unroutedUnicasts.enqueue id send now tunables })

def enqueueBroadcast (s : Sends F W E) (broadcast : Broadcast F W) (now : Instant)
    (tunables : Tunables) : Checked (SendId × Actions F W E × Sends F W E) := do
  let (id, s) ← s.allocate
  return (id, [], { s with broadcasts := s.broadcasts.enqueue id broadcast now tunables })

/-- The id that `dequeue` lends, and whether it comes from the unicasts. -/
def nextQueued (s : Sends F W E) (now : Instant) : Option (SendId × TxPriority × Bool) :=
  let unicast := (s.unicasts.bestQueued now).map
    (fun (id, priority) => (id, priority, true))
  let broadcast := (s.broadcasts.bestQueued now).map
    (fun (id, priority) => (id, priority, false))
  maxByKey (fun c => schedulingKey c.1 c.2.1) (unicast.toList ++ broadcast.toList)

/-- Lend the highest-priority queued frame, oldest first within a priority. -/
def dequeue (s : Sends F W E) (now : Instant) :
    Checked (Option (InFlight F) × Sends F W E) :=
  match s.nextQueued now with
  | none => .ok (none, s)
  | some (id, _, true) => do
    let (inFlight, unicasts) ← s.unicasts.dequeue id
    return (some inFlight, { s with unicasts })
  | some (id, _, false) => do
    let (inFlight, broadcasts) ← s.broadcasts.dequeue id
    return (some inFlight, { s with broadcasts })

/-- The sender's report for a lent frame, which comes back with it. -/
def transmitted (s : Sends F W E) (inFlight : InFlight F) (result : Except E Unit)
    (now : Instant) (retryDelay passiveAckInterval : Duration) :
    Checked (Sends F W E × Actions F W E) :=
  match inFlight.transmit with
  | .unicast _ _ => do
    let (unicasts, actions) ←
      s.unicasts.transmitted inFlight.id inFlight.frame result now retryDelay
    return ({ s with unicasts }, actions)
  | .broadcast => do
    let (broadcasts, actions) ←
      s.broadcasts.transmitted inFlight.id inFlight.frame result now passiveAckInterval
    return ({ s with broadcasts }, actions)

def poll (s : Sends F W E) (eui64 : Option Eui64) (nwk : Option Nwk) (now : Instant) :
    Checked (Bool × Actions F W E × Sends F W E) := do
  let (queued, unicasts) ← s.unicasts.poll eui64 nwk now
  return (queued, [], { s with unicasts })

def hasUnicastAwaitingPoll (s : Sends F W E) (address : Ieee802154Address) : Bool :=
  s.unicasts.hasAwaitingPoll address

def apsAckReceived (s : Sends F W E) (ack : ApsAckData) :
    Checked (Sends F W E × Actions F W E) := do
  let (unicasts, actions) ← s.unicasts.ackReceived ack
  return ({ s with unicasts }, actions)

def unroutedDestinations (s : Sends F W E) : List Nwk :=
  s.unroutedUnicasts.destinations

def hasUnrouted (s : Sends F W E) (destination : Nwk) : Bool :=
  s.unroutedUnicasts.hasUnrouted destination

def retryDiscovery (s : Sends F W E) (destination : Nwk) : Checked (Bool × Sends F W E) := do
  let (retried, unroutedUnicasts) ← s.unroutedUnicasts.retryDiscovery destination
  return (retried, { s with unroutedUnicasts })

def failUnrouted [FromSendFailure E] (s : Sends F W E) (destination : Nwk) :
    Checked (Sends F W E × Actions F W E) := do
  let (unroutedUnicasts, actions) ← s.unroutedUnicasts.fail destination
  return ({ s with unroutedUnicasts }, actions)

/-- The unicast that an unrouted send becomes. -/
def routed (unrouted : UnroutedUnicasts.Record F W) (frame : F) (nextHop : Nwk)
    (pollAddress : Option Ieee802154Address) : Unicast F W :=
  { frame
    priority := unrouted.priority
    waiter := unrouted.waiter
    confirm := unrouted.confirm
    nextHop
    pollAddress }

/-- The loop of `route_unicasts` from its `k`-th send on. -/
def routeAll (now : Instant) (tunables : Tunables) (resolve : Resolve F E) :
    Nat → List (SendId × UnroutedUnicasts.Record F W) → Unicasts F W × Actions F W E →
      Unicasts F W × Actions F W E
  | _, [], acc => acc
  | k, (id, unrouted) :: rest, (unicasts, actions) =>
    let (frame, resolved) := resolve k unrouted.frame
    routeAll now tunables resolve (k + 1) rest <|
      match resolved with
      | .ok (nextHop, pollAddress) =>
        (unicasts.enqueue id (routed unrouted frame nextHop pollAddress) now
          (some unrouted.deadline) none tunables, actions)
      | .error err =>
        (unicasts, actions ++ [.settled unrouted.waiter (.error err) frame none])

/-- A route to `destination` is known: move every unrouted send to it to the
unicasts, keeping the deadline it was admitted with. -/
def routeUnicasts [FromSendFailure E] (s : Sends F W E) (destination : Nwk) (now : Instant)
    (tunables : Tunables) (resolve : Resolve F E) :
    Checked (Sends F W E × Actions F W E) := do
  -- The sends past their deadline fail first, so routing never revives one
  let (unroutedUnicasts, actions) ← s.unroutedUnicasts.tick now
  let (taken, unroutedUnicasts) ← unroutedUnicasts.route destination
  let (unicasts, actions) := routeAll now tunables resolve 0 taken (s.unicasts, actions)
  return ({ s with unicasts, unroutedUnicasts }, actions)

def broadcastDelivered (s : Sends F W E) (key : Nwk × UInt8) :
    Checked (Sends F W E × Actions F W E) := do
  let (broadcasts, actions) ← s.broadcasts.delivered key
  return ({ s with broadcasts }, actions)

def dropIndirectUnicasts [FromSendFailure E] (s : Sends F W E) (eui64 : Option Eui64)
    (nwk : Nwk) : Checked (Sends F W E × Actions F W E) := do
  let (unicasts, actions) ← s.unicasts.dropIndirect eui64 nwk
  return ({ s with unicasts }, actions)

/-- Empty every table and return the waiter of each send that was still live. -/
def abandon (s : Sends F W E) : List W × Sends F W E :=
  let (waiters, unicasts) := s.unicasts.abandon
  let (waiters', unroutedUnicasts) := s.unroutedUnicasts.abandon
  let (waiters'', broadcasts) := s.broadcasts.abandon
  (waiters ++ waiters' ++ waiters'', { s with unicasts, unroutedUnicasts, broadcasts })

/-- Cancel copies that are not in the radio, one by one. -/
def cancelCopies [FromSendFailure E] (unicasts : Unicasts F W) (copies : List SendId)
    (actions : Actions F W E) : Checked (Unicasts F W × Actions F W E) :=
  copies.foldlM (fun s copy => do
    let (unicasts, cancelled) ← Checked.unwrap (← s.1.cancel copy)
    return (unicasts, s.2 ++ cancelled)) (unicasts, actions)

/-- Whether any of the copies is in the radio, in the order `any` asks them. -/
def anyTransmitting (unicasts : Unicasts F W) : List SendId → Checked Bool
  | [] => .ok false
  | copy :: copies => do
    if ← unicasts.isTransmitting copy then return true
    else anyTransmitting unicasts copies

/-- Cancel a broadcast with its sleepy child copies, or nothing if any is in the
radio. -/
def cancelBroadcast [FromSendFailure E] (s : Sends F W E) (id : SendId) :
    Checked (Option (Sends F W E × Actions F W E)) := do
  let copies := s.unicasts.copiesOf id
  if ← anyTransmitting s.unicasts copies then
    return none
  else
    match ← s.broadcasts.cancel id with
    | none => return none
    | some (broadcasts, actions) =>
      let (unicasts, actions) ← cancelCopies s.unicasts copies actions
      return some ({ s with unicasts, broadcasts }, actions)

/-- Cancel a send.  `none` if it is unknown, already over, or in the radio. -/
def cancel [FromSendFailure E] (s : Sends F W E) (id : SendId) :
    Checked (Option (Sends F W E × Actions F W E)) :=
  if s.unicasts.contains id then do
    match ← s.unicasts.cancel id with
    | none => return none
    | some (unicasts, actions) => return some ({ s with unicasts }, actions)
  else if s.unroutedUnicasts.contains id then do
    let (unroutedUnicasts, actions) ← s.unroutedUnicasts.cancel id
    return some ({ s with unroutedUnicasts }, actions)
  else
    s.cancelBroadcast id

/-- The timer pass. -/
def tick [FromSendFailure E] (s : Sends F W E) (now : Instant) :
    Checked (Sends F W E × Actions F W E) := do
  let (unicasts, actions) ← s.unicasts.tick now
  let (unroutedUnicasts, actions') ← s.unroutedUnicasts.tick now
  let (broadcasts, actions'') ← s.broadcasts.tick now
  return ({ s with unicasts, unroutedUnicasts, broadcasts }, actions ++ actions' ++ actions'')

/-- When the timer must next run. -/
def nextWake (s : Sends F W E) : Option Instant :=
  (s.unicasts.nextWake.toList ++ s.unroutedUnicasts.nextWake.toList ++
    s.broadcasts.nextWake.toList).min?

end Sends

end Ziggurat
