import Ziggurat.FlatMap
import Ziggurat.Rust
import Ziggurat.Sends.Basic

/-!
# The table of unicasts with no route yet

The model of `sends/unrouted.rs`.  A send is held until the route discovery of
its destination ends.  `retries` counts the restarts each destination's
discovery has left.
-/

namespace Ziggurat

/-- What an unrouted unicast is enqueued with. -/
structure UnroutedUnicast (F W : Type) where
  frame : F
  priority : TxPriority
  waiter : W
  confirm : Confirm
  destination : Nwk

namespace UnroutedUnicasts

/-- A held send: what it carries to the unicasts once its route is known. -/
structure Record (F W : Type) where
  frame : F
  priority : TxPriority
  waiter : W
  confirm : Confirm
  destination : Nwk
  deadline : Instant

end UnroutedUnicasts

/-- The table of unrouted unicasts. -/
structure UnroutedUnicasts (F W : Type) where
  records : FlatMap SendId (UnroutedUnicasts.Record F W)
  retries : FlatMap Nwk Nat

namespace UnroutedUnicasts

variable {F W E : Type}

/-- `UnroutedUnicasts::default`. -/
def empty : UnroutedUnicasts F W := ⟨.new, .new⟩

def contains (t : UnroutedUnicasts F W) (id : SendId) : Bool :=
  t.records.containsKey id

def hasUnrouted (t : UnroutedUnicasts F W) (destination : Nwk) : Bool :=
  t.retries.containsKey destination

/-- The record a send is held as. -/
def newRecord (send : UnroutedUnicast F W) (now : Instant) (tunables : Tunables) :
    Record F W :=
  { frame := send.frame
    priority := send.priority
    waiter := send.waiter
    confirm := send.confirm
    destination := send.destination
    deadline := Instant.add now tunables.handoffTimeout }

/-- Hold a send.  The first one to a destination fixes how often its discovery
may be restarted. -/
def enqueue (t : UnroutedUnicasts F W) (id : SendId) (send : UnroutedUnicast F W)
    (now : Instant) (tunables : Tunables) : UnroutedUnicasts F W :=
  { records := t.records.insert id (newRecord send now tunables)
    retries := if t.retries.containsKey send.destination then t.retries
      -- The tunable counts discoveries; the first one is not a restart
      else t.retries.insert send.destination (tunables.pendingRouteDiscoveryAttempts - 1) }

def destinations (t : UnroutedUnicasts F W) : List Nwk :=
  t.retries.keys

/-- Remove a list of records and return them with their ids. -/
def removeAll (records : FlatMap SendId (Record F W)) (ids : List SendId) :
    Checked (FlatMap SendId (Record F W) × List (SendId × Record F W)) :=
  ids.foldlM (fun s id => do
    let send ← Checked.unwrap (s.1.get id)
    return (s.1.remove id, s.2 ++ [(id, send)])) (records, [])

def take (t : UnroutedUnicasts F W) (destination : Nwk) :
    Checked (List (SendId × Record F W) × UnroutedUnicasts F W) := do
  let ids := (t.records.entries.filter (fun e => e.2.destination = destination)).map Prod.fst
  let (records, taken) ← removeAll t.records ids
  return (taken, { t with records })

/-- Take every send to `destination`: its route is known. -/
def route (t : UnroutedUnicasts F W) (destination : Nwk) :
    Checked (List (SendId × Record F W) × UnroutedUnicasts F W) :=
  take { t with retries := t.retries.remove destination } destination

def settled [FromSendFailure E] (send : Record F W) (failure : SendFailure) : Action F W E :=
  .settled send.waiter (.error (ofFailure failure)) send.frame none

/-- Consume a restart of `destination`'s discovery, if one is left and a send
still waits on it. -/
def retryDiscovery (t : UnroutedUnicasts F W) (destination : Nwk) :
    Checked (Bool × UnroutedUnicasts F W) := do
  let waiting := t.records.values.any (fun send => send.destination = destination)
  let retries ← Checked.unwrap (t.retries.get destination)
  if retries = 0 ∨ ¬ waiting then
    return (false, t)
  else
    return (true, { t with retries := t.retries.set destination (retries - 1) })

/-- Fail every send to `destination`: its discovery is over without a route. -/
def fail [FromSendFailure E] (t : UnroutedUnicasts F W) (destination : Nwk) :
    Checked (UnroutedUnicasts F W × Actions F W E) := do
  let (taken, t) ← take { t with retries := t.retries.remove destination } destination
  return (t, taken.map (fun (_, send) => settled send .routeDiscoveryTimeout))

/-- Drop every record and return its waiter. -/
def abandon (t : UnroutedUnicasts F W) : List W × UnroutedUnicasts F W :=
  (t.records.values.map (·.waiter), empty)

/-- The destination stays awaited after a cancel. -/
def cancel [FromSendFailure E] (t : UnroutedUnicasts F W) (id : SendId) :
    Checked (UnroutedUnicasts F W × Actions F W E) := do
  let send ← Checked.unwrap (t.records.get id)
  return ({ t with records := t.records.remove id }, [settled send .cancelled])

/-- Fail sends past their deadline. -/
def tick [FromSendFailure E] (t : UnroutedUnicasts F W) (now : Instant) :
    Checked (UnroutedUnicasts F W × Actions F W E) := do
  let lapsed := (t.records.entries.filter (fun e => e.2.deadline ≤ now)).map Prod.fst
  let (records, taken) ← removeAll t.records lapsed
  return ({ t with records }, taken.map (fun (_, send) => settled send .handoffTimeout))

def nextWake (t : UnroutedUnicasts F W) : Option Instant :=
  (t.records.values.map (·.deadline)).min?

end UnroutedUnicasts

end Ziggurat
