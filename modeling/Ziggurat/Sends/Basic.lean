import Mathlib.Data.Prod.Lex
import Mathlib.Order.Basic
import Ziggurat.Types

/-!
# What the three send tables share

`sends/mod.rs` keeps every outgoing frame in one of three tables, from its
admission to its verdict.  This module has the vocabulary of the tables: ids,
priorities, what confirms a send, the failures a table decides on its own, the
token for a frame on loan to the radio, and the actions a mutation returns.

The tables are generic over the frame type `F`, the waiter type `W` and the
driver's error type `E`, which they only ever build from a `SendFailure`
(`FromSendFailure` is that conversion).
-/

namespace Ziggurat

/-- Identifies a send for its whole life; allocated in admission order. -/
abbrev SendId := Nat

/-- Transmit priority.  A higher one transmits first. -/
inductive TxPriority where
  | background
  | userLow
  | userNormal
  | userHigh
  | userCritical
  | stackCritical
  deriving DecidableEq, Repr

namespace TxPriority

/-- The place of a priority in the derived order. -/
def rank : TxPriority → Nat
  | background => 0
  | userLow => 1
  | userNormal => 2
  | userHigh => 3
  | userCritical => 4
  | stackCritical => 5

end TxPriority

/-- The key `(priority, Reverse(id))` that the next frame to send maximizes. -/
def schedulingKey (id : SendId) (priority : TxPriority) : Lex (Nat × Natᵒᵈ) :=
  toLex (priority.rank, OrderDual.toDual id)

/-- What an end-to-end APS ack is matched on. -/
structure ApsAckData where
  src : Nwk
  destinationEndpoint : Option UInt8
  clusterId : Option UInt16
  profileId : Option UInt16
  sourceEndpoint : Option UInt8
  counter : UInt8
  deriving DecidableEq, Repr

/-- A failure that a table decides on its own. -/
inductive SendFailure where
  | handoffTimeout
  | apsAckTimeout
  | indirectExpired (destination : Ieee802154Address)
  | routeDiscoveryTimeout
  | broadcastQuorumNotReached
  | cancelled
  deriving DecidableEq, Repr

/-- The bound `E: From<SendFailure>`. -/
class FromSendFailure (E : Type) where
  ofFailure : SendFailure → E

export FromSendFailure (ofFailure)

/-- The reflexive `From`. -/
instance : FromSendFailure SendFailure := ⟨id⟩

/-- What settles a unicast. -/
inductive Confirm where
  /-- The next hop's acceptance is the whole verdict. -/
  | onHandoff
  /-- The end-to-end ack matching `ack`, waited for `wait` after handoff. -/
  | apsAck (ack : ApsAckData) (wait : Duration)
  deriving DecidableEq, Repr

/-- How the sender transmits a dequeued frame. -/
inductive Transmit where
  | unicast (nextHop : Nwk) (framePending : Bool)
  | broadcast
  deriving DecidableEq, Repr

/-- A send on loan to the radio. -/
structure InFlight (F : Type) where
  id : SendId
  frame : F
  transmit : Transmit

/-- What the driver must do after a mutation. -/
inductive Action (F W E : Type) where
  /-- The mesh accepted the send's frame. -/
  | handedOff (waiter : W)
  /-- The send is over, and its frame is handed back. -/
  | settled (waiter : W) (result : Except E Unit) (frame : F) (failedHop : Option Nwk)
deriving DecidableEq

/-- Everything a waiter is told names it. -/
def Action.waiter {F W E : Type} : Action F W E → W
  | .handedOff waiter => waiter
  | .settled waiter _ _ _ => waiter

/-- The action is a verdict. -/
def Action.isSettled {F W E : Type} : Action F W E → Bool
  | .handedOff _ => false
  | .settled .. => true

/-- The actions of one mutation, in order. -/
abbrev Actions (F W E : Type) := List (Action F W E)

end Ziggurat
