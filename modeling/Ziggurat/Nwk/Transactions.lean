import Ziggurat.FlatMap
import Ziggurat.Types

/-!
# The broadcast transaction table

`nwk/broadcasts.rs`: the broadcasts of the last delivery window, so that a copy of one is
told from a fresh broadcast, and the neighbors that were heard relaying each.
-/

namespace Ziggurat

structure Transaction where
  expirationTime : Instant
  /-- The routers that were neighbors when the transaction began. -/
  expectedRelayers : List Nwk
  heardFrom : FlatMap Nwk Unit

/-- `nwk::broadcasts::Broadcasts`. -/
structure NwkBroadcasts where
  table : FlatMap SourceNumber Transaction := .new

namespace NwkBroadcasts

/-- Whether a received broadcast is a copy of a known one.  A copy acknowledges the
broadcast for its sender, and a fresh broadcast begins a transaction. -/
def filterReceived (broadcasts : NwkBroadcasts) (source : Nwk) (sequenceNumber : UInt8)
    (sender : Nwk) (audience : List Nwk) (now : Instant) (deliveryTime : Duration) :
    Bool × NwkBroadcasts :=
  let table := broadcasts.table.retain fun _ transaction => now < transaction.expirationTime
  let key := SourceNumber.mk source sequenceNumber
  match table.get key with
  | some transaction =>
    (true, ⟨table.set key
      { transaction with heardFrom := transaction.heardFrom.insert sender () }⟩)
  | none =>
    (false, ⟨table.insert key
      { expirationTime := now.add deliveryTime
        expectedRelayers := audience
        heardFrom := FlatMap.new.insert sender () }⟩)

/-- A broadcast that we originate, so that its relayed copies are known. -/
def recordTransmission (broadcasts : NwkBroadcasts) (source : Nwk) (sequenceNumber : UInt8)
    (audience : List Nwk) (now : Instant) (deliveryTime : Duration) : NwkBroadcasts :=
  ⟨broadcasts.table.insert (SourceNumber.mk source sequenceNumber)
    { expirationTime := now.add deliveryTime
      expectedRelayers := audience
      heardFrom := .new }⟩

/-- Whether the audience members that are still live were heard, or enough of them. -/
def passivelyAcked (broadcasts : NwkBroadcasts) (source : Nwk) (sequenceNumber : UInt8)
    (liveRelayers : List Nwk) (quorum : Nat) : Bool :=
  match broadcasts.table.get (SourceNumber.mk source sequenceNumber) with
  | none => true
  | some transaction =>
    let audience := transaction.expectedRelayers.filter (liveRelayers.contains ·)
    let heard := audience.filter transaction.heardFrom.containsKey
    min audience.length quorum ≤ heard.length

end NwkBroadcasts

end Ziggurat
