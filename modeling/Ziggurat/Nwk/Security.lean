import Ziggurat.FlatMap
import Ziggurat.Ieee802154.Types

/-!
# NWK security material

`nwk/security.rs`: the network key, the outgoing frame counter, and the incoming frame
counter of each device that relays to this one.

An incoming frame is checked before it is decrypted and its counter is stored after, by
two functions of their own.  The outgoing counter never wraps: at its last value the
code stops.
-/

namespace Ziggurat

structure NwkSecurityDescriptor where
  keySeqNumber : UInt8
  outgoingFrameCounter : UInt32
  incomingFrameCounterSet : FlatMap Eui64 UInt32
  key : Key

structure NwkSecurity where
  primary : NwkSecurityDescriptor
  activeKeySeqNumber : UInt8
  persistInterval : UInt32

/-- The outcome of advancing the outgoing counter. -/
structure CounterAdvance where
  value : UInt32
  shouldPersist : Bool
  deriving DecidableEq, Repr

namespace NwkSecurity

def new (key : Key) (keySeqNumber : UInt8) (outgoingFrameCounter persistInterval : UInt32) :
    NwkSecurity where
  primary :=
    { keySeqNumber, outgoingFrameCounter, incomingFrameCounterSet := .new, key }
  activeKeySeqNumber := keySeqNumber
  persistInterval := persistInterval

def networkKey (security : NwkSecurity) : Key := security.primary.key

/-- Advance the outgoing frame counter.  A wrap would use a nonce again. -/
def nextOutgoingFrameCounter (security : NwkSecurity) : Checked (CounterAdvance × NwkSecurity) := do
  let counter := security.primary.outgoingFrameCounter
  Checked.ensure (counter.toNat + 1 < 2 ^ 32) .unwrap
  let value := counter + 1
  return ({ value, shouldPersist := value % security.persistInterval == 0 },
    { security with primary.outgoingFrameCounter := value })

/-- The key for an inbound frame, unless its auxiliary header is not acceptable: an
unknown key, the last counter, or a counter that does not advance. -/
def inboundNetworkKey (security : NwkSecurity) (sender : Eui64) (keySequenceNumber : UInt8)
    (frameCounter : UInt32) : Option Key :=
  if keySequenceNumber ≠ security.activeKeySeqNumber then none
  else if frameCounter.toNat = 2 ^ 32 - 1 then none
  else match security.primary.incomingFrameCounterSet.get sender with
    | none => some security.primary.key
    | some lastStoredFrameCounter =>
      if frameCounter ≤ lastStoredFrameCounter then none else some security.primary.key

/-- Store the counter of a frame that was decrypted. -/
def noteInboundFrameCounter (security : NwkSecurity) (sender : Eui64) (frameCounter : UInt32) :
    NwkSecurity :=
  { security with
    primary.incomingFrameCounterSet :=
      security.primary.incomingFrameCounterSet.insert sender frameCounter }

/-- What a frame that gets a key has passed. -/
theorem of_inboundNetworkKey_isSome {security : NwkSecurity} {sender : Eui64}
    {keySequenceNumber : UInt8} {frameCounter : UInt32}
    (h : (security.inboundNetworkKey sender keySequenceNumber frameCounter).isSome) :
    frameCounter.toNat ≠ 2 ^ 32 - 1 ∧
      ∀ stored, security.primary.incomingFrameCounterSet.get sender = some stored →
        stored.toNat < frameCounter.toNat := by
  unfold inboundNetworkKey at h
  split_ifs at h with hkey hmax
  · cases h
  · cases h
  refine ⟨hmax, fun stored hstored => ?_⟩
  rw [hstored] at h
  dsimp only at h
  split_ifs at h with hstale
  · cases h
  · exact Nat.lt_of_not_le hstale

theorem nextOutgoingFrameCounter_eq_error {security : NwkSecurity}
    (h : ¬ security.primary.outgoingFrameCounter.toNat + 1 < 2 ^ 32) :
    security.nextOutgoingFrameCounter = .error .unwrap := by
  rw [nextOutgoingFrameCounter, Checked.ensure, if_neg h]
  rfl

end NwkSecurity

end Ziggurat
