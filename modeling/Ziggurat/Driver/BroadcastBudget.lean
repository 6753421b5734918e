import Ziggurat.Types

/-!
# The broadcast admission budget

`broadcast_budget.rs`: a token bucket.  A host broadcast and a relayed one take a token,
each only above a reserve, and the stack's own broadcasts pass without one.
-/

namespace Ziggurat

inductive TrafficClass where
  | host
  | forwarding
  | critical
  deriving DecidableEq, Repr

inductive BroadcastAdmission where
  | admitted
  | defer (retryIn : Duration)
  deriving DecidableEq, Repr

structure BroadcastBudget where
  tokens : Nat
  lastRefill : Instant
  deriving DecidableEq, Repr

namespace BroadcastBudget

/-- A full bucket at the start of the clock. -/
def new (initialTokens : UInt8) : BroadcastBudget := ⟨initialTokens.toNat, 0⟩

/-- The tokens that a class may not take. -/
def floor (trafficClass : TrafficClass) (criticalReserve forwardingReserve : UInt8) : Nat :=
  match trafficClass with
  | .critical => 0
  | .forwarding => criticalReserve.toNat
  | .host => criticalReserve.toNat + forwardingReserve.toNat

/-- One token for each interval that passed, up to the capacity.  The remainder of the time
counts towards the next one. -/
def refill (budget : BroadcastBudget) (now : Instant) (capacity : Nat)
    (refillInterval : Duration) : BroadcastBudget :=
  if refillInterval = 0 ∨ capacity ≤ budget.tokens then ⟨capacity, now⟩
  else
    let accrued := (now - budget.lastRefill) / refillInterval
    if accrued = 0 then budget
    else
      let added := min accrued (capacity - budget.tokens)
      if capacity ≤ budget.tokens + added then ⟨capacity, now⟩
      else ⟨budget.tokens + added, budget.lastRefill.add (refillInterval * added)⟩

/-- Ask to admit one broadcast. -/
def take (budget : BroadcastBudget) (trafficClass : TrafficClass) (now : Instant)
    (capacity : UInt8) (refillInterval : Duration) (criticalReserve forwardingReserve : UInt8) :
    BroadcastAdmission × BroadcastBudget :=
  let budget := budget.refill now capacity.toNat refillInterval
  if trafficClass = .critical then (.admitted, budget)
  else
    let floor := floor trafficClass criticalReserve forwardingReserve
    if floor < budget.tokens then (.admitted, { budget with tokens := budget.tokens - 1 })
    else (.defer (refillInterval * (floor + 1 - budget.tokens)), budget)

end BroadcastBudget

end Ziggurat
