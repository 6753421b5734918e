import Mathlib.Algebra.Ring.Nat
import Mathlib.Data.Fin.Basic
import Mathlib.Data.Prod.Lex
import Mathlib.Order.Fin.Basic

/-!
# The types every layer of the stack shares

Addresses are the fixed-width integers of `ziggurat-ieee-802154`'s `types.rs`.
An instant is a number of microseconds, as in `time.rs`: the tables never read a
clock, so an instant only ever comes in as an argument, and adding a duration
saturates at the last instant.

`Tunables` has the protocol parameters that the modelled code reads, each with
the default that `constants.rs` gives it.
-/

namespace Ziggurat

/-- A 16-bit network address. -/
abbrev Nwk := Fin (2 ^ 16)

/-- A 64-bit IEEE address.  The source orders addresses by their eight bytes, the lowest first, and
not as numbers, so a table by EUI64 may list its entries in another order than here.  What is
proved of such tables does not depend on their order. -/
abbrev Eui64 := Fin (2 ^ 64)

-- the instances that literals and lists of addresses use, by name
instance Nwk.neZero : NeZero (2 ^ 16) := ⟨by decide⟩
instance Eui64.neZero : NeZero (2 ^ 64) := ⟨by decide⟩
instance Nwk.lawfulBEq : LawfulBEq Nwk := inferInstance

/-- An address of either form. -/
inductive Ieee802154Address where
  | nwk (nwk : Nwk)
  | eui64 (eui64 : Eui64)
  deriving DecidableEq, Repr

/-- An address and a number of its own choice, which together identify a broadcast or a
route request.  The tables order the pairs as the derived `Ord` does. -/
abbrev SourceNumber := Nwk ×ₗ Fin UInt8.size

def SourceNumber.mk (source : Nwk) (number : UInt8) : SourceNumber := toLex (source, number.toFin)

theorem SourceNumber.mk_inj {source source' : Nwk} {number number' : UInt8} :
    mk source number = mk source' number' ↔ source = source' ∧ number = number' := by
  simp only [mk, EmbeddingLike.apply_eq_iff_eq, Prod.mk.injEq, UInt8.toFin_inj]

/-- Microseconds since an epoch that the driver chooses. -/
abbrev Instant := Nat

/-- A time span in microseconds. -/
abbrev Duration := Nat

/-- The last instant of the 64-bit microsecond counter. -/
def Instant.last : Instant := 2 ^ 64 - 1

/-- `Instant + Duration` saturates. -/
def Instant.add (instant : Instant) (duration : Duration) : Instant :=
  min (instant + duration) Instant.last

theorem Instant.add_le_add {earlier later : Instant} {duration duration' : Duration}
    (h : earlier ≤ later) (h' : duration ≤ duration') :
    earlier.add duration ≤ later.add duration' := by
  unfold Instant.add
  lia

/-- Before the end of the clock, the saturation makes no difference. -/
theorem Instant.add_le_iff {instant later : Instant} {duration : Duration} (h : later < last) :
    instant.add duration ≤ later ↔ instant + duration ≤ later := by
  unfold Instant.add
  lia

/-- The protocol parameters the modelled code reads. -/
structure Tunables where
  transactionPersistenceTime : Duration := 7680000
  handoffTimeout : Duration := 30000000
  unicastRetries : Nat := 3
  pendingRouteDiscoveryAttempts : Nat := 1
  maxSourceRoute : UInt8 := 12
  maxChildren : UInt8 := 32
  allowUnsecuredRejoins : Bool := false
  allowUnencryptedRouterDeviceUpdate : Bool := false
  maxBroadcastRetries : UInt8 := 2
  mtorrRouteErrorThreshold : UInt8 := 3
  mtorrDeliveryFailureThreshold : UInt8 := 1
  linkStatusPeriod : Duration := 15000000
  routerAgeLimit : UInt8 := 3
  routeDiscoveryTime : Duration := 10000000
  initialRreqRetries : UInt8 := 3
  rreqRetries : UInt8 := 2
  rreqRetryInterval : Duration := 254000
  broadcastDeliveryTime : Duration := 9000000
  /-- The span that the default of `end_device_timeout_default` stands for. -/
  endDeviceTimeoutDefault : Duration := 15360000000
  apsDuplicateRejectionTimeout : Duration := 9000000
  broadcastBudgetTokens : UInt8 := 40
  broadcastTokenRefill : Duration := 675000
  broadcastCriticalReserve : UInt8 := 3
  broadcastForwardingReserve : UInt8 := 2

end Ziggurat
