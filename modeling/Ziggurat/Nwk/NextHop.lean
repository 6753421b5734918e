import Ziggurat.Nwk.Neighbors
import Ziggurat.Nwk.Routing

/-!
# The next hop of a unicast

`nwk/next_hop.rs`: where a unicast that we originate is transmitted to.  The decision may
rewrite the frame to carry a source route, so `resolve` returns the frame with it.
-/

namespace Ziggurat

/-- A route that the host supplies with a send. -/
inductive HostRoute where
  | nextHop (nextHop : Nwk)
  | sourceRoute (relays : List Nwk)
  deriving DecidableEq, Repr

inductive RouteDirective where
  | stackDecides
  /-- For want of a route of our own. -/
  | hint (route : HostRoute)
  /-- Unconditionally. -/
  | force (route : HostRoute)
  deriving DecidableEq, Repr

inductive SendMode where
  /-- The destination is its own next hop. -/
  | direct
  | route (directive : RouteDirective)
  deriving DecidableEq, Repr

inductive NextHop where
  | resolved (nextHop : Nwk)
  | needDiscovery
  | discard
  deriving DecidableEq, Repr

namespace NextHop

/-- The settings that the resolution reads. -/
structure Policy where
  isConcentrator : Bool
  forceRouteDiscovery : Bool
  maxSourceRoute : UInt8
  deriving DecidableEq, Repr

/-- Rewrite a frame to carry a source route.  Its next hop is the last relay. -/
def applySourceRoute (frame : NwkFrame) (relays : List Nwk) : Checked (NextHop × NwkFrame) := do
  let nextHop ← Checked.unwrap relays.getLast?
  -- `relays.len() as u8` truncates, and the subtraction is checked
  Checked.ensure (1 ≤ relays.length % 2 ^ 8) .overflow
  return (.resolved nextHop,
    { frame with
      nwkHeader.frameControl.sourceRoute := true
      nwkHeader.frameControl.discoverRoute := .suppress
      nwkHeader.sourceRoute :=
        some { relayIndex := UInt8.ofNat (relays.length % 2 ^ 8 - 1), relays } })

def applyHostRoute (frame : NwkFrame) : HostRoute → Checked (NextHop × NwkFrame)
  | .nextHop nextHop => .ok (.resolved nextHop, frame)
  | .sourceRoute relays => applySourceRoute frame relays

/-- No usable route: a hint stands in for a discovery, and the frame says whether one may
begin. -/
def resolveUnrouted (frame : NwkFrame) : RouteDirective → Checked (NextHop × NwkFrame)
  | .hint route => applyHostRoute frame route
  | .stackDecides | .force _ =>
    .ok (if frame.nwkHeader.frameControl.discoverRoute = .suppress then .discard
      else .needDiscovery, frame)

/-- An active route, unless the discovery is forced. -/
def resolveTable (routing : Routing) (frame : NwkFrame) (directive : RouteDirective)
    (policy : Policy) : Checked (NextHop × NwkFrame) := do
  if policy.forceRouteDiscovery then resolveUnrouted frame directive
  else match ← routing.nextHop frame.nwkHeader.destination with
    | some nextHop => return (.resolved nextHop, frame)
    | none => resolveUnrouted frame directive

/-- The next hop of a unicast, with the frame to transmit to it. -/
def resolve (routing : Routing) (neighbors : Neighbors) (frame : NwkFrame) (mode : SendMode)
    (policy : Policy) : Checked (NextHop × NwkFrame) := do
  let destination := frame.nwkHeader.destination
  match mode with
  | .direct => return (.resolved destination, frame)
  | .route (.force route) => applyHostRoute frame route
  | .route directive =>
    if (neighbors.endDeviceChildEui64 destination).isSome then
      return (.resolved destination, frame)
    else if policy.isConcentrator ∧ !policy.forceRouteDiscovery then
      match ← routing.routeTo destination policy.maxSourceRoute with
      | some (.nextHop nextHop) => return (.resolved nextHop, frame)
      | some (.sourceRouted relays) => applySourceRoute frame relays
      | none => resolveTable routing frame directive policy
    else resolveTable routing frame directive policy

end NextHop

end Ziggurat
