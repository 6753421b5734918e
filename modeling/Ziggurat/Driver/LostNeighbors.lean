import Ziggurat.Driver.Capacity
import Ziggurat.Driver.Events

/-!
# Routes through lost neighbors

A neighbor is lost when its entry is removed, or when the cost of the link to it drops to zero.
The handlers that lose a neighbor clean up after it in two ways.  Those that age links or digest
a link status deactivate every route through it.  Those that remove an entry, because the device
left, moved to another parent or timed out, remove the route *to* the device, and leave the
routes to other destinations that run through it.

`LossHandler` lists them all.  `cut_iff` says when no active route is left through what one of
them loses: always for the first kind, and for the second kind only if there was none to another
destination before.
-/

namespace Ziggurat

open Lib.Stateful

/-! ## Active routes -/

namespace Routing

variable {routing : Routing}

/-- There is an active route to a destination through a next hop. -/
def ActiveVia (routing : Routing) (nextHop destination : Nwk) : Prop :=
  ∃ route, routing.routeTable.get destination = some route ∧ route.status = .active ∧
    route.nextHopAddress = nextHop

theorem activeVia_removeRoute {removed nextHop destination : Nwk} :
    (routing.removeRoute removed).2.ActiveVia nextHop destination ↔
      routing.ActiveVia nextHop destination ∧ destination ≠ removed := by
  unfold removeRoute ActiveVia
  dsimp only
  rw [FlatMap.get_remove]
  split
  next heq =>
    refine ⟨fun h => ?_, fun h => absurd heq h.2⟩
    obtain ⟨_, hnone, -⟩ := h
    cases hnone
  next hne => exact ⟨fun h => ⟨h, hne⟩, And.left⟩

theorem activeVia_foldl_removeRoute (removed : List Nwk) {nextHop destination : Nwk} :
    (removed.foldl (fun routing nwk => (routing.removeRoute nwk).2) routing).ActiveVia nextHop
        destination ↔
      routing.ActiveVia nextHop destination ∧ destination ∉ removed := by
  induction removed generalizing routing with
  | nil => simp
  | cons nwk removed ih =>
    rw [List.foldl_cons, ih, activeVia_removeRoute, List.mem_cons]
    tauto

theorem activeVia_invalidateVia {hop nextHop destination : Nwk} :
    (routing.invalidateVia hop).ActiveVia nextHop destination ↔
      routing.ActiveVia nextHop destination ∧ nextHop ≠ hop := by
  unfold invalidateVia ActiveVia
  dsimp only
  rw [FlatMap.get_mapVal]
  constructor
  · rintro ⟨route', hroute', hactive, rfl⟩
    obtain ⟨route, hroute, rfl⟩ := Option.map_eq_some_iff.mp hroute'
    split at hactive
    next => cases hactive
    next hother =>
      rw [if_neg hother]
      exact ⟨⟨route, hroute, hactive, rfl⟩, fun heq => hother ⟨hactive, heq⟩⟩
  · rintro ⟨⟨route, hroute, hactive, rfl⟩, hne⟩
    rw [hroute]
    exact ⟨route, by rw [Option.map_some, if_neg fun h => hne h.2], hactive, rfl⟩

theorem activeVia_foldl_invalidateVia (hops : List Nwk) {nextHop destination : Nwk} :
    (hops.foldl invalidateVia routing).ActiveVia nextHop destination ↔
      routing.ActiveVia nextHop destination ∧ nextHop ∉ hops := by
  induction hops generalizing routing with
  | nil => simp
  | cons hop hops ih =>
    rw [List.foldl_cons, ih, activeVia_invalidateVia, List.mem_cons]
    tauto

/-- Only routes that wait for a discovery are removed with it. -/
theorem activeVia_expireDiscoveries {now : Instant} {nextHop destination : Nwk} :
    (routing.expireDiscoveries now).ActiveVia nextHop destination ↔
      routing.ActiveVia nextHop destination := by
  unfold expireDiscoveries ActiveVia
  dsimp only
  generalize ((routing.discoveryTable.values.filter (·.expirationTime ≤ now)).map
    (·.destinationAddress)) = expired
  generalize routing.routeTable = table
  induction expired generalizing table with
  | nil => rfl
  | cons other expired ih =>
    rw [List.foldl_cons, ih]
    split
    next => rfl
    next =>
      split
      next hunderway =>
        rw [FlatMap.get_remove]
        split
        next heq =>
          subst heq
          constructor
          · rintro ⟨_, hnone, -⟩
            cases hnone
          · rintro ⟨route, hroute, hactive, -⟩
            rw [hroute, Option.any_some, hactive] at hunderway
            cases hunderway
        next => rfl
      next => rfl

theorem activeVia_beginDiscovery {ownAddress begun : Nwk} {now : Instant}
    {routeDiscoveryTime : Duration} {nextHop destination : Nwk} :
    (routing.beginDiscovery ownAddress begun now routeDiscoveryTime).2.ActiveVia nextHop
        destination ↔
      routing.ActiveVia nextHop destination ∧ destination ≠ begun := by
  rw [← @activeVia_expireDiscoveries routing now]
  unfold beginDiscovery ActiveVia
  dsimp only
  rw [FlatMap.get_insert]
  split
  next heq =>
    refine ⟨fun h => ?_, fun h => absurd heq h.2⟩
    obtain ⟨_, hroute, hactive, -⟩ := h
    cases hroute
    cases hactive
  next hne => exact ⟨fun h => ⟨h, hne⟩, And.left⟩

theorem not_activeVia_of_nextHop {destination : Nwk} (h : routing.nextHop destination = .ok none)
    (nextHop : Nwk) : ¬ routing.ActiveVia nextHop destination := by
  rintro ⟨route, hroute, hactive, -⟩
  unfold Routing.nextHop at h
  rw [hroute, Option.filter_some, if_pos (decide_eq_true hactive)] at h
  obtain ⟨_, -, h⟩ := Checked.bind_eq_ok.mp h
  cases h

end Routing

/-! ## Settled frames -/

/-- The next hop that a settled send failed at. -/
def Action.failedHop {F W E : Type} : Action F W E → Option Nwk
  | .handedOff _ => none
  | .settled _ _ _ failedHop => failedHop

/-- What is told of a settled send: its handoff once more if there was one, and the verdict. -/
theorem Action.failedHop_of_told {F W E : Type} {actions : Actions F W E} {waiter : W} {frame : F}
    {result : Except E Unit} {p : Prop} [Decidable p]
    (hactions : ∀ action ∈ actions, action.failedHop = none) :
    ∀ action ∈ (if p then actions ++ [.handedOff waiter] else actions) ++
      [.settled waiter result frame none], action.failedHop = none := by
  intro action hmem
  obtain hmem | hmem := List.mem_append.mp hmem
  · split at hmem
    next =>
      obtain hmem | hmem := List.mem_append.mp hmem
      · exact hactions action hmem
      · rw [List.mem_singleton.mp hmem, Action.failedHop]
    next => exact hactions action hmem
  · rw [List.mem_singleton.mp hmem, Action.failedHop]

namespace Unicasts

variable {F W E : Type} {t t' : Unicasts F W} {actions actions' : Actions F W E}

theorem failedHop_of_settle {id : SendId} {result : Except E Unit}
    (h : t.settle id result none actions = .ok (t', actions'))
    (hactions : ∀ action ∈ actions, action.failedHop = none) :
    ∀ action ∈ actions', action.failedHop = none := by
  obtain ⟨record, -, h⟩ := Checked.bind_eq_ok.mp h
  obtain ⟨frame, -, h⟩ := Checked.bind_eq_ok.mp h
  cases h
  exact Action.failedHop_of_told hactions

theorem failedHop_of_foldlM_settle (verdicts : List (SendId × Except E Unit))
    (h : verdicts.foldlM (fun s v => s.1.settle v.1 v.2 none s.2) (t, actions) =
      .ok (t', actions'))
    (hactions : ∀ action ∈ actions, action.failedHop = none) :
    ∀ action ∈ actions', action.failedHop = none := by
  exact Checked.foldlM_invariant (P := fun s : Unicasts F W × Actions F W E =>
      ∀ action ∈ s.2, action.failedHop = none) verdicts h hactions
    fun _ _ _ hsettle hactions => failedHop_of_settle hsettle hactions

end Unicasts

namespace Driver

section

variable {env : Env}

theorem runSendActions_of_failedHop {actions : SendActions}
    (h : ∀ action ∈ actions, action.failedHop = none) : runSendActions env actions = pure () := by
  unfold runSendActions
  induction actions with
  | nil => rfl
  | cons action actions ih =>
    have hnone := h action List.mem_cons_self
    rw [List.forM, ih fun a ha => h a (List.mem_cons_of_mem _ ha)]
    split
    next => cases hnone
    next => rfl

/-- To fail the frames that await a poll is no failure of a hop: only the send table changes. -/
theorem dropIndirectTransactions_unicasts {eui64 : Option Eui64} {nwk : Nwk} {net : Net} :
    Ensures net (dropIndirectTransactions env eui64 nwk)
      (fun _ net' => ∃ unicasts, net' = { net with sends.unicasts := unicasts }) := by
  refine .bind_get (.bind_lift ?_)
  rintro ⟨sends, actions⟩ hsends
  obtain ⟨⟨unicasts, _⟩, hdrop, hsends⟩ := Checked.bind_eq_ok.mp hsends
  cases hsends
  refine .bind_set ?_
  rw [runSendActions_of_failedHop
    (Unicasts.failedHop_of_foldlM_settle _ hdrop fun _ h => absurd h List.not_mem_nil)]
  exact .pure ⟨unicasts, rfl⟩

/-! ## Cleaning up -/

/-- What is done for each of the removed devices: the routes to them are removed. -/
structure Cleaned (removed : List Nwk) (net net' : Net) : Prop where
  neighbors : net'.neighbors = net.neighbors
  unrouted : net'.sends.unroutedUnicasts = net.sends.unroutedUnicasts
  routing : net'.routing =
    removed.foldl (fun routing nwk => (routing.removeRoute nwk).2) net.routing

theorem cleanupMovedChild_cleaned {eui64 : Eui64} {nwk : Nwk} {net : Net} :
    Ensures net (cleanupMovedChild env eui64 nwk) (fun _ => Cleaned [nwk] net) := by
  refine .bind dropIndirectTransactions_unicasts ?_
  rintro _ _ ⟨unicasts, rfl⟩
  exact .modify ⟨rfl, rfl, rfl⟩

/-- A device is gone: its frames fail, the route to it is removed, and the client is told. -/
theorem departure_cleaned {eui64 : Option Eui64} {nwk : Nwk} {notification : ZigbeeNotification}
    {net : Net} :
    Ensures net (do
      dropIndirectTransactions env eui64 nwk
      removeRoute nwk
      pushNotification notification) (fun _ => Cleaned [nwk] net) := by
  refine .bind dropIndirectTransactions_unicasts ?_
  rintro _ _ ⟨unicasts, rfl⟩
  intro _ _ h
  cases h
  exact ⟨rfl, rfl, rfl⟩

theorem forM_cleaned {f : Eui64 × Nwk → NetM Unit}
    (hf : ∀ pair net, Ensures net (f pair) (fun _ => Cleaned [pair.2] net))
    (removed : List (Eui64 × Nwk)) (net : Net) :
    Ensures net (removed.forM f) (fun _ => Cleaned (removed.map Prod.snd) net) := by
  induction removed generalizing net with
  | nil => exact .pure ⟨rfl, rfl, rfl⟩
  | cons pair removed ih =>
    refine .bind (hf pair net) fun _ net₁ h₁ => (ih net₁).mono fun _ net' h => ?_
    exact ⟨h.neighbors.trans h₁.neighbors, h.unrouted.trans h₁.unrouted,
      by rw [h.routing, h₁.routing]; rfl⟩

/-! ## The reply to an announcement -/

/-- A send to the destination begins a discovery even if there is a route. -/
def Rediscovers (env : Env) (neighbors : Neighbors) (sends : SendTable) (destination : Nwk) :
    Prop :=
  env.hackForceRouteDiscovery = true ∧ neighbors.endDeviceChildEui64 destination = none ∧
    sends.hasUnrouted destination = false

/-- Unless the discovery is forced, a frame without a next hop has no active route. -/
theorem resolveTable_unresolved {routing : Routing} {frame frame' : NwkFrame}
    {directive : RouteDirective} {policy : NextHop.Policy} {answer : NextHop}
    (hforce : policy.forceRouteDiscovery = false) (hanswer : ∀ hop, answer ≠ .resolved hop)
    (h : NextHop.resolveTable routing frame directive policy = .ok (answer, frame'))
    (nextHop : Nwk) : ¬ routing.ActiveVia nextHop frame.nwkHeader.destination := by
  unfold NextHop.resolveTable at h
  rw [hforce, if_neg Bool.false_ne_true] at h
  obtain ⟨found, hfound, h⟩ := Checked.bind_eq_ok.mp h
  cases found with
  | some hop =>
    cases h
    exact absurd rfl (hanswer hop)
  | none => exact Routing.not_activeVia_of_nextHop hfound nextHop

theorem resolve_unresolved {routing : Routing} {neighbors : Neighbors}
    {frame frame' : NwkFrame} {policy : NextHop.Policy} {answer : NextHop}
    (hanswer : ∀ hop, answer ≠ .resolved hop)
    (h : NextHop.resolve routing neighbors frame (.route .stackDecides) policy =
      .ok (answer, frame')) :
    neighbors.endDeviceChildEui64 frame.nwkHeader.destination = none ∧
      (policy.forceRouteDiscovery = true ∨
        ∀ nextHop, ¬ routing.ActiveVia nextHop frame.nwkHeader.destination) := by
  unfold NextHop.resolve at h
  dsimp only at h
  split at h
  next =>
    cases h
    exact absurd rfl (hanswer _)
  next hchild =>
    refine ⟨by simpa using hchild, ?_⟩
    cases hforce : policy.forceRouteDiscovery with
    | true => exact .inl rfl
    | false =>
      refine .inr ?_
      split at h
      next =>
        obtain ⟨route, hroute, h⟩ := Checked.bind_eq_ok.mp h
        match route with
        | none => exact resolveTable_unresolved hforce hanswer h
        | some (.nextHop hop) =>
          cases h
          exact absurd rfl (hanswer hop)
        | some (.sourceRouted relays) =>
          obtain ⟨hop, -, h⟩ := Checked.bind_eq_ok.mp h
          obtain ⟨_, -, h⟩ := Checked.bind_eq_ok.mp h
          cases h
          exact absurd rfl (hanswer hop)
      next => exact resolveTable_unresolved hforce hanswer h

theorem resolve_of_force {routing : Routing} {neighbors : Neighbors} {frame : NwkFrame}
    {policy : NextHop.Policy} (hforce : policy.forceRouteDiscovery = true)
    (hchild : neighbors.endDeviceChildEui64 frame.nwkHeader.destination = none) :
    NextHop.resolve routing neighbors frame (.route .stackDecides) policy =
      .ok (if frame.nwkHeader.frameControl.discoverRoute = .suppress then .discard
        else .needDiscovery, frame) := by
  unfold NextHop.resolve NextHop.resolveTable NextHop.resolveUnrouted
  dsimp only
  rw [hchild, hforce, if_neg (by simp), if_neg (by simp), if_pos rfl]

theorem unsent_routing : Unsent Net.routing where
  sends _ _ := rfl
  sequenceNumber _ _ := rfl

theorem startRouteDiscovery_activeVia {begun : Nwk} {net : Net} :
    Ensures net (startRouteDiscovery env begun) (fun _ net' => ∀ nextHop destination,
      net'.routing.ActiveVia nextHop destination ↔
        net.routing.ActiveVia nextHop destination ∧ destination ≠ begun) := by
  refine .bind_get (.bind_set ?_)
  have hbroadcast : Steps (Keeps Net.routing) (do
      let frame := (routeRequestFrame env begun (net.routing.beginDiscovery env.networkAddress
        begun env.now env.tunables.routeDiscoveryTime).1
        (net.addressMap.eui64For begun)).withSequenceNumber (← nextSequenceNumber)
      broadcastRouteRequest env frame (← copies env.tunables.initialRreqRetries) 0) :=
    .bind unsent_routing.nextSequenceNumber fun _ => .bind (.lift _) fun _ =>
      .bind unsent_routing.admission fun _ => .pure _
  refine (hbroadcast _).mono fun _ net' hnet' nextHop destination => ?_
  rw [show net'.routing = _ from hnet']
  exact Routing.activeVia_beginDiscovery

theorem nextSequenceNumber_ensures {net : Net} :
    Ensures net nextSequenceNumber
      (fun _ net' => ∃ number, net' = { net with sequenceNumber := number }) := by
  intro _ _ h
  cases h
  exact ⟨_, rfl⟩

/-- A unicast replaces no active route, unless the discovery of its destination is forced. -/
theorem sendUnicast_activeVia {send : Unicast} {net : Net}
    (hmode : send.mode = .route .stackDecides)
    (hdiscover : send.frame.nwkHeader.frameControl.discoverRoute ≠ .suppress) :
    Ensures net (sendUnicast env send) (fun _ net' => ∀ nextHop destination,
      net'.routing.ActiveVia nextHop destination ↔ net.routing.ActiveVia nextHop destination ∧
        ¬ (destination = send.frame.nwkHeader.destination ∧
          Rediscovers env net.neighbors net.sends destination)) := by
  refine .bind_lift fun _ _ => .bind nextSequenceNumber_ensures ?_
  rintro number _ ⟨_, rfl⟩
  refine .bind_get (.bind_lift ?_)
  rintro ⟨resolved, frame⟩ hresolve
  rw [hmode] at hresolve
  have hresolved (hne : resolved ≠ .needDiscovery) (nextHop destination : Nwk) :
      net.routing.ActiveVia nextHop destination ↔ net.routing.ActiveVia nextHop destination ∧
        ¬ (destination = send.frame.nwkHeader.destination ∧
          Rediscovers env net.neighbors net.sends destination) := by
    refine ⟨fun h => ⟨h, ?_⟩, And.left⟩
    rintro ⟨rfl, hforce, hchild, -⟩
    cases (hresolve.symm.trans (resolve_of_force hforce hchild)).trans
      (by rw [NwkFrame.withSequenceNumber, if_neg hdiscover])
    exact hne rfl
  cases resolved with
  | resolved hop =>
    refine .bind (unsent_routing.admission _) fun _ net' hnet' => ?_
    refine .pure fun nextHop destination => ?_
    rw [show net'.routing = _ from hnet']
    exact hresolved (nofun) nextHop destination
  | discard => exact .pure (hresolved (nofun))
  | needDiscovery =>
    obtain ⟨hchild, hwhy⟩ := resolve_unresolved (by nofun) hresolve
    refine .bind (unsent_routing.admission _) fun _ net₁ hnet₁ => ?_
    cases hunrouted : net.sends.hasUnrouted send.frame.nwkHeader.destination with
    | true =>
      refine .pure fun nextHop destination => ?_
      rw [show net₁.routing = _ from hnet₁]
      refine ⟨fun h => ⟨h, ?_⟩, And.left⟩
      rintro ⟨rfl, -, -, hfree⟩
      rw [hunrouted] at hfree
      cases hfree
    | false =>
      refine .bind startRouteDiscovery_activeVia fun _ net' hnet' => .pure ?_
      intro nextHop destination
      rw [hnet', show net₁.routing = _ from hnet₁]
      refine and_congr_right fun hactive => ⟨fun hne h => hne h.1, fun h => ?_⟩
      rintro rfl
      obtain hforce | hnone := hwhy
      · exact h ⟨rfl, hforce, hchild, hunrouted⟩
      · exact hnone nextHop hactive

theorem nextApsCounter_ensures {net : Net} :
    Ensures net nextApsCounter
      (fun _ net' => ∃ counter, net' = { net with apsCounter := counter }) := by
  intro _ _ h
  cases h
  exact ⟨_, rfl⟩

/-- A device profile command that can be serialized is sent. -/
theorem sendZdpCommand_activeVia {α : Type} {codec : Lib.BitCodec.Codec α}
    {clusterId : ZdpClusterId} {target : Nwk} {tsn : UInt8} {command : α} {net : Net} :
    Ensures net (sendZdpCommand env codec clusterId target tsn command)
      (fun _ net' => ∀ nextHop destination,
        net'.routing.ActiveVia nextHop destination ↔ net.routing.ActiveVia nextHop destination ∧
          ¬ (destination = target ∧ Rediscovers env net.neighbors net.sends destination)) := by
  refine .bind_lift fun serialized hserialized => ?_
  have hfits : serialized.length ≤ 104 := Zdp.length_le_of_serialize hserialized
  rw [FrameBytes.fromSlice_eq (hfits.trans (by decide))]
  refine .bind nextApsCounter_ensures ?_
  rintro counter _ ⟨_, rfl⟩
  refine .bind_lift fun bytes hbytes => ?_
  obtain ⟨_, hbytes', hlen⟩ := ApsDataFrame.toBytes_eq_ok _
  cases hbytes.symm.trans hbytes'
  have hshort : bytes.length ≤ maxPhyPacketSize := by
    rw [hlen]
    change 8 + serialized.length ≤ 127
    omega
  unfold nwkDataFrame
  rw [FrameBytes.fromSlice_eq hshort]
  exact sendUnicast_activeVia rfl (by intro h; cases h)

/-! ## The handlers -/

/-- The handlers that lose a neighbor. -/
inductive LossHandler where
  | leave (frame : NwkFrame) (command : NwkLeaveCommand)
  | movedChild (eui64 : Eui64)
  | parentAnnce (source : Nwk) (asdu : Bytes)
  | parentAnnceRsp (asdu : Bytes)
  | childTimeout
  | age
  | linkStatus (frame : NwkFrame) (command : NwkLinkStatusCommand) (lqi : UInt8)

namespace LossHandler

def handle (env : Env) : LossHandler → NetM Unit
  | leave frame command => handleLeave env frame command
  | movedChild eui64 => forgetMovedChild env eui64
  | parentAnnce source asdu => handleParentAnnce env source asdu
  | parentAnnceRsp asdu => handleParentAnnceRsp env asdu
  | childTimeout => evictTimedOutChildren env
  | age => maybeAgeNeighbors env
  | linkStatus frame command lqi => handleLinkStatus env frame command lqi

/-- The devices whose entries are removed. -/
def removed (env : Env) (net : Net) : LossHandler → List Eui64
  | leave frame command =>
    if command.request then []
    else (frame.nwkHeader.sourceIeee.or (net.addressMap.eui64For frame.nwkHeader.source)).toList
  | movedChild eui64 => ((net.neighbors.takeChild eui64).1.map fun _ => eui64).toList
  | parentAnnce _ asdu =>
    match Zdp.deserialize ParentAnnce.codec asdu with
    | none => []
    | some (_, annce) => (net.neighbors.processParentAnnce annce.children).2.1.map Prod.fst
  | parentAnnceRsp asdu =>
    match Zdp.deserialize ParentAnnceRsp.codec asdu with
    | none => []
    | some (_, response) =>
      (net.neighbors.removeClaimedChildren response.children).1.map Prod.fst
  | childTimeout => (net.neighbors.evictTimedOutChildren env.now).1.map Prod.fst
  | age | linkStatus _ _ _ => []

/-- The destinations whose routes are removed. -/
def unrouted (env : Env) (net : Net) : LossHandler → List Nwk
  | leave frame command => if command.request then [] else [frame.nwkHeader.source]
  | movedChild eui64 => (net.neighbors.takeChild eui64).1.toList
  | parentAnnce _ asdu =>
    match Zdp.deserialize ParentAnnce.codec asdu with
    | none => []
    | some (_, annce) => (net.neighbors.processParentAnnce annce.children).2.1.map Prod.snd
  | parentAnnceRsp asdu =>
    match Zdp.deserialize ParentAnnceRsp.codec asdu with
    | none => []
    | some (_, response) =>
      (net.neighbors.removeClaimedChildren response.children).1.map Prod.snd
  | childTimeout => (net.neighbors.evictTimedOutChildren env.now).1.map Prod.snd
  | age | linkStatus _ _ _ => []

/-- The reply to an announcement that begins a discovery in spite of a route. -/
def Rediscovers (env : Env) (net : Net) (destination : Nwk) : LossHandler → Prop
  | parentAnnce source asdu =>
    match Zdp.deserialize ParentAnnce.codec asdu with
    | none => False
    | some (_, annce) =>
      let (claimed, _, neighbors) := net.neighbors.processParentAnnce annce.children
      claimed ≠ [] ∧ destination = source ∧
        Driver.Rediscovers env neighbors net.sends destination
  | _ => False

end LossHandler

/-- No active route is left through a neighbor that was lost. -/
def Cut (net net' : Net) : Prop :=
  ∀ eui64 entry, net.neighbors.table.get eui64 = some entry →
    (net'.neighbors.table.get eui64 = none ∨
      ∃ entry', net'.neighbors.table.get eui64 = some entry' ∧ 0 < entry.outgoingCost ∧
        entry'.outgoingCost = 0) →
    ∀ destination, ¬ net'.routing.ActiveVia entry.networkAddress destination

/-- What a handler that removes entries does to the routes. -/
structure Removed (removed : List Eui64) (unrouted : List Nwk) (rediscovered : Nwk → Prop)
    (net net' : Net) : Prop where
  removes : net.neighbors.Removes net'.neighbors removed
  activeVia : ∀ nextHop destination, net'.routing.ActiveVia nextHop destination ↔
    net.routing.ActiveVia nextHop destination ∧ destination ∉ unrouted ∧ ¬ rediscovered destination

section

variable {removed : List Eui64} {unrouted : List Nwk} {rediscovered : Nwk → Prop} {net net' : Net}

theorem Removed.leavesNone_iff (h : Removed removed unrouted rediscovered net net') :
    Cut net net' ↔ ∀ eui64 ∈ removed, ∀ entry, net.neighbors.table.get eui64 = some entry →
      ∀ destination, net.routing.ActiveVia entry.networkAddress destination →
        destination ∈ unrouted ∨ rediscovered destination := by
  constructor
  · intro hcut eui64 hmem entry hentry destination hactive
    by_contra hother
    push Not at hother
    refine hcut eui64 entry hentry (.inl ?_) destination ((h.activeVia _ _).mpr ⟨hactive, hother⟩)
    rw [h.removes, if_pos hmem]
  · intro hremoved eui64 entry hentry hlost destination hactive
    have hkey := h.removes eui64
    split at hkey
    next hmem =>
      obtain ⟨hbefore, hkept, hnot⟩ := (h.activeVia _ _).mp hactive
      obtain hto | hre := hremoved eui64 hmem entry hentry destination hbefore
      · exact hkept hto
      · exact hnot hre
    next =>
      rw [hkey, hentry] at hlost
      obtain hnone | ⟨entry', hentry', hpos, hzero⟩ := hlost
      · cases hnone
      · cases hentry'
        rw [hzero] at hpos
        exact absurd hpos (by decide)

theorem Removed.of_cleaned {neighbors : Neighbors}
    (hremoves : net.neighbors.Removes neighbors removed)
    (h : Cleaned unrouted { net with neighbors } net') :
    Removed removed unrouted (fun _ => False) net net' where
  removes := h.neighbors ▸ hremoves
  activeVia nextHop destination := by
    rw [h.routing, Routing.activeVia_foldl_removeRoute]
    simp

theorem Removed.refl (net : Net) : Removed [] [] (fun _ => False) net net :=
  .of_cleaned (Neighbors.removes_nil net.neighbors) ⟨rfl, rfl, rfl⟩

end

theorem handleLeave_removed {frame : NwkFrame} {command : NwkLeaveCommand} {net : Net} :
    Ensures net (handleLeave env frame command)
      (fun _ => Removed ((LossHandler.leave frame command).removed env net)
        ((LossHandler.leave frame command).unrouted env net) (fun _ => False) net) := by
  unfold handleLeave LossHandler.removed LossHandler.unrouted
  dsimp only
  cases command.request with
  | true => exact .pure (.refl net)
  | false =>
    refine .bind_get (.bind_set ?_)
    refine departure_cleaned.mono fun _ _ => .of_cleaned ?_
    cases frame.nwkHeader.sourceIeee.or (net.addressMap.eui64For frame.nwkHeader.source) with
    | none => exact net.neighbors.removes_nil
    | some sourceIeee => exact net.neighbors.removes_remove sourceIeee

theorem forgetMovedChild_removed {eui64 : Eui64} {net : Net} :
    Ensures net (forgetMovedChild env eui64)
      (fun _ => Removed ((LossHandler.movedChild eui64).removed env net)
        ((LossHandler.movedChild eui64).unrouted env net) (fun _ => False) net) := by
  have hremoves := net.neighbors.removes_takeChild eui64
  unfold LossHandler.removed LossHandler.unrouted
  refine .bind_get ?_
  dsimp only
  generalize net.neighbors.takeChild eui64 = taken at *
  obtain ⟨child, neighbors⟩ := taken
  refine .bind_set ?_
  cases child with
  | none => exact .pure (.of_cleaned hremoves ⟨rfl, rfl, rfl⟩)
  | some nwk => exact cleanupMovedChild_cleaned.mono fun _ _ => Removed.of_cleaned hremoves

theorem evictTimedOutChildren_removed {net : Net} :
    Ensures net (evictTimedOutChildren env)
      (fun _ => Removed (LossHandler.childTimeout.removed env net)
        (LossHandler.childTimeout.unrouted env net) (fun _ => False) net) := by
  refine .bind_get (.bind_set ?_)
  exact (forM_cleaned (fun _ _ => departure_cleaned) _ _).mono fun _ _ =>
    Removed.of_cleaned (net.neighbors.removes_evictTimedOutChildren env.now)

theorem handleParentAnnceRsp_removed {asdu : Bytes} {net : Net} :
    Ensures net (handleParentAnnceRsp env asdu)
      (fun _ => Removed ((LossHandler.parentAnnceRsp asdu).removed env net)
        ((LossHandler.parentAnnceRsp asdu).unrouted env net) (fun _ => False) net) := by
  unfold handleParentAnnceRsp LossHandler.removed LossHandler.unrouted
  dsimp only
  generalize Zdp.deserialize ParentAnnceRsp.codec asdu = parsed
  match parsed with
  | none => exact .pure (.refl net)
  | some (_, response) =>
    refine .bind_get (.bind_set ?_)
    exact (forM_cleaned (fun _ _ => cleanupMovedChild_cleaned) _ _).mono fun _ _ =>
      Removed.of_cleaned (Neighbors.removes_removeClaimedChildren response.children net.neighbors)

theorem handleParentAnnce_removed {source : Nwk} {asdu : Bytes} {net : Net} :
    Ensures net (handleParentAnnce env source asdu)
      (fun _ => Removed ((LossHandler.parentAnnce source asdu).removed env net)
        ((LossHandler.parentAnnce source asdu).unrouted env net)
        (fun destination =>
          (LossHandler.parentAnnce source asdu).Rediscovers env net destination) net) := by
  unfold handleParentAnnce LossHandler.removed LossHandler.unrouted LossHandler.Rediscovers
  dsimp only
  generalize Zdp.deserialize ParentAnnce.codec asdu = parsed
  match parsed with
  | none => exact .pure (.refl net)
  | some (tsn, annce) =>
    have hremoves := Neighbors.removes_processParentAnnce annce.children net.neighbors
    refine .bind_get ?_
    dsimp only
    generalize net.neighbors.processParentAnnce annce.children = processed at *
    obtain ⟨claimed, removed, neighbors⟩ := processed
    refine .bind_set (.bind (forM_cleaned (fun _ _ => cleanupMovedChild_cleaned) _ _) ?_)
    intro _ net₁ h₁
    have hcleaned := Removed.of_cleaned hremoves h₁
    refine .ite (fun hclaimed => ?_) (fun hclaimed => .pure ⟨hcleaned.removes, ?_⟩)
    · refine .bind (Q := fun _ net' => Sending net₁ net' ∧ ∀ nextHop destination,
        net'.routing.ActiveVia nextHop destination ↔ net₁.routing.ActiveVia nextHop destination ∧
          ¬ (destination = source ∧ Driver.Rediscovers env net₁.neighbors net₁.sends destination))
        (fun a s h => ⟨sendZdpCommand_sending _ _ _ h, sendZdpCommand_activeVia _ _ h⟩) ?_
      rintro _ net' ⟨hsending, hactive⟩
      refine .pure ⟨hsending.neighbors ▸ hcleaned.removes, fun nextHop destination => ?_⟩
      have hrediscovers : Driver.Rediscovers env net₁.neighbors net₁.sends destination ↔
          Driver.Rediscovers env neighbors net.sends destination := by
        unfold Driver.Rediscovers Sends.hasUnrouted
        rw [h₁.neighbors, h₁.unrouted]
      rw [hactive, hcleaned.activeVia, hrediscovers]
      simp [hclaimed, and_assoc]
    · intro nextHop destination
      rw [hcleaned.activeVia]
      simp [hclaimed]

/-! ## Lost links -/

/-- Entries stay when links age, and a link is only lost through a reported address. -/
theorem get_age {neighbors : Neighbors} {now : Instant} {maxAge : Duration} {eui64 : Eui64}
    {entry : Neighbors.TableEntry} (h : neighbors.table.get eui64 = some entry) :
    ∃ entry', (neighbors.age now maxAge).2.table.get eui64 = some entry' ∧
      entry'.networkAddress = entry.networkAddress ∧
      (entry'.outgoingCost = entry.outgoingCost ∨
        entry.networkAddress ∈ (neighbors.age now maxAge).1) := by
  unfold Neighbors.age
  dsimp only
  rw [FlatMap.get_mapVal, h]
  refine ⟨_, rfl, ?_⟩
  beta_reduce
  split
  next hstale =>
    refine ⟨rfl, .inr (List.mem_map.mpr ⟨entry, List.mem_filter.mpr ⟨?_, ?_⟩, rfl⟩)⟩
    · exact FlatMap.mem_values.mpr ⟨eui64, h⟩
    · exact decide_eq_true hstale
  next => exact ⟨rfl, .inl rfl⟩

theorem maybeAgeNeighbors_cut {net : Net} :
    Ensures net (maybeAgeNeighbors env) (fun _ => Cut net) := by
  refine .modify fun eui64 entry hentry hlost destination hactive => ?_
  obtain ⟨entry', hentry', -, hcost⟩ := @get_age net.neighbors env.now
    (env.tunables.routerAgeLimit.toNat * env.tunables.linkStatusPeriod) eui64 entry hentry
  obtain hnone | ⟨_, hsome, hpos, hzero⟩ := hlost
  · cases hnone.symm.trans hentry'
  · cases hsome.symm.trans hentry'
    obtain hsame | hstale := hcost
    · rw [← hsame, hzero] at hpos
      exact absurd hpos (by decide)
    · exact ((Routing.activeVia_foldl_invalidateVia _).mp hactive).2 hstale

theorem Cut.trans {net net₁ net' : Net} (h : Cut net net₁) (h' : Cut net₁ net')
    (hkept : ∀ eui64 entry, net.neighbors.table.get eui64 = some entry →
      ∃ entry₁, net₁.neighbors.table.get eui64 = some entry₁ ∧
        entry₁.networkAddress = entry.networkAddress)
    (hactive : ∀ nextHop destination, net'.routing.ActiveVia nextHop destination →
      net₁.routing.ActiveVia nextHop destination) : Cut net net' := by
  intro eui64 entry hentry hlost destination
  obtain ⟨entry₁, hentry₁, haddress⟩ := hkept eui64 entry hentry
  by_cases hfirst : 0 < entry.outgoingCost ∧ entry₁.outgoingCost = 0
  · exact fun hroute => h eui64 entry hentry (.inr ⟨entry₁, hentry₁, hfirst⟩) destination
      (hactive _ _ hroute)
  · rw [← haddress]
    refine h' eui64 entry₁ hentry₁ (hlost.imp_right ?_) destination
    rintro ⟨entry', hentry', hpos, hzero⟩
    exact ⟨entry', hentry', UInt8.pos_iff_ne_zero.mpr fun hcost => hfirst ⟨hpos, hcost⟩, hzero⟩

theorem onLinkStatus_cut {net : Net} {ownAddress : Nwk} {sourceIeee : Eui64} {sourceNwk : Nwk}
    {lqi : UInt8} {command : NwkLinkStatusCommand} {now : Instant} :
    let result := net.neighbors.onLinkStatus ownAddress sourceIeee sourceNwk lqi command now
    Cut net { net with
      neighbors := result.2
      routing := result.1.elim net.routing net.routing.invalidateVia } := by
  intro result eui64 entry hentry hlost destination
  obtain ⟨⟨entry', hentry', hview'⟩, -, hreport⟩ := @Neighbors.onLinkStatus_linkView net.neighbors
    ownAddress sourceIeee sourceNwk lqi command now
  obtain ⟨inserted, htable⟩ : ∃ inserted, result.2.table =
      net.neighbors.table.insert sourceIeee inserted := ⟨_, rfl⟩
  by_cases hsource : eui64 = sourceIeee
  · subst hsource
    have hview : net.neighbors.linkView eui64 sourceNwk = entry.linkView := by
      unfold Neighbors.linkView
      rw [hentry]
      rfl
    obtain hnone | ⟨_, hsame, hpos, hzero⟩ := hlost
    · cases hnone.symm.trans hentry'
    · cases hsame.symm.trans hentry'
      rw [hview] at hview' hreport
      rw [← hview', if_pos ⟨hpos, hzero⟩] at hreport
      dsimp only
      rw [hreport]
      exact fun hactive => (Routing.activeVia_invalidateVia.mp hactive).2 rfl
  · -- another entry stays as it is
    rw [htable, FlatMap.get_insert, if_neg hsource, hentry] at hlost
    obtain hnone | ⟨_, hsame, hpos, hzero⟩ := hlost
    · cases hnone
    · cases hsame
      rw [hzero] at hpos
      exact absurd hpos (by decide)

theorem handleLinkStatus_cut {frame : NwkFrame} {command : NwkLinkStatusCommand} {lqi : UInt8}
    {net : Net} : Ensures net (handleLinkStatus env frame command lqi) (fun _ => Cut net) := by
  refine .bind (fun _ net₁ h₁ => And.intro h₁ (maybeAgeNeighbors_cut _ _ h₁)) ?_
  rintro _ net₁ ⟨h₁, hcut⟩
  cases frame.nwkHeader.sourceIeee with
  | none => exact .pure hcut
  | some sourceIeee =>
    refine .modify (hcut.trans onLinkStatus_cut ?_ ?_)
    · intro eui64 entry hentry
      cases h₁
      obtain ⟨entry₁, hentry₁, haddress, -⟩ := get_age hentry
      exact ⟨entry₁, hentry₁, haddress⟩
    · intro nextHop destination hactive
      dsimp only at hactive
      generalize (net₁.neighbors.onLinkStatus _ _ _ _ _ _).1 = lostLink at hactive
      cases lostLink with
      | none => exact hactive
      | some lost => exact (Routing.activeVia_invalidateVia.mp hactive).1

end

/-- No active route is left through what a handler loses, if and only if those through the
entries that it removes went to the removed addresses. -/
theorem cut_iff {env : Env} {net net' : Net} {handler : LossHandler}
    (h : handler.handle env net = .ok ((), net')) :
    Cut net net' ↔ ∀ eui64 ∈ handler.removed env net, ∀ entry,
      net.neighbors.table.get eui64 = some entry →
      ∀ destination, net.routing.ActiveVia entry.networkAddress destination →
        destination ∈ handler.unrouted env net ∨ handler.Rediscovers env net destination := by
  cases handler with
  | leave frame command => exact (handleLeave_removed _ _ h).leavesNone_iff
  | movedChild eui64 => exact (forgetMovedChild_removed _ _ h).leavesNone_iff
  | parentAnnce source asdu => exact (handleParentAnnce_removed _ _ h).leavesNone_iff
  | parentAnnceRsp asdu => exact (handleParentAnnceRsp_removed _ _ h).leavesNone_iff
  | childTimeout => exact (evictTimedOutChildren_removed _ _ h).leavesNone_iff
  | age =>
    exact ⟨fun _ _ hmem => absurd hmem List.not_mem_nil, fun _ => maybeAgeNeighbors_cut _ _ h⟩
  | linkStatus frame command lqi =>
    exact ⟨fun _ _ hmem => absurd hmem List.not_mem_nil, fun _ => handleLinkStatus_cut _ _ h⟩

namespace Example

/-- The header of a MAC frame for the coordinator. -/
def macHeader (frameType : Ieee802154FrameType) (srcAddrMode : Ieee802154AddressingMode)
    (srcAddress : Ieee802154Address) : Ieee802154FrameHeader where
  frameControl :=
    { frameType
      securityEnabled := false
      framePending := false
      ackRequest := true
      panIdCompression := true
      reserved1 := false
      sequenceNumberSuppression := false
      informationElementsPresent := false
      destAddrMode := .short
      frameVersion := .ieee2003
      srcAddrMode }
  sequenceNumber := some 0
  destPanId := some 0
  destAddress := some (.nwk 0)
  srcPanId := none
  srcAddress := some srcAddress

/-- A router asks to rejoin in the clear: the address that it has, and its EUI64. -/
def rejoinFrame (nwk : UInt8 × UInt8) (ieee : UInt8) : Ieee802154DataFrame FrameBytes where
  header := macHeader .data .short (.nwk 0x1234)
  payload := ⟨[0x09, 0x10, 0x00, 0x00, nwk.1, nwk.2, 0x1E, 0x00,
    ieee, 0x00, 0x00, 0x00, 0x00, 0x00, 0x00, 0x00, 0x06, 0x8E], by simp [maxPhyPacketSize]⟩
  fcs := 0

def rejoinsAs (nwk : UInt8 × UInt8) (ieee : UInt8) : Event := .data (rejoinFrame nwk ieee) 255 0

/-- The coordinator 0 with the EUI64 1, just configured. -/
def configured : ZigbeeStack := .plain (.plain .coordinator 0 1) 7

/-- The coordinator, with a route to a destination through 0x1234 that the client restored. -/
def restoredWith (destination : Nwk) : ZigbeeStack :=
  { configured with
    net.routing := configured.net.routing.restoreRoute destination 0x1234 1 }

/-- The router 5 at 0x1234 leaves. -/
def departure : LossHandler :=
  .leave
    { nwkHeader := ownHeader (.plain .router 0x1234 5) .command 0xFFFD none
      auxHeader := none
      payload := .command (.leave ⟨false, false, false⟩) }
    ⟨false, false, false⟩

/-- It rejoins and leaves: the states around its departure. -/
def departs (destination : Nwk) : Checked (Net × Net) := do
  let env := .plain .coordinator 0 1
  let (_, stack) ← (rejoinsAs (0x34, 0x12) 5).handle SoftwareBackend env (restoredWith destination)
  let (_, net') ← departure.handle env stack.net
  return (stack.net, net')

theorem handle_of_departs {destination : Nwk} {net net' : Net}
    (h : departs destination = .ok (net, net')) :
    departure.handle (.plain .coordinator 0 1) net = .ok ((), net') := by
  obtain ⟨⟨_, stack⟩, -, h⟩ := Checked.bind_eq_ok.mp h
  obtain ⟨⟨_, _⟩, hleft, h⟩ := Checked.bind_eq_ok.mp h
  cases h
  exact hleft

end Example

open Driver.Example in
/-- If the only route through a router that leaves is the one to itself, none is left. -/
theorem cut_iff_departure : ∃ net net',
    departs 0x1234 = .ok (net, net') ∧ (net.neighbors.table.get 5).isSome = true ∧
    net'.neighbors.table.get 5 = none ∧ net.routing.ActiveVia 0x1234 0x1234 ∧ Cut net net' := by
  have hfacts : (departs 0x1234).toOption.map (fun (net, net') =>
      ((net.neighbors.table.get 5).isSome, net'.neighbors.table.get 5,
        (net.routing.routeTable.get 0x1234).map (fun route => (route.status, route.nextHopAddress)),
        net.routing.routeTable.keys)) =
      some (true, none, some (.active, 0x1234), [0x1234]) := by
    decide +kernel
  obtain ⟨⟨net, net'⟩, hdeparts, hstates⟩ := Option.map_eq_some_iff.mp hfacts
  have hdeparts := Checked.eq_ok_of_toOption hdeparts
  obtain ⟨hsome, hnone, hroute, hkeys⟩ : _ ∧ _ ∧ _ ∧ _ := by
    simpa only [Prod.mk.injEq] using hstates
  obtain ⟨route, hget, hactive⟩ := Option.map_eq_some_iff.mp hroute
  injection hactive with hstatus hhop
  refine ⟨net, net', hdeparts, hsome, hnone, ⟨route, hget, hstatus, hhop⟩, ?_⟩
  refine (cut_iff (handle_of_departs hdeparts)).mpr ?_
  rintro eui64 - entry - destination ⟨other, hother, -⟩
  refine .inl ?_
  have hmem : destination ∈ net.routing.routeTable.keys :=
    FlatMap.mem_keys.mpr (hother ▸ rfl)
  rwa [hkeys] at hmem

open Driver.Example in
/-- The route to 0x2222 through a router that leaves stays active. -/
theorem route_survives_departure :
    ∃ net net', departs 0x2222 = .ok (net, net') ∧ ¬ Cut net net' := by
  have hfacts : (departs 0x2222).toOption.map (fun (net, net') =>
      ((net.neighbors.table.get 5).map (·.networkAddress), net'.neighbors.table.get 5,
        (net'.routing.routeTable.get 0x2222).map
          (fun route => (route.status, route.nextHopAddress)))) =
      some (some 0x1234, none, some (.active, 0x1234)) := by
    decide +kernel
  obtain ⟨⟨net, net'⟩, hdeparts, hstates⟩ := Option.map_eq_some_iff.mp hfacts
  have hdeparts := Checked.eq_ok_of_toOption hdeparts
  obtain ⟨haddress, hnone, hroute⟩ : _ ∧ _ ∧ _ := by
    simpa only [Prod.mk.injEq] using hstates
  obtain ⟨entry, hentry, hnwk⟩ := Option.map_eq_some_iff.mp haddress
  obtain ⟨route, hget, hactive⟩ := Option.map_eq_some_iff.mp hroute
  injection hactive with hstatus hhop
  refine ⟨net, net', hdeparts, fun hcut => ?_⟩
  exact hcut 5 entry hentry (.inl hnone) 0x2222 ⟨route, hget, hstatus, hhop.trans hnwk.symm⟩

end Driver

end Ziggurat
