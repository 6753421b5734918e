import Ziggurat.Nwk.RoutingRuns

/-!
# Routes that wait for a discovery

A route that is not active waits while a discovery for its destination is under way, and the
expiry of the discovery takes the route with it.  The waiting is kept by destination and the
discoveries by request, so the two can come apart: a request whose key is taken by a live discovery
leaves that discovery as it is, and an advertisement takes the place of whatever has its key.

`Tracked` has the runs in which every step keeps the two together, and `discoveries_tracked_iff`
says that no route is stuck in them, and which steps lead out of them.
-/

namespace Ziggurat.Routing

variable {routing routing' : Routing} {now : Instant}

/-! ## The condition -/

/-- Each route that waits has a discovery that is alive. -/
def Unstuck (routing : Routing) (now : Instant) : Prop :=
  ∀ destination, routing.routeStatus destination = some .discoveryUnderway →
    routing.Seeks now destination

/-- The time at which an operation expires the discoveries. -/
def Op.expiresAt : Op → Option Instant
  | .beginDiscovery _ _ now _ | .beginManyToOneAdvertisement _ now _ => some now
  | .acceptRouteRequest _ _ _ _ _ _ now _ => some now
  | _ => none

/-- A request for the destination under this key is on record afterwards: the destination has a
live discovery already, or the key is free. -/
def Follows (routing : Routing) (key : SourceNumber) (destination : Nwk) (now : Instant)
    (routeDiscoveryTime : Duration) : Prop :=
  routing.Seeks now destination ∨
    (∀ discovery, routing.discoveryTable.get key = some discovery →
      discovery.expirationTime ≤ now) ∧ now < now.add routeDiscoveryTime

/-- A request of our own is on record, and an advertisement does not take the place of the last
discovery that a route waits for. -/
def Op.Tracks (routing : Routing) : Op → Prop
  | .beginDiscovery ownAddress destination now routeDiscoveryTime =>
    routing.Follows (.mk ownAddress (routing.requestSequenceNumber + 1)) destination now
      routeDiscoveryTime
  | .beginManyToOneAdvertisement ownAddress now routeDiscoveryTime =>
    let key := SourceNumber.mk ownAddress (routing.requestSequenceNumber + 1)
    ∀ discovery, routing.discoveryTable.get key = some discovery →
      now < discovery.expirationTime →
      routing.routeStatus discovery.destinationAddress = some .discoveryUnderway →
        (∃ other ≠ key, ∃ discovery', routing.discoveryTable.get other = some discovery' ∧
          now < discovery'.expirationTime ∧
          discovery'.destinationAddress = discovery.destinationAddress) ∨
        discovery.destinationAddress = broadcastAllRoutersAndCoordinator ∧
          now < now.add routeDiscoveryTime
  | _ => True

/-- A route request that arrives. -/
structure Request where
  originator : Nwk
  requestId : RouteRequestId
  destination : Nwk
  sender : Nwk
  updatedPathCost : UInt8
  manyToOne : NwkRouteRequestManyToOne
  now : Instant
  routeDiscoveryTime : Duration

namespace Request

def accept (routing : Routing) (request : Request) : RouteRequestOutcome × Routing :=
  routing.acceptRouteRequest request.originator request.requestId request.destination
    request.sender request.updatedPathCost request.manyToOne request.now
    request.routeDiscoveryTime

/-- The driver relays a request that was accepted. -/
def relay (routing : Routing) (request : Request) : Routing :=
  (request.accept routing).2.noteRelayedDiscovery request.destination

/-- A request that is relayed is on record, or no route waits for it. -/
def Tracks (routing : Routing) (request : Request) : Prop :=
  request.originator = request.destination ∨
    routing.routeStatus request.destination = some .active ∨
    routing.Follows (.mk request.originator request.requestId) request.destination request.now
      request.routeDiscoveryTime

end Request

/-- The runs from the empty tables whose steps all meet the condition.  The driver calls
`note_relayed_discovery` only right after a request was accepted. -/
inductive Tracked : Routing → Prop where
  | start : Tracked {}
  | step {routing : Routing} (op : Op) (tracked : Tracked routing)
      (plain : ∀ destination, op ≠ .noteRelayedDiscovery destination)
      (tracks : op.Tracks routing) : Tracked (op.apply routing)
  | relay {routing : Routing} (request : Request) (tracked : Tracked routing)
      (accepted : (request.accept routing).1.accepted = true)
      (tracks : request.Tracks routing) : Tracked (request.relay routing)
  | restore {routing : Routing} (destination nextHop : Nwk) (pathCost : UInt8)
      (tracked : Tracked routing) : Tracked (routing.restoreRoute destination nextHop pathCost)

/-! ## Steps -/

/-- Each route that waits has a discovery, alive or not. -/
def Served (routing : Routing) : Prop :=
  ∀ destination, routing.routeStatus destination = some .discoveryUnderway →
    ∃ discovery ∈ routing.discoveryTable.values, discovery.destinationAddress = destination

theorem Unstuck.served (h : routing.Unstuck now) : routing.Served := by
  intro destination hwaits
  obtain ⟨discovery, hmem, -, hdestination⟩ := h destination hwaits
  exact ⟨discovery, hmem, hdestination⟩

/-- Expiry leaves no route waiting for a discovery that is gone. -/
theorem Served.seeks_of_expireDiscoveries (h : routing.Served) {destination : Nwk}
    (hwaits : (routing.expireDiscoveries now).routeStatus destination =
      some .discoveryUnderway) :
    routing.routeStatus destination = some .discoveryUnderway ∧
      routing.Seeks now destination := by
  rw [routeStatus, get_expireDiscoveries] at hwaits
  split at hwaits
  next => cases hwaits
  next hkept =>
    obtain ⟨discovery, hmem, hdestination⟩ := h destination hwaits
    refine ⟨hwaits, ?_⟩
    by_cases hlive : now < discovery.expirationTime
    · exact ⟨discovery, hmem, hlive, hdestination⟩
    · by_contra hseeks
      exact hkept ⟨⟨discovery, hmem, Nat.le_of_not_lt hlive, hdestination⟩, hseeks, hwaits⟩

theorem routeStatus_expireDiscoveries_of_seeks {destination : Nwk}
    (h : routing.Seeks now destination) :
    (routing.expireDiscoveries now).routeStatus destination = routing.routeStatus destination := by
  rw [routeStatus, get_expireDiscoveries, if_neg fun hgone => hgone.2.1 h]
  rfl

theorem routeStatus_expireDiscoveries_eq_active {destination : Nwk} :
    (routing.expireDiscoveries now).routeStatus destination = some .active ↔
      routing.routeStatus destination = some .active := by
  rw [routeStatus, get_expireDiscoveries]
  split
  next hgone =>
    rw [hgone.2.2]
    exact iff_of_false (by simp) (by simp)
  next => exact Iff.rfl

theorem get_expireDiscoveries_eq_none {key : SourceNumber} :
    (routing.expireDiscoveries now).discoveryTable.get key = none ↔
      ∀ discovery, routing.discoveryTable.get key = some discovery →
        discovery.expirationTime ≤ now := by
  rw [get_expireDiscoveries_discoveryTable, Option.filter_eq_none_iff]
  simp only [decide_eq_true_eq, Nat.not_lt]

/-- A request is put on record under its key, unless the key is taken. -/
theorem seeks_insert_iff {key : SourceNumber} {discovery : DiscoveryEntry} {destination : Nwk}
    {expirationTime : Instant}
    (htable : routing'.discoveryTable =
      (routing.expireDiscoveries now).discoveryTable.insert key discovery)
    (hkept : ∀ held, (routing.expireDiscoveries now).discoveryTable.get key = some held →
      discovery.expirationTime = held.expirationTime ∧
        discovery.destinationAddress = held.destinationAddress)
    (hnew : (routing.expireDiscoveries now).discoveryTable.get key = none →
      discovery.expirationTime = expirationTime ∧ discovery.destinationAddress = destination)
    (other : Nwk) :
    routing'.Seeks now other ↔ routing.Seeks now other ∨
      other = destination ∧ (∀ held, routing.discoveryTable.get key = some held →
        held.expirationTime ≤ now) ∧ now < expirationTime := by
  rw [← get_expireDiscoveries_eq_none, ← @seeks_expireDiscoveries routing now other]
  simp only [Seeks, FlatMap.mem_values, htable, FlatMap.get_insert]
  constructor
  · rintro ⟨found, ⟨other', hget⟩, hlive, rfl⟩
    split at hget
    next =>
      cases hget
      cases hheld : (routing.expireDiscoveries now).discoveryTable.get key with
      | none =>
        obtain ⟨hexpires, hdestination⟩ := hnew hheld
        exact .inr ⟨hdestination, rfl, hexpires ▸ hlive⟩
      | some held =>
        obtain ⟨hexpires, hdestination⟩ := hkept held hheld
        exact .inl ⟨held, ⟨key, hheld⟩, hexpires ▸ hlive, hdestination.symm⟩
    next => exact .inl ⟨found, ⟨other', hget⟩, hlive, rfl⟩
  · rintro (⟨found, ⟨other', hget⟩, hlive, rfl⟩ | ⟨rfl, hnone, hlive⟩)
    · by_cases hother : other' = key
      · subst hother
        obtain ⟨hexpires, hdestination⟩ := hkept found hget
        exact ⟨discovery, ⟨other', if_pos rfl⟩, hexpires ▸ hlive, hdestination⟩
      · exact ⟨found, ⟨other', (if_neg hother).trans hget⟩, hlive, rfl⟩
    · obtain ⟨hexpires, hdestination⟩ := hnew hnone
      exact ⟨discovery, ⟨key, if_pos rfl⟩, hexpires ▸ hlive, hdestination⟩

theorem unstuck_beginDiscovery_iff (h : routing.Served) (ownAddress destination : Nwk)
    (now : Instant) (routeDiscoveryTime : Duration) :
    (routing.beginDiscovery ownAddress destination now routeDiscoveryTime).2.Unstuck now ↔
      Op.Tracks routing (.beginDiscovery ownAddress destination now routeDiscoveryTime) := by
  set begun := (routing.beginDiscovery ownAddress destination now routeDiscoveryTime).2 with hbegun
  have hseeks (other : Nwk) := @seeks_insert_iff routing begun now
    (.mk ownAddress (routing.requestSequenceNumber + 1))
    (((routing.expireDiscoveries now).discoveryTable.get
      (.mk ownAddress (routing.requestSequenceNumber + 1))).getD
        (ownDiscovery ownAddress destination (routing.requestSequenceNumber + 1) now
          routeDiscoveryTime))
    destination (now.add routeDiscoveryTime) rfl
    (fun held hheld => by rw [hheld]; exact ⟨rfl, rfl⟩)
    (fun hnone => by rw [hnone]; exact ⟨rfl, rfl⟩) other
  have hstatus (other : Nwk) : begun.routeStatus other =
      if other = destination then some .discoveryUnderway
      else (routing.expireDiscoveries now).routeStatus other := by
    rw [routeStatus, hbegun, beginDiscovery, FlatMap.get_insert]
    split
    · rfl
    · rfl
  constructor
  · intro hunstuck
    obtain hlive | ⟨-, hfree⟩ :=
      (hseeks destination).mp (hunstuck destination ((hstatus destination).trans (if_pos rfl)))
    · exact .inl hlive
    · exact .inr hfree
  · intro htracks other hwaits
    by_cases hother : other = destination
    · subst hother
      exact (hseeks other).mpr (htracks.imp_right fun hfree => ⟨rfl, hfree⟩)
    · rw [hstatus, if_neg hother] at hwaits
      exact (hseeks other).mpr (.inl (h.seeks_of_expireDiscoveries hwaits).2)

theorem unstuck_beginManyToOneAdvertisement_iff (h : routing.Served) (ownAddress : Nwk)
    (now : Instant) (routeDiscoveryTime : Duration) :
    (routing.beginManyToOneAdvertisement ownAddress now routeDiscoveryTime).2.Unstuck now ↔
      Op.Tracks routing (.beginManyToOneAdvertisement ownAddress now routeDiscoveryTime) := by
  set begun := (routing.beginManyToOneAdvertisement ownAddress now routeDiscoveryTime).2
    with hbegun
  set key := SourceNumber.mk ownAddress (routing.requestSequenceNumber + 1) with hkey
  have hstatus (other : Nwk) : begun.routeStatus other =
      (routing.expireDiscoveries now).routeStatus other := rfl
  have hseeks (other : Nwk) : begun.Seeks now other ↔
      (∃ other' ≠ key, ∃ discovery, routing.discoveryTable.get other' = some discovery ∧
        now < discovery.expirationTime ∧ discovery.destinationAddress = other) ∨
      other = broadcastAllRoutersAndCoordinator ∧ now < now.add routeDiscoveryTime := by
    have hget (other' : SourceNumber) : begun.discoveryTable.get other' =
        if other' = key then some (ownDiscovery ownAddress broadcastAllRoutersAndCoordinator
          (routing.requestSequenceNumber + 1) now routeDiscoveryTime)
        else (routing.expireDiscoveries now).discoveryTable.get other' := FlatMap.get_insert ..
    simp only [Seeks, FlatMap.mem_values, hget, get_expireDiscoveries_discoveryTable]
    constructor
    · rintro ⟨discovery, ⟨other', hfound⟩, hlive, rfl⟩
      split at hfound
      next =>
        cases hfound
        exact .inr ⟨rfl, hlive⟩
      next hother =>
        exact .inl ⟨other', hother, discovery, (Option.filter_eq_some_iff.mp hfound).1, hlive, rfl⟩
    · rintro (⟨other', hother, discovery, hfound, hlive, rfl⟩ | ⟨rfl, hlive⟩)
      · refine ⟨discovery, ⟨other', (if_neg hother).trans ?_⟩, hlive, rfl⟩
        exact Option.filter_eq_some_iff.mpr ⟨hfound, decide_eq_true hlive⟩
      · exact ⟨_, ⟨key, if_pos rfl⟩, hlive, rfl⟩
  constructor
  · intro hunstuck discovery hdiscovery hlive hwaits
    have hsought : routing.Seeks now discovery.destinationAddress :=
      ⟨discovery, FlatMap.mem_values.mpr ⟨key, hdiscovery⟩, hlive, rfl⟩
    refine (hseeks discovery.destinationAddress).mp (hunstuck _ ?_)
    rw [hstatus, routeStatus_expireDiscoveries_of_seeks hsought, hwaits]
  · intro htracks other hwaits
    obtain ⟨hwaited, discovery, hmem, hlive, rfl⟩ := h.seeks_of_expireDiscoveries hwaits
    obtain ⟨other', hget⟩ := FlatMap.mem_values.mp hmem
    refine (hseeks _).mpr ?_
    by_cases hother : other' = key
    · exact htracks discovery ((congrArg _ hother).symm.trans hget) hlive hwaited
    · exact .inl ⟨other', hother, discovery, hget, hlive, rfl⟩

theorem TableEntry.status_considerRoute (entry : TableEntry) (nextHop : Nwk) (cost : UInt8)
    (manyToOne : NwkRouteRequestManyToOne) :
    ((entry.considerRoute nextHop cost).2.noteManyToOne manyToOne).status = .active := by
  have hconsider : (entry.considerRoute nextHop cost).2.status = .active := by
    unfold considerRoute
    split
    next h => exact h.1
    next => rfl
  unfold noteManyToOne
  split
  · exact hconsider
  · exact hconsider

namespace Request

variable {request : Request}

/-- The tables after a request was accepted. -/
theorem accept_tables (h : (request.accept routing).1.accepted = true) :
    ∃ discovery entry, entry.status = .active ∧
      (∀ held, (routing.expireDiscoveries request.now).discoveryTable.get
          (.mk request.originator request.requestId) = some held →
        discovery.expirationTime = held.expirationTime ∧
          discovery.destinationAddress = held.destinationAddress) ∧
      ((routing.expireDiscoveries request.now).discoveryTable.get
          (.mk request.originator request.requestId) = none →
        discovery.expirationTime = request.now.add request.routeDiscoveryTime ∧
          discovery.destinationAddress = request.destination) ∧
      (request.accept routing).2.discoveryTable =
        (routing.expireDiscoveries request.now).discoveryTable.insert
          (.mk request.originator request.requestId) discovery ∧
      (request.accept routing).2.routeTable =
        (routing.expireDiscoveries request.now).routeTable.insert request.originator entry := by
  dsimp only [accept, acceptRouteRequest] at h ⊢
  cases hoffer : offerRouteRequest ((routing.expireDiscoveries request.now).discoveryTable.get
      (.mk request.originator request.requestId)) request.originator request.requestId
      request.destination request.sender request.updatedPathCost request.now
      request.routeDiscoveryTime with
  | none =>
    rw [hoffer] at h
    cases h
  | some discovery =>
    refine ⟨discovery, _, TableEntry.status_considerRoute .., fun held hheld => ?_,
      fun hnone => ?_, rfl, rfl⟩
    · rw [hheld] at hoffer
      dsimp only [offerRouteRequest] at hoffer
      split at hoffer
      · cases hoffer
      · cases hoffer
        exact ⟨rfl, rfl⟩
    · rw [hnone] at hoffer
      cases hoffer
      exact ⟨rfl, rfl⟩

theorem accept_of_not_accepted (h : (request.accept routing).1.accepted = false) :
    (request.accept routing).2 = routing.expireDiscoveries request.now := by
  dsimp only [accept, acceptRouteRequest] at h ⊢
  split
  next => rfl
  next discovery hoffer =>
    rw [hoffer] at h
    cases h

/-- A request that arrives leaves no route waiting for nothing. -/
theorem unstuck_accept (h : routing.Served) (request : Request) :
    (request.accept routing).2.Unstuck request.now := by
  intro other hwaits
  cases haccepted : (request.accept routing).1.accepted with
  | false =>
    rw [accept_of_not_accepted haccepted] at hwaits ⊢
    exact seeks_expireDiscoveries.mpr (h.seeks_of_expireDiscoveries hwaits).2
  | true =>
    obtain ⟨discovery, entry, hactive, hkept, hnew, hdiscoveries, hroutes⟩ :=
      accept_tables haccepted
    rw [routeStatus, hroutes, FlatMap.get_insert] at hwaits
    split at hwaits
    next =>
      rw [Option.map_some, hactive] at hwaits
      cases hwaits
    next =>
      exact (seeks_insert_iff hdiscoveries hkept hnew other).mpr
        (.inl (h.seeks_of_expireDiscoveries hwaits).2)

theorem routeStatus_relay_of_ne {other : Nwk} (hother : other ≠ request.destination) :
    (request.relay routing).routeStatus other = (request.accept routing).2.routeStatus other := by
  rw [routeStatus, relay, noteRelayedDiscovery, FlatMap.get_insert, if_neg hother]
  rfl

/-- The route to the destination waits unless it is active. -/
theorem routeStatus_relay : (request.relay routing).routeStatus request.destination =
    if (request.accept routing).2.routeStatus request.destination = some .active then some .active
    else some .discoveryUnderway := by
  rw [routeStatus, relay, noteRelayedDiscovery, FlatMap.get_insert, if_pos rfl, routeStatus]
  cases (request.accept routing).2.routeTable.get request.destination with
  | none => rfl
  | some entry =>
    by_cases hactive : entry.status = .active
    · simp [hactive]
    · simp [hactive]

theorem unstuck_relay_iff (h : routing.Served)
    (haccepted : (request.accept routing).1.accepted = true) :
    (request.relay routing).Unstuck request.now ↔ request.Tracks routing := by
  obtain ⟨discovery, entry, hactive, hkept, hnew, hdiscoveries, hroutes⟩ :=
    accept_tables haccepted
  have hseeks (other : Nwk) : (request.relay routing).Seeks request.now other ↔ _ :=
    @seeks_insert_iff routing (request.relay routing) request.now _ discovery _ _ hdiscoveries
      hkept hnew other
  have hrest : (request.relay routing).Unstuck request.now ↔
      ((request.accept routing).2.routeStatus request.destination ≠ some .active →
        (request.relay routing).Seeks request.now request.destination) := by
    constructor
    · exact fun hunstuck hinactive => hunstuck _ (routeStatus_relay.trans (if_neg hinactive))
    · intro hsought other hwaits
      by_cases hother : other = request.destination
      · rw [hother, routeStatus_relay] at hwaits
        rw [hother]
        split at hwaits
        next => cases hwaits
        next hinactive => exact hsought hinactive
      · rw [routeStatus_relay_of_ne hother] at hwaits
        exact unstuck_accept h request other hwaits
  have hstatus : (request.accept routing).2.routeStatus request.destination = some .active ↔
      request.originator = request.destination ∨
        routing.routeStatus request.destination = some .active := by
    rw [routeStatus, hroutes, FlatMap.get_insert]
    by_cases horiginator : request.destination = request.originator
    · rw [if_pos horiginator, Option.map_some, hactive]
      exact iff_of_true rfl (.inl horiginator.symm)
    · rw [if_neg horiginator, or_iff_right fun heq => horiginator heq.symm]
      exact routeStatus_expireDiscoveries_eq_active
  rw [hrest, hseeks, Ne, hstatus]
  unfold Tracks Follows
  grind

end Request

/-- No discovery goes and no route starts to wait. -/
structure Calm (routing routing' : Routing) : Prop where
  sought : ∀ key discovery, routing.discoveryTable.get key = some discovery →
    ∃ discovery', routing'.discoveryTable.get key = some discovery' ∧
      discovery'.destinationAddress = discovery.destinationAddress
  waits : ∀ destination, routing'.routeStatus destination = some .discoveryUnderway →
    routing.routeStatus destination = some .discoveryUnderway

theorem Calm.served (hcalm : Calm routing routing') (h : routing.Served) : routing'.Served := by
  intro destination hwaits
  obtain ⟨discovery, hmem, rfl⟩ := h destination (hcalm.waits destination hwaits)
  obtain ⟨key, hget⟩ := FlatMap.mem_values.mp hmem
  obtain ⟨discovery', hget', hdestination⟩ := hcalm.sought key discovery hget
  exact ⟨discovery', FlatMap.mem_values.mpr ⟨key, hget'⟩, hdestination⟩

theorem calm_modifyRoute {destination : Nwk} {f : TableEntry → TableEntry}
    (hf : ∀ entry, (f entry).status = .discoveryUnderway → entry.status = .discoveryUnderway) :
    Calm routing (routing.modifyRoute destination f) := by
  unfold modifyRoute
  split
  next entry hget =>
    refine ⟨fun _ discovery h => ⟨discovery, h, rfl⟩, fun other hwaits => ?_⟩
    rw [routeStatus, FlatMap.get_set] at hwaits
    split at hwaits
    next hother =>
      rw [routeStatus, hother, hget]
      exact congrArg some (hf entry (Option.some.inj hwaits))
    next => exact hwaits
  next => exact ⟨fun _ discovery h => ⟨discovery, h, rfl⟩, fun _ h => h⟩

theorem calm_mapVal {f : Nwk → TableEntry → TableEntry}
    (hf : ∀ d entry, (f d entry).status = .discoveryUnderway →
      entry.status = .discoveryUnderway) :
    Calm routing { routing with routeTable := routing.routeTable.mapVal f } := by
  refine ⟨fun _ discovery h => ⟨discovery, h, rfl⟩, fun destination hwaits => ?_⟩
  rw [routeStatus, FlatMap.get_mapVal] at hwaits
  rw [routeStatus]
  cases hget : routing.routeTable.get destination with
  | none =>
    rw [hget] at hwaits
    cases hwaits
  | some entry =>
    rw [hget] at hwaits
    exact congrArg some (hf destination entry (Option.some.inj hwaits))

theorem Calm.trans {routing'' : Routing} (h : Calm routing routing')
    (h' : Calm routing' routing'') : Calm routing routing'' := by
  refine ⟨fun key discovery hget => ?_, fun destination hwaits =>
    h.waits destination (h'.waits destination hwaits)⟩
  obtain ⟨discovery', hget', hdestination⟩ := h.sought key discovery hget
  obtain ⟨discovery'', hget'', hdestination'⟩ := h'.sought key discovery' hget'
  exact ⟨discovery'', hget'', hdestination'.trans hdestination⟩

theorem calm_insert {destination : Nwk} {entry : TableEntry}
    (hentry : entry.status ≠ .discoveryUnderway) :
    Calm routing { routing with routeTable := routing.routeTable.insert destination entry } := by
  refine ⟨fun _ discovery h => ⟨discovery, h, rfl⟩, fun other hwaits => ?_⟩
  rw [routeStatus, FlatMap.get_insert] at hwaits
  split at hwaits
  next => exact absurd (Option.some.inj hwaits) hentry
  next => exact hwaits

theorem calm_setDiscovery {key : SourceNumber} {discovery discovery' : DiscoveryEntry}
    (hget : routing.discoveryTable.get key = some discovery)
    (hdestination : discovery'.destinationAddress = discovery.destinationAddress) :
    Calm routing
      { routing with discoveryTable := routing.discoveryTable.set key discovery' } := by
  refine ⟨fun other found hfound => ?_, fun _ h => h⟩
  rw [FlatMap.get_set]
  split
  next hother =>
    subst hother
    cases hget.symm.trans hfound
    exact ⟨discovery', rfl, hdestination⟩
  next => exact ⟨found, hfound, rfl⟩

theorem calm_acceptRouteReply (ownAddress originator : Nwk) (requestId : RouteRequestId)
    (responder sender : Nwk) (updatedPathCost : UInt8) :
    Calm routing (routing.acceptRouteReply ownAddress originator requestId responder sender
      updatedPathCost).2 := by
  have hrefl : Calm routing routing :=
    ⟨fun _ discovery h => ⟨discovery, h, rfl⟩, fun _ h => h⟩
  dsimp only [acceptRouteReply]
  split
  next => exact hrefl
  next discovery hdiscovery =>
    split
    next => exact hrefl
    next entry hentry =>
      set routed : Routing := { routing with
        routeTable := routing.routeTable.set responder
          { entry with status := .active, nextHopAddress := sender, pathCost := updatedPathCost }
        discoveryTable := routing.discoveryTable.set (.mk originator requestId)
          { discovery with residualCost := updatedPathCost } }
      have hset : Calm routing { routing with
          discoveryTable := routing.discoveryTable.set (.mk originator requestId)
            { discovery with residualCost := updatedPathCost } } :=
        calm_setDiscovery hdiscovery rfl
      have hrouted : Calm routing routed := hset.trans (calm_insert nofun)
      split
      · split
        · exact hrefl
        · exact hrouted
      · split
        · exact hrefl
        · refine hrouted.trans (calm_insert fun hwaits => ?_)
          have hactive := TableEntry.status_considerRoute (routed.entryOrNew originator)
            discovery.senderAddress discovery.forwardCost .notManyToOne
          cases hactive.symm.trans hwaits

/-- The operations that do not expire discoveries let no route start to wait, but for the one
before a request is relayed. -/
theorem Op.calm {op : Op} (hplain : ∀ destination, op ≠ .noteRelayedDiscovery destination)
    (hexpires : op.expiresAt = none) : Calm routing (op.apply routing) := by
  cases op with
  | beginDiscovery | beginManyToOneAdvertisement | acceptRouteRequest => cases hexpires
  | noteRelayedDiscovery destination => exact absurd rfl (hplain destination)
  | acceptRouteReply => exact calm_acceptRouteReply ..
  | invalidateVia nextHop =>
    refine calm_mapVal fun _ entry hwaits => ?_
    split at hwaits
    · cases hwaits
    · exact hwaits
  | markDiscoveryFailed destination => exact calm_modifyRoute fun _ => nofun
  | removeRoute destination =>
    refine ⟨fun _ discovery h => ⟨discovery, h, rfl⟩, fun other hwaits => ?_⟩
    replace hwaits : ((routing.routeTable.remove destination).get other).map (·.status) =
      some .discoveryUnderway := hwaits
    rw [FlatMap.get_remove] at hwaits
    split at hwaits
    · cases hwaits
    · exact hwaits
  | recordUsage destination => exact calm_modifyRoute fun _ hwaits => hwaits
  | decayActivity =>
    refine calm_mapVal fun _ entry hwaits => ?_
    split at hwaits
    · exact hwaits
    · exact hwaits
  | noteSourceRoutedFrame concentrator =>
    refine calm_modifyRoute fun entry hwaits => ?_
    split at hwaits
    · exact hwaits
    · exact hwaits

/-- An operation that expires discoveries leaves no route stuck exactly if it meets the
condition. -/
theorem Op.unstuck_iff (h : routing.Served) {op : Op} (hexpires : op.expiresAt = some now) :
    (op.apply routing).Unstuck now ↔ op.Tracks routing := by
  cases op with
  | beginDiscovery =>
    cases hexpires
    exact unstuck_beginDiscovery_iff h ..
  | beginManyToOneAdvertisement =>
    cases hexpires
    exact unstuck_beginManyToOneAdvertisement_iff h ..
  | acceptRouteRequest originator requestId destination sender updatedPathCost manyToOne now
      routeDiscoveryTime =>
    cases hexpires
    exact iff_of_true (Request.unstuck_accept h ⟨originator, requestId, destination, sender,
      updatedPathCost, manyToOne, now, routeDiscoveryTime⟩) trivial
  | noteRelayedDiscovery | acceptRouteReply | invalidateVia | markDiscoveryFailed | removeRoute
  | recordUsage | decayActivity | noteSourceRoutedFrame => cases hexpires

/-! ## Runs -/

theorem Tracked.served (h : Tracked routing) : routing.Served := by
  induction h with
  | start => exact nofun
  | step op _ plain tracks ih =>
    cases hexpires : op.expiresAt with
    | none => exact (Op.calm plain hexpires).served ih
    | some now => exact ((Op.unstuck_iff ih hexpires).mpr tracks).served
  | relay request _ accepted tracks ih =>
    exact ((Request.unstuck_relay_iff ih accepted).mpr tracks).served
  | @restore routing destination nextHop pathCost _ ih =>
    have hcalm : Calm routing (routing.restoreRoute destination nextHop pathCost) :=
      calm_insert nofun
    exact hcalm.served ih

/-- In every run whose steps meet the condition, no route is stuck right after an operation that
expired discoveries, and none right after the request was relayed; and the next step keeps it so
exactly if it meets the condition. -/
theorem discoveries_tracked_iff (routing : Routing) (h : Tracked routing) :
    (∀ (op : Op) (now : Instant), op.expiresAt = some now →
      ((op.apply routing).Unstuck now ↔ op.Tracks routing)) ∧
    ∀ request : Request, (request.accept routing).1.accepted = true →
      ((request.relay routing).Unstuck request.now ↔ request.Tracks routing) :=
  ⟨fun _ _ => Op.unstuck_iff h.served, fun _ => Request.unstuck_relay_iff h.served⟩

namespace Example

/-- A request of node 5 under the identifier 1, heard from node 9. -/
def requestFor (destination : Nwk) (now : Instant) : Request where
  originator := 5
  requestId := 1
  destination := destination
  sender := 9
  updatedPathCost := 3
  manyToOne := .notManyToOne
  now := now
  routeDiscoveryTime := 10000000

/-- Node 5 looks for node 7. -/
def firstRelayed : Routing := (requestFor 7 0).relay {}

theorem tracked_firstRelayed : Tracked firstRelayed :=
  .relay (requestFor 7 0) .start (by decide +kernel) (.inr (.inr (.inr ⟨nofun, by decide⟩)))

end Example

open Routing.Example in
/-- The next request of node 5 is for node 8, and comes after the first one has expired. -/
theorem discoveries_tracked_iff_later : Tracked firstRelayed ∧
    ((requestFor 8 10000000).accept firstRelayed).1.accepted = true ∧
    ((requestFor 8 10000000).relay firstRelayed).Unstuck 10000000 := by
  have haccepted : ((requestFor 8 10000000).accept firstRelayed).1.accepted = true := by
    decide +kernel
  refine ⟨tracked_firstRelayed, haccepted,
    ((discoveries_tracked_iff firstRelayed tracked_firstRelayed).2 (requestFor 8 10000000)
      haccepted).mpr (.inr (.inr (.inr ⟨?_, by decide⟩)))⟩
  have hexpires : (firstRelayed.discoveryTable.get (.mk 5 1)).map (·.expirationTime) =
      some 10000000 := by decide +kernel
  intro discovery hdiscovery
  rw [show firstRelayed.discoveryTable.get (.mk 5 1) = some discovery from hdiscovery] at hexpires
  exact Nat.le_of_eq (Option.some.inj hexpires)

open Routing.Example in
/-- Node 5 restarts, and looks for node 8 under the same identifier.  No discovery is on record
for node 8, and an hour later its route still waits for one. -/
theorem discovery_stuck : Tracked firstRelayed ∧
    ((requestFor 8 1000).accept firstRelayed).1.accepted = true ∧
    ¬ ((Op.beginManyToOneAdvertisement 1 3600000000 10000000).apply
      ((requestFor 8 1000).relay firstRelayed)).Unstuck 3600000000 := by
  refine ⟨tracked_firstRelayed, by decide +kernel, fun h => ?_⟩
  have hseeks := h 8 (by decide +kernel)
  exact absurd hseeks (by decide +kernel)

end Ziggurat.Routing
