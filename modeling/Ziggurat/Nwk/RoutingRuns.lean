import Ziggurat.Nwk.RoutingSpec

/-!
# Runs of the routing operations

`Op` has the operations by which the driver changes the route table and the discovery table, and
this file has what holds of their pointers over runs of them, in any order:

* `suitable_iff`: an active route only gives way to a cheaper one.  `considerRoute` sees to that.
  A route reply compares with the residual cost of its discovery instead, and so may replace a
  route by a dearer one.
* `active_routes_grounded`: an active route has a real next hop.  The discoveries of our own hold
  the placeholder where the others have the neighbor that sent the request.

Both only need the pointers of the tables; `toward_expireDiscoveries` says that those of the route
table outlive every discovery.
-/

namespace Ziggurat.Routing

/-! ## The operations -/

inductive Op where
  | beginDiscovery (ownAddress destination : Nwk) (now : Instant) (routeDiscoveryTime : Duration)
  | beginManyToOneAdvertisement (ownAddress : Nwk) (now : Instant) (routeDiscoveryTime : Duration)
  | acceptRouteRequest (originator : Nwk) (requestId : RouteRequestId) (destination sender : Nwk)
      (updatedPathCost : UInt8) (manyToOne : NwkRouteRequestManyToOne) (now : Instant)
      (routeDiscoveryTime : Duration)
  | noteRelayedDiscovery (destination : Nwk)
  | acceptRouteReply (ownAddress originator : Nwk) (requestId : RouteRequestId)
      (responder sender : Nwk) (updatedPathCost : UInt8)
  | invalidateVia (nextHop : Nwk)
  | markDiscoveryFailed (destination : Nwk)
  | removeRoute (destination : Nwk)
  | recordUsage (destination : Nwk)
  | decayActivity
  | noteSourceRoutedFrame (concentrator : Nwk)

def Op.apply (routing : Routing) : Op → Routing
  | .beginDiscovery ownAddress destination now routeDiscoveryTime =>
    (routing.beginDiscovery ownAddress destination now routeDiscoveryTime).2
  | .beginManyToOneAdvertisement ownAddress now routeDiscoveryTime =>
    (routing.beginManyToOneAdvertisement ownAddress now routeDiscoveryTime).2
  | .acceptRouteRequest originator requestId destination sender updatedPathCost manyToOne now
      routeDiscoveryTime =>
    (routing.acceptRouteRequest originator requestId destination sender updatedPathCost manyToOne
      now routeDiscoveryTime).2
  | .noteRelayedDiscovery destination => routing.noteRelayedDiscovery destination
  | .acceptRouteReply ownAddress originator requestId responder sender updatedPathCost =>
    (routing.acceptRouteReply ownAddress originator requestId responder sender updatedPathCost).2
  | .invalidateVia nextHop => routing.invalidateVia nextHop
  | .markDiscoveryFailed destination => routing.markDiscoveryFailed destination
  | .removeRoute destination => (routing.removeRoute destination).2
  | .recordUsage destination => routing.recordUsage destination
  | .decayActivity => routing.decayActivity
  | .noteSourceRoutedFrame concentrator => routing.noteSourceRoutedFrame concentrator

variable {routing routing' : Routing} {now : Instant}

/-! ## Expiry -/

/-- Some discovery of the destination is still alive. -/
def Seeks (routing : Routing) (now : Instant) (destination : Nwk) : Prop :=
  ∃ discovery ∈ routing.discoveryTable.values,
    now < discovery.expirationTime ∧ discovery.destinationAddress = destination

instance (routing : Routing) (now : Instant) (destination : Nwk) :
    Decidable (routing.Seeks now destination) :=
  inferInstanceAs (Decidable (∃ discovery ∈ routing.discoveryTable.values, _))

theorem get_expireDiscoveries_discoveryTable (key : SourceNumber) :
    (routing.expireDiscoveries now).discoveryTable.get key =
      (routing.discoveryTable.get key).filter fun discovery => now < discovery.expirationTime :=
  FlatMap.get_retain ..

theorem seeks_expireDiscoveries {destination : Nwk} :
    (routing.expireDiscoveries now).Seeks now destination ↔ routing.Seeks now destination := by
  simp only [Seeks, FlatMap.mem_values, get_expireDiscoveries_discoveryTable,
    Option.filter_eq_some_iff, decide_eq_true_eq]
  grind

/-- Only a route that waited for an expired discovery is removed. -/
theorem get_expireDiscoveries (destination : Nwk) :
    (routing.expireDiscoveries now).routeTable.get destination =
      if (∃ discovery ∈ routing.discoveryTable.values, discovery.expirationTime ≤ now ∧
          discovery.destinationAddress = destination) ∧ ¬ routing.Seeks now destination ∧
          routing.routeStatus destination = some .discoveryUnderway then none
      else routing.routeTable.get destination := by
  let removes (d : Nwk) (entry : Option TableEntry) : Bool :=
    !(routing.expireDiscoveries now).discoveryTable.values.any (·.destinationAddress = d) &&
      entry.any (·.status = .discoveryUnderway)
  have hloop : (routing.expireDiscoveries now).routeTable =
      ((routing.discoveryTable.values.filter (·.expirationTime ≤ now)).map
        (·.destinationAddress)).foldl (fun table d =>
          if removes d (table.get d) then table.remove d else table) routing.routeTable := by
    have hmerge (sought waits : Bool) (table table' : FlatMap Nwk TableEntry) :
        (if sought then table else if waits then table' else table) =
          if !sought && waits then table' else table := by
      cases sought <;> cases waits <;> rfl
    exact congrArg (fun step => List.foldl step _ _)
      (funext fun _ => funext fun _ => hmerge ..)
  have hexpired : destination ∈ (routing.discoveryTable.values.filter
      (·.expirationTime ≤ now)).map (·.destinationAddress) ↔
        ∃ discovery ∈ routing.discoveryTable.values, discovery.expirationTime ≤ now ∧
          discovery.destinationAddress = destination := by
    simp only [List.mem_map, List.mem_filter, decide_eq_true_eq, and_assoc]
  have hremoves : removes destination (routing.routeTable.get destination) = true ↔
      ¬ routing.Seeks now destination ∧
        routing.routeStatus destination = some .discoveryUnderway := by
    have hseeks : (routing.expireDiscoveries now).discoveryTable.values.any
        (·.destinationAddress = destination) = true ↔ routing.Seeks now destination := by
      simp only [List.any_eq_true, FlatMap.mem_values, get_expireDiscoveries_discoveryTable,
        Option.filter_eq_some_iff, decide_eq_true_eq, Seeks]
      grind
    rw [Bool.and_eq_true, Bool.not_eq_true', Bool.eq_false_iff, Ne, hseeks, Option.any_eq_true]
    simp only [routeStatus, Option.map_eq_some_iff, decide_eq_true_eq]
  rw [hloop, FlatMap.get_foldl_removeIf]
  simp only [hexpired, hremoves]

/-- The active routes outlive every discovery. -/
theorem toward_expireDiscoveries (destination : Nwk) :
    (routing.expireDiscoveries now).toward destination = routing.toward destination := by
  rw [toward, get_expireDiscoveries]
  split
  next h =>
    have hstatus : routing.routeStatus destination ≠ some .active := by
      rw [h.2.2]
      simp
    rw [toward_eq_none_of_routeStatus hstatus]
    rfl
  next => rfl

theorem back_of_expireDiscoveries {key : SourceNumber} {pointer : Nwk × Nat}
    (h : (routing.expireDiscoveries now).back key = some pointer) :
    routing.back key = some pointer := by
  rw [back, get_expireDiscoveries_discoveryTable, Option.map_eq_some_iff] at h
  obtain ⟨discovery, hget, hpointer⟩ := h
  rw [back, (Option.filter_eq_some_iff.mp hget).1]
  exact congrArg some hpointer

/-! ## What the operations do to the pointers -/

/-- The pointer of a route that `considerRoute` saw an offer for. -/
def consider (held : Option (Nwk × Nat)) (offer : Nwk × Nat) : Nwk × Nat :=
  match held with
  | some held => if held.2 ≤ offer.2 then held else offer
  | none => offer

theorem TableEntry.pointer_considerRoute_eq (entry : TableEntry) (nextHop : Nwk) (cost : UInt8) :
    (entry.considerRoute nextHop cost).2.pointer =
      some (consider entry.pointer (nextHop, cost.toNat)) := by
  obtain ⟨held, hheld, hle, heq⟩ | ⟨hlt, heq⟩ := entry.pointer_considerRoute nextHop cost
  · rw [heq, hheld, consider, if_pos hle]
  · rw [heq]
    cases hheld : entry.pointer with
    | none => rfl
    | some held => rw [consider, if_neg (Nat.not_le.mpr (hlt held hheld))]

theorem pointer_entryOrNew (destination : Nwk) :
    (routing.entryOrNew destination).pointer = routing.toward destination := by
  unfold Routing.toward entryOrNew
  cases routing.routeTable.get destination <;> rfl

/-- Each route keeps its pointer or is not active any more. -/
def Demotes (routing routing' : Routing) : Prop :=
  ∀ destination, routing'.toward destination = none ∨
    routing'.toward destination = routing.toward destination

/-- The entry of one destination is rewritten, or removed. -/
theorem demotes_of_get (destination : Nwk)
    (hsame : ∀ other ≠ destination,
      routing'.routeTable.get other = routing.routeTable.get other)
    (hentry : routing'.toward destination = none ∨
      routing'.toward destination = routing.toward destination) : Demotes routing routing' := by
  intro other
  by_cases hother : other = destination
  · exact hother ▸ hentry
  · exact .inr (by rw [toward, toward, hsame other hother])

theorem demotes_modifyRoute {destination : Nwk} {f : TableEntry → TableEntry}
    (hf : ∀ entry, (f entry).pointer = none ∨ (f entry).pointer = entry.pointer) :
    Demotes routing (routing.modifyRoute destination f) := by
  unfold modifyRoute
  split
  next entry hget =>
    refine demotes_of_get destination (fun other hother => ?_) ?_
    · exact (FlatMap.get_set ..).trans (if_neg hother)
    · rw [toward, toward, FlatMap.get_set, if_pos rfl, hget]
      exact hf entry
  next => exact fun _ => .inr rfl

theorem demotes_mapVal {f : Nwk → TableEntry → TableEntry}
    (hf : ∀ d entry, (f d entry).pointer = none ∨ (f d entry).pointer = entry.pointer) :
    Demotes routing { routing with routeTable := routing.routeTable.mapVal f } := by
  intro destination
  rw [toward, toward, FlatMap.get_mapVal]
  cases routing.routeTable.get destination with
  | none => exact .inl rfl
  | some entry => exact hf destination entry

/-- A request or a reply arrives. -/
def Op.Arrives : Op → Prop
  | .acceptRouteRequest .. | .acceptRouteReply .. => True
  | _ => False

/-- The other operations do not make a route active. -/
theorem Op.demotes {op : Op} (hop : ¬ op.Arrives) : Demotes routing (op.apply routing) := by
  cases op with
  | beginDiscovery ownAddress destination now routeDiscoveryTime =>
    intro other
    have hexpire := @toward_expireDiscoveries routing now other
    by_cases hother : other = destination
    · refine .inl ?_
      show ((FlatMap.insert ..).get other).bind _ = none
      rw [FlatMap.get_insert, if_pos hother]
      rfl
    · refine .inr (Eq.trans ?_ hexpire)
      show ((FlatMap.insert ..).get other).bind _ = _
      rw [FlatMap.get_insert, if_neg hother]
      rfl
  | beginManyToOneAdvertisement ownAddress now routeDiscoveryTime =>
    exact fun other => .inr (@toward_expireDiscoveries
      { routing with requestSequenceNumber := routing.requestSequenceNumber + 1 } now other)
  | acceptRouteRequest => exact absurd trivial hop
  | noteRelayedDiscovery destination =>
    exact fun other => .inr (toward_noteRelayedDiscovery destination other)
  | acceptRouteReply => exact absurd trivial hop
  | invalidateVia nextHop =>
    refine demotes_mapVal fun _ entry => ?_
    split
    · exact .inl rfl
    · exact .inr rfl
  | markDiscoveryFailed destination => exact demotes_modifyRoute fun _ => .inl rfl
  | removeRoute destination =>
    refine demotes_of_get destination (fun other hother => ?_) (.inl ?_)
    · exact (FlatMap.get_remove ..).trans (if_neg hother)
    · show ((FlatMap.remove ..).get destination).bind _ = none
      rw [FlatMap.get_remove, if_pos rfl]
      rfl
  | recordUsage destination => exact demotes_modifyRoute fun _ => .inr rfl
  | decayActivity =>
    refine demotes_mapVal fun _ entry => .inr ?_
    split
    · rfl
    · rfl
  | noteSourceRoutedFrame concentrator =>
    refine demotes_modifyRoute fun entry => .inr ?_
    split
    · rfl
    · rfl

/-- A request that arrives leaves the pointers alone, or offers one to its originator. -/
theorem toward_acceptRouteRequest (originator : Nwk) (requestId : RouteRequestId)
    (destination sender : Nwk) (updatedPathCost : UInt8) (manyToOne : NwkRouteRequestManyToOne)
    (routeDiscoveryTime : Duration) :
    let result := routing.acceptRouteRequest originator requestId destination sender
      updatedPathCost manyToOne now routeDiscoveryTime
    (∀ other, result.2.toward other = routing.toward other) ∨
    ∀ other, result.2.toward other =
      if other = originator then
        some (consider (routing.toward originator) (sender, updatedPathCost.toNat))
      else routing.toward other := by
  dsimp only [acceptRouteRequest]
  split
  next => exact .inl fun other => toward_expireDiscoveries other
  next discovery _ =>
    refine .inr fun other => ?_
    show ((FlatMap.insert ..).get other).bind _ = _
    rw [FlatMap.get_insert]
    by_cases hother : other = originator
    · rw [if_pos hother, if_pos hother, Option.bind_some, TableEntry.pointer_noteManyToOne,
        TableEntry.pointer_considerRoute_eq, pointer_entryOrNew, toward_expireDiscoveries]
    · rw [if_neg hother, if_neg hother]
      exact toward_expireDiscoveries other

/-- What a reply does: nothing, or it answers a request of our own, or it is relayed. -/
theorem acceptRouteReply_cases (routing : Routing) (ownAddress originator : Nwk)
    (requestId : RouteRequestId) (responder sender : Nwk) (updatedPathCost : UInt8) :
    let result := routing.acceptRouteReply ownAddress originator requestId responder sender
      updatedPathCost
    (result.1.disposition = .drop ∧ result.2 = routing ∧ ∀ discovery entry,
      routing.discoveryTable.get (.mk originator requestId) = some discovery →
      routing.routeTable.get responder = some entry → entry.status = .active →
        discovery.residualCost ≤ updatedPathCost) ∨
    ∃ discovery entry, routing.discoveryTable.get (.mk originator requestId) = some discovery ∧
      routing.routeTable.get responder = some entry ∧
      (entry.status = .active → updatedPathCost < discovery.residualCost) ∧
      (∀ key, result.2.back key = routing.back key) ∧
      ((originator = ownAddress ∧ result.1.disposition = .established ∧
        ∀ other, result.2.toward other =
          if other = responder then some (sender, updatedPathCost.toNat)
          else routing.toward other) ∨
      (originator ≠ ownAddress ∧
        result.1.disposition = .relay discovery.senderAddress updatedPathCost ∧
        ∀ other, result.2.toward other =
          if other = originator then
            some (consider
              (if originator = responder then some (sender, updatedPathCost.toNat)
                else routing.toward originator)
              (discovery.senderAddress, discovery.forwardCost.toNat))
          else if other = responder then some (sender, updatedPathCost.toNat)
          else routing.toward other)) := by
  dsimp only [acceptRouteReply]
  cases hdiscovery : routing.discoveryTable.get (.mk originator requestId) with
  | none => exact .inl ⟨rfl, rfl, nofun⟩
  | some discovery =>
  cases hentry : routing.routeTable.get responder with
  | none => exact .inl ⟨rfl, rfl, nofun⟩
  | some entry =>
  dsimp only
  set routed : Routing := { routing with
    routeTable := routing.routeTable.set responder
      { entry with status := .active, nextHopAddress := sender, pathCost := updatedPathCost }
    discoveryTable := routing.discoveryTable.set (.mk originator requestId)
      { discovery with residualCost := updatedPathCost } } with hrouted
  have htoward (other : Nwk) : routed.toward other =
      if other = responder then some (sender, updatedPathCost.toNat)
      else routing.toward other := by
    rw [toward, FlatMap.get_set]
    split
    · rfl
    · rfl
  have hback (key : SourceNumber) : routed.back key = routing.back key := by
    rw [back, FlatMap.get_set]
    split
    next hkey =>
      rw [hkey, back, hdiscovery]
      rfl
    next => rfl
  by_cases hown : originator = ownAddress
  · rw [if_pos hown]
    by_cases hdear : entry.status = .active ∧ discovery.residualCost ≤ updatedPathCost
    · rw [if_pos hdear]
      refine .inl ⟨rfl, rfl, fun _ _ hd he _ => ?_⟩
      cases hd
      exact hdear.2
    · rw [if_neg hdear]
      exact .inr ⟨discovery, entry, rfl, rfl,
        fun hactive => UInt8.not_le.mp fun hle => hdear ⟨hactive, hle⟩, hback,
        .inl ⟨hown, rfl, htoward⟩⟩
  · rw [if_neg hown]
    by_cases hdear : discovery.residualCost ≤ updatedPathCost
    · rw [if_pos hdear]
      refine .inl ⟨rfl, rfl, fun _ _ hd he _ => ?_⟩
      cases hd
      exact hdear
    · rw [if_neg hdear]
      refine .inr ⟨discovery, entry, rfl, rfl, fun _ => UInt8.not_le.mp hdear, hback,
        .inr ⟨hown, rfl, fun other => ?_⟩⟩
      show ((FlatMap.insert ..).get other).bind _ = _
      rw [FlatMap.get_insert]
      by_cases hother : other = originator
      · rw [if_pos hother, if_pos hother, Option.bind_some, TableEntry.pointer_considerRoute_eq,
          pointer_entryOrNew, htoward]
      · rw [if_neg hother, if_neg hother]
        exact htoward other

/-! ## An active route gives way to a cheaper one -/

/-- A route that is active before and after an operation changes its next hop only to a cheaper
one, and does not get dearer. -/
def Suitable (routing routing' : Routing) : Prop :=
  ∀ destination entry entry', routing.routeTable.get destination = some entry →
    routing'.routeTable.get destination = some entry' →
    entry.status = .active → entry'.status = .active →
      (entry'.nextHopAddress ≠ entry.nextHopAddress → entry'.pathCost < entry.pathCost) ∧
      entry'.pathCost ≤ entry.pathCost

/-- A pointer may take the place of the one held. -/
def Improves (held offer : Nwk × Nat) : Prop :=
  offer.2 < held.2 ∨ offer = held

theorem improves_consider (held offer : Nwk × Nat) :
    Improves held (consider (some held) offer) := by
  by_cases hle : held.2 ≤ offer.2
  · exact .inr (if_pos hle)
  · rw [consider, if_neg hle]
    exact .inl (Nat.lt_of_not_le hle)

theorem toward_eq_some {destination : Nwk} {pointer : Nwk × Nat} :
    routing.toward destination = some pointer ↔
      ∃ entry, routing.routeTable.get destination = some entry ∧ entry.status = .active ∧
        (entry.nextHopAddress, entry.pathCost.toNat) = pointer := by
  simp only [toward, Option.bind_eq_some_iff, TableEntry.pointer, Option.ite_none_right_eq_some,
    Option.some_inj]

theorem suitable_iff_improves : Suitable routing routing' ↔
    ∀ destination held offer, routing.toward destination = some held →
      routing'.toward destination = some offer → Improves held offer := by
  simp only [toward_eq_some, Improves]
  constructor
  · rintro h destination held offer ⟨entry, hentry, hactive, rfl⟩ ⟨entry', hentry', hactive', rfl⟩
    obtain ⟨hhop, hcost⟩ := h destination entry entry' hentry hentry' hactive hactive'
    by_cases hsame : entry'.nextHopAddress = entry.nextHopAddress
    · rw [hsame]
      obtain hlt | heq := Nat.lt_or_eq_of_le (UInt8.le_iff_toNat_le.mp hcost)
      · exact .inl hlt
      · exact .inr (congrArg _ heq)
    · exact .inl (UInt8.lt_iff_toNat_lt.mp (hhop hsame))
  · intro h destination entry entry' hentry hentry' hactive hactive'
    rw [UInt8.lt_iff_toNat_lt, UInt8.le_iff_toNat_le]
    obtain hlt | heq := h destination _ _ ⟨entry, hentry, hactive, rfl⟩
      ⟨entry', hentry', hactive', rfl⟩
    · exact ⟨fun _ => hlt, Nat.le_of_lt hlt⟩
    · obtain ⟨hhop, hcost⟩ := Prod.mk.inj heq
      exact ⟨fun hne => absurd hhop hne, Nat.le_of_eq hcost⟩

theorem Demotes.suitable (h : Demotes routing routing') : Suitable routing routing' := by
  refine suitable_iff_improves.mpr fun destination held offer hheld hoffer => ?_
  obtain hnone | hsame := h destination
  · rw [hnone] at hoffer
    cases hoffer
  · rw [hsame, hheld] at hoffer
    cases hoffer
    exact .inr rfl

/-- A reply that takes the place of an active route is to be cheaper, or to confirm the route.
What it offers is the route to the responder, or to an originator that answers itself the
cheaper of the two ways to it. -/
def Op.Suits (routing : Routing) : Op → Prop
  | .acceptRouteReply ownAddress originator requestId responder sender updatedPathCost =>
    ∀ discovery entry, routing.discoveryTable.get (.mk originator requestId) = some discovery →
      routing.routeTable.get responder = some entry → entry.status = .active →
      updatedPathCost < discovery.residualCost →
        Improves (entry.nextHopAddress, entry.pathCost.toNat)
          (if originator ≠ ownAddress ∧ originator = responder then
            consider (some (sender, updatedPathCost.toNat))
              (discovery.senderAddress, discovery.forwardCost.toNat)
          else (sender, updatedPathCost.toNat))
  | _ => True

/-- What a reply that is not dropped makes of the active routes. -/
theorem suitable_iff_of_toward {responder : Nwk} {entry : TableEntry} {offer : Nwk × Nat}
    (hentry : routing.routeTable.get responder = some entry)
    (hresponder : routing'.toward responder = some offer)
    (hother : ∀ other ≠ responder, ∀ held offer, routing.toward other = some held →
      routing'.toward other = some offer → Improves held offer) :
    Suitable routing routing' ↔
      (entry.status = .active → Improves (entry.nextHopAddress, entry.pathCost.toNat) offer) := by
  rw [suitable_iff_improves]
  constructor
  · intro h hactive
    exact h responder _ offer (toward_eq_some.mpr ⟨entry, hentry, hactive, rfl⟩) hresponder
  · intro h other held offer' hheld hoffer
    by_cases hne : other = responder
    · subst hne
      obtain ⟨_, hget, hactive, rfl⟩ := toward_eq_some.mp hheld
      cases hentry.symm.trans hget
      cases hresponder.symm.trans hoffer
      exact h hactive
    · exact hother other hne held offer' hheld hoffer

/-- A request keeps to the rule. -/
theorem suitable_acceptRouteRequest (originator : Nwk) (requestId : RouteRequestId)
    (destination sender : Nwk) (updatedPathCost : UInt8) (manyToOne : NwkRouteRequestManyToOne)
    (now : Instant) (routeDiscoveryTime : Duration) :
    Suitable routing (routing.acceptRouteRequest originator requestId destination sender
      updatedPathCost manyToOne now routeDiscoveryTime).2 := by
  refine suitable_iff_improves.mpr fun other held offer hheld hoffer => ?_
  obtain hsame | hconsidered := @toward_acceptRouteRequest routing now originator requestId
    destination sender updatedPathCost manyToOne routeDiscoveryTime
  · rw [hsame, hheld] at hoffer
    cases hoffer
    exact .inr rfl
  · rw [hconsidered] at hoffer
    split at hoffer
    next hother =>
      cases hoffer
      rw [← hother, hheld]
      exact improves_consider ..
    next =>
      rw [hheld] at hoffer
      cases hoffer
      exact .inr rfl

/-- A reply keeps to it if what it offers does. -/
theorem suitable_acceptRouteReply_iff (ownAddress originator : Nwk) (requestId : RouteRequestId)
    (responder sender : Nwk) (updatedPathCost : UInt8) :
    Suitable routing (routing.acceptRouteReply ownAddress originator requestId responder sender
        updatedPathCost).2 ↔
      Op.Suits routing (.acceptRouteReply ownAddress originator requestId responder sender
        updatedPathCost) := by
  obtain ⟨-, hsame, hdear⟩ | ⟨discovery, entry, hdiscovery, hentry, hcheap, -, htaken⟩ :=
    routing.acceptRouteReply_cases ownAddress originator requestId responder sender
      updatedPathCost
  · refine iff_of_true (Demotes.suitable fun _ => .inr (congrArg (toward · _) hsame)) ?_
    exact fun discovery entry hdiscovery hentry hactive hlt =>
      absurd (hdear discovery entry hdiscovery hentry hactive) (UInt8.not_le.mpr hlt)
  have hsuits (offer : Nwk × Nat)
      (hoffer : (if originator ≠ ownAddress ∧ originator = responder then
        consider (some (sender, updatedPathCost.toNat))
          (discovery.senderAddress, discovery.forwardCost.toNat)
        else (sender, updatedPathCost.toNat)) = offer) :
      (entry.status = .active → Improves (entry.nextHopAddress, entry.pathCost.toNat) offer) ↔
        Op.Suits routing (.acceptRouteReply ownAddress originator requestId responder sender
          updatedPathCost) := by
    subst hoffer
    constructor
    · intro h _ _ hdiscovery' hentry' hactive _
      cases hdiscovery.symm.trans hdiscovery'
      cases hentry.symm.trans hentry'
      exact h hactive
    · exact fun h hactive => h discovery entry hdiscovery hentry hactive (hcheap hactive)
  obtain ⟨hown, -, htoward⟩ | ⟨hown, -, htoward⟩ := htaken
  · refine (suitable_iff_of_toward hentry ((htoward responder).trans (if_pos rfl)) ?_).trans
      (hsuits _ (if_neg fun h => h.1 hown))
    intro other hother held offer hheld hoffer
    have hsame := (htoward other).trans (if_neg hother)
    cases (hheld.symm.trans hsame.symm).trans hoffer
    exact .inr rfl
  · have hothers (other : Nwk) (hother : other ≠ responder) (held offer : Nwk × Nat)
        (hheld : routing.toward other = some held)
        (hoffer : (routing.acceptRouteReply ownAddress originator requestId responder sender
          updatedPathCost).2.toward other = some offer) : Improves held offer := by
      rw [htoward] at hoffer
      by_cases horiginator : other = originator
      · subst horiginator
        rw [if_pos rfl, if_neg hother, hheld] at hoffer
        cases hoffer
        exact improves_consider ..
      · rw [if_neg horiginator, if_neg hother, hheld] at hoffer
        cases hoffer
        exact .inr rfl
    by_cases hself : originator = responder
    · have hresponder := (htoward responder).trans (if_pos hself.symm)
      rw [if_pos hself] at hresponder
      exact (suitable_iff_of_toward hentry hresponder hothers).trans
        (hsuits _ (if_pos ⟨hown, hself⟩))
    · have hresponder := (htoward responder).trans (if_neg fun h => hself h.symm)
      rw [if_pos rfl] at hresponder
      exact (suitable_iff_of_toward hentry hresponder hothers).trans
        (hsuits _ (if_neg fun h => hself h.2))

/-- An operation keeps to the suitability rule exactly if it is not a route reply that brings a
dearer route, or another one of the same cost. -/
theorem suitable_iff (routing : Routing) (op : Op) :
    Suitable routing (op.apply routing) ↔ op.Suits routing := by
  cases op with
  | acceptRouteRequest => exact iff_of_true (by apply suitable_acceptRouteRequest) trivial
  | acceptRouteReply => exact suitable_acceptRouteReply_iff ..
  | beginDiscovery | beginManyToOneAdvertisement | noteRelayedDiscovery | invalidateVia
  | markDiscoveryFailed | removeRoute | recordUsage | decayActivity | noteSourceRoutedFrame =>
    exact iff_of_true (Op.demotes (by exact not_false)).suitable trivial

namespace Example

/-- Node 1 looks for node 5, and then hears a request of node 5 over one hop. -/
def heard : List Op :=
  [.beginDiscovery 1 5 0 10000000,
    .acceptRouteRequest 5 7 1 5 3 .notManyToOne 1000 10000000]

end Example

open Routing.Example in
/-- The answer to its own request replaces the route of cost 3 by one of cost 200. -/
theorem not_suitable_reply :
    let routing := heard.foldl Op.apply {}
    routing.toward 5 = some (5, 3) ∧
    ((Op.acceptRouteReply 1 1 1 5 9 200).apply routing).toward 5 = some (9, 200) ∧
    ¬ Suitable routing ((Op.acceptRouteReply 1 1 1 5 9 200).apply routing) := by
  have hbefore : (heard.foldl Op.apply {}).toward 5 = some (5, 3) := by decide +kernel
  have hafter : ((Op.acceptRouteReply 1 1 1 5 9 200).apply (heard.foldl Op.apply {})).toward 5 =
      some (9, 200) := by decide +kernel
  refine ⟨hbefore, hafter, fun h => ?_⟩
  have himproves := suitable_iff_improves.mp h 5 _ _ hbefore hafter
  exact absurd himproves (by unfold Improves; decide)

/-! ## An active route has a real next hop -/

/-- One record of the route table on the wire. -/
structure RouteEntry where
  destination : Nwk
  nextHop : Nwk
  pathCost : UInt8
  deriving DecidableEq, Repr

/-- `route_entries`: the routes that the client persists. -/
def routeEntries (routing : Routing) : List RouteEntry :=
  (routing.routeTable.values.filter (·.status = .active)).map fun entry =>
    { destination := entry.destination
      nextHop := entry.nextHopAddress
      pathCost := entry.pathCost }

/-- The operation is one of the node with this address, and what arrives has a real sender. -/
def Op.By (ownAddress : Nwk) : Op → Prop
  | .beginDiscovery own .. | .beginManyToOneAdvertisement own .. => own = ownAddress
  | .acceptRouteRequest _ _ _ sender .. => sender ≠ unknownNextHop
  | .acceptRouteReply own _ _ _ sender _ => own = ownAddress ∧ sender ≠ unknownNextHop
  | _ => True

/-- The routing tables that a node comes to have.  What it restores was exported by such a
node. -/
inductive Reached : Nwk → Routing → Prop where
  | start (ownAddress : Nwk) : Reached ownAddress {}
  | step {ownAddress : Nwk} {routing : Routing} (op : Op) (reached : Reached ownAddress routing)
      (own : op.By ownAddress) : Reached ownAddress (op.apply routing)
  | restore {ownAddress exporter : Nwk} {routing exported : Routing} {entry : RouteEntry}
      (reached : Reached ownAddress routing) (source : Reached exporter exported)
      (listed : entry ∈ exported.routeEntries) :
      Reached ownAddress (routing.restoreRoute entry.destination entry.nextHop entry.pathCost)

/-- The pointers are real, but for those of the discoveries of our own. -/
structure Grounded (ownAddress : Nwk) (routing : Routing) : Prop where
  toward : ∀ destination pointer, routing.toward destination = some pointer →
    pointer.1 ≠ unknownNextHop
  back : ∀ source requestId pointer, source ≠ ownAddress →
    routing.back (.mk source requestId) = some pointer → pointer.1 ≠ unknownNextHop

namespace Grounded

variable {ownAddress : Nwk}

theorem consider {held : Option (Nwk × Nat)} {offer : Nwk × Nat}
    (hheld : ∀ pointer, held = some pointer → pointer.1 ≠ unknownNextHop)
    (hoffer : offer.1 ≠ unknownNextHop) : (consider held offer).1 ≠ unknownNextHop := by
  cases held with
  | none => exact hoffer
  | some held =>
    unfold Routing.consider
    dsimp only
    split
    · exact hheld held rfl
    · exact hoffer

theorem toward_of_demotes (h : Grounded ownAddress routing) (hdemotes : Demotes routing routing')
    (destination : Nwk) (pointer : Nwk × Nat)
    (hpointer : routing'.toward destination = some pointer) : pointer.1 ≠ unknownNextHop := by
  obtain hnone | hsame := hdemotes destination
  · rw [hnone] at hpointer
    cases hpointer
  · exact h.toward destination pointer (hsame ▸ hpointer)

/-- A discovery of our own is kept under our address. -/
theorem back_own {pointer : Nwk × Nat} {source : Nwk} {requestId : RouteRequestId}
    (h : Grounded ownAddress routing) (hsource : source ≠ ownAddress) {number : RouteRequestId}
    {discovery : DiscoveryEntry}
    (hback : (((routing.expireDiscoveries now).discoveryTable.insert (.mk ownAddress number)
      discovery).get (.mk source requestId)).map (fun entry =>
        (entry.senderAddress, entry.forwardCost.toNat)) = some pointer) :
    pointer.1 ≠ unknownNextHop := by
  have hkey : SourceNumber.mk source requestId ≠ .mk ownAddress number :=
    fun heq => hsource (SourceNumber.mk_inj.mp heq).1
  rw [FlatMap.get_insert, if_neg hkey] at hback
  exact h.back source requestId pointer hsource (back_of_expireDiscoveries hback)

theorem acceptRouteRequest (h : Grounded ownAddress routing) {originator : Nwk}
    {requestId : RouteRequestId} {destination sender : Nwk} {updatedPathCost : UInt8}
    {manyToOne : NwkRouteRequestManyToOne} {now : Instant} {routeDiscoveryTime : Duration}
    (hsender : sender ≠ unknownNextHop) :
    Grounded ownAddress (routing.acceptRouteRequest originator requestId destination sender
      updatedPathCost manyToOne now routeDiscoveryTime).2 where
  toward other pointer hpointer := by
    obtain hsame | hconsidered := @toward_acceptRouteRequest routing now originator requestId
      destination sender updatedPathCost manyToOne routeDiscoveryTime
    · exact h.toward other pointer (hsame other ▸ hpointer)
    · rw [hconsidered] at hpointer
      split at hpointer
      · cases hpointer
        exact consider (h.toward originator) hsender
      · exact h.toward other pointer hpointer
  back source number pointer hsource hback := by
    dsimp only [Routing.acceptRouteRequest] at hback
    split at hback
    next => exact h.back source number pointer hsource (back_of_expireDiscoveries hback)
    next discovery hoffer =>
      have hdiscovery : discovery.senderAddress = sender := by
        unfold offerRouteRequest at hoffer
        split at hoffer
        · split at hoffer
          · cases hoffer
          · cases hoffer
            rfl
        · cases hoffer
          rfl
      replace hback : ((FlatMap.insert ..).get _).map _ = some pointer := hback
      rw [FlatMap.get_insert] at hback
      split at hback
      · cases hback
        exact fun hunknown => hsender (hdiscovery.symm.trans hunknown)
      · exact h.back source number pointer hsource (back_of_expireDiscoveries hback)

/-- The pointer that a relayed reply follows belongs to a request of another node. -/
theorem acceptRouteReply (h : Grounded ownAddress routing) {originator : Nwk}
    {requestId : RouteRequestId} {responder sender : Nwk} {updatedPathCost : UInt8}
    (hsender : sender ≠ unknownNextHop) :
    Grounded ownAddress (routing.acceptRouteReply ownAddress originator requestId responder sender
      updatedPathCost).2 := by
  obtain ⟨-, hsame, -⟩ | ⟨discovery, entry, hdiscovery, hentry, -, hback, htaken⟩ :=
    routing.acceptRouteReply_cases ownAddress originator requestId responder sender
      updatedPathCost
  · rw [hsame]
    exact h
  refine ⟨fun other pointer hpointer => ?_, fun source number pointer hsource hpointer =>
    h.back source number pointer hsource (hback _ ▸ hpointer)⟩
  have hreply (pointer : Nwk × Nat) (hpointer : (some (sender, updatedPathCost.toNat)) =
      some pointer) : pointer.1 ≠ unknownNextHop := by
    cases hpointer
    exact hsender
  obtain ⟨-, -, htoward⟩ | ⟨hown, -, htoward⟩ := htaken
  · rw [htoward] at hpointer
    split at hpointer
    · exact hreply pointer hpointer
    · exact h.toward other pointer hpointer
  · rw [htoward] at hpointer
    split at hpointer
    · cases hpointer
      refine consider (fun pointer hpointer => ?_) (h.back originator requestId
        (discovery.senderAddress, discovery.forwardCost.toNat) hown ?_)
      · split at hpointer
        · exact hreply pointer hpointer
        · exact h.toward originator pointer hpointer
      · rw [Routing.back, hdiscovery]
        rfl
    · split at hpointer
      · exact hreply pointer hpointer
      · exact h.toward other pointer hpointer

theorem modifyRoute (h : Grounded ownAddress routing) {destination : Nwk}
    {f : TableEntry → TableEntry}
    (hdemotes : Demotes routing (routing.modifyRoute destination f)) :
    Grounded ownAddress (routing.modifyRoute destination f) where
  toward := h.toward_of_demotes hdemotes
  back source requestId pointer hsource hback := by
    refine h.back source requestId pointer hsource (Eq.trans ?_ hback)
    unfold Routing.modifyRoute
    split
    · rfl
    · rfl

theorem step (h : Grounded ownAddress routing) (op : Op) (hop : op.By ownAddress) :
    Grounded ownAddress (op.apply routing) := by
  cases op with
  | beginDiscovery =>
    cases hop
    exact ⟨h.toward_of_demotes (Op.demotes (by exact not_false)),
      fun _ _ _ hsource hback => h.back_own hsource hback⟩
  | beginManyToOneAdvertisement =>
    cases hop
    exact ⟨h.toward_of_demotes (Op.demotes (by exact not_false)),
      fun _ _ _ hsource hback => h.back_own hsource hback⟩
  | acceptRouteRequest => exact h.acceptRouteRequest hop
  | acceptRouteReply =>
    obtain ⟨rfl, hsender⟩ := hop
    exact h.acceptRouteReply hsender
  | noteRelayedDiscovery | invalidateVia | removeRoute | decayActivity =>
    exact ⟨h.toward_of_demotes (Op.demotes (by exact not_false)), h.back⟩
  | markDiscoveryFailed destination =>
    exact h.modifyRoute (@Op.demotes routing (.markDiscoveryFailed destination) not_false)
  | recordUsage destination =>
    exact h.modifyRoute (@Op.demotes routing (.recordUsage destination) not_false)
  | noteSourceRoutedFrame concentrator =>
    exact h.modifyRoute (@Op.demotes routing (.noteSourceRoutedFrame concentrator) not_false)

theorem restoreRoute (h : Grounded ownAddress routing) {destination nextHop : Nwk}
    {pathCost : UInt8} (hnextHop : nextHop ≠ unknownNextHop) :
    Grounded ownAddress (routing.restoreRoute destination nextHop pathCost) where
  toward other pointer hpointer := by
    rw [Routing.toward, Routing.restoreRoute, FlatMap.get_insert] at hpointer
    split at hpointer
    · cases hpointer
      exact hnextHop
    · exact h.toward other pointer hpointer
  back := h.back

theorem of_mem_routeEntries (h : Grounded ownAddress routing) {entry : RouteEntry}
    (hentry : entry ∈ routing.routeEntries) : entry.nextHop ≠ unknownNextHop := by
  obtain ⟨held, hheld, rfl⟩ := List.mem_map.mp hentry
  obtain ⟨hvalue, hactive⟩ := List.mem_filter.mp hheld
  obtain ⟨destination, hget⟩ := FlatMap.mem_values.mp hvalue
  exact h.toward destination _ (toward_eq_some.mpr ⟨held, hget, of_decide_eq_true hactive, rfl⟩)

theorem of_reached (h : Reached ownAddress routing) : Grounded ownAddress routing := by
  induction h with
  | start => exact ⟨nofun, nofun⟩
  | step op _ hop ih => exact ih.step op hop
  | restore _ _ hlisted ih ihexported =>
    exact ih.restoreRoute (ihexported.of_mem_routeEntries hlisted)

end Grounded

/-- The assertion of `next_hop` is on the pointer of an active route. -/
theorem nextHop_returns_iff {destination : Nwk} :
    (∃ nextHop, routing.nextHop destination = .ok nextHop) ↔
      ∀ pointer, routing.toward destination = some pointer → pointer.1 ≠ unknownNextHop := by
  constructor
  · rintro ⟨found, hfound⟩ pointer hpointer
    obtain ⟨entry, hget, hactive, rfl⟩ := toward_eq_some.mp hpointer
    unfold nextHop at hfound
    rw [hget, Option.filter_some, if_pos (decide_eq_true hactive)] at hfound
    obtain ⟨_, hensure, -⟩ := Checked.bind_eq_ok.mp hfound
    exact Checked.of_ensure hensure
  · intro h
    unfold nextHop
    split
    next => exact ⟨none, rfl⟩
    next entry hentry =>
      obtain ⟨hget, hstatus⟩ := Option.filter_eq_some_iff.mp hentry
      have hpointer := toward_eq_some.mpr ⟨entry, hget, of_decide_eq_true hstatus, rfl⟩
      rw [Checked.ensure_of _ (h _ hpointer)]
      exact ⟨_, rfl⟩

/-- Whatever a node receives from real senders and restores, its active routes have a real next
hop, so the assertion of `next_hop` holds, and it relays a reply to a real one. -/
theorem active_routes_grounded (ownAddress : Nwk) (routing : Routing)
    (h : Reached ownAddress routing) :
    (∀ destination entry, routing.routeTable.get destination = some entry →
      entry.status = .active → entry.nextHopAddress ≠ unknownNextHop) ∧
    (∀ destination, ∃ nextHop, routing.nextHop destination = .ok nextHop) ∧
    ∀ originator requestId responder sender updatedPathCost nextHop pathCost,
      (routing.acceptRouteReply ownAddress originator requestId responder sender
        updatedPathCost).1.disposition = .relay nextHop pathCost → nextHop ≠ unknownNextHop := by
  have hgrounded := Grounded.of_reached h
  have hactive (destination : Nwk) (entry : TableEntry)
      (hget : routing.routeTable.get destination = some entry) (hactive : entry.status = .active) :
      entry.nextHopAddress ≠ unknownNextHop :=
    hgrounded.toward destination _ (toward_eq_some.mpr ⟨entry, hget, hactive, rfl⟩)
  refine ⟨hactive, fun destination => ?_, ?_⟩
  · exact nextHop_returns_iff.mpr (hgrounded.toward destination)
  · intro originator requestId responder sender updatedPathCost nextHop pathCost hrelay
    obtain ⟨hdrop, -⟩ | ⟨discovery, _, hdiscovery, -, -, -, ⟨-, hdone, -⟩ | ⟨hown, hrelayed, -⟩⟩ :=
      routing.acceptRouteReply_cases ownAddress originator requestId responder sender
        updatedPathCost
    · cases hdrop.symm.trans hrelay
    · cases hdone.symm.trans hrelay
    · cases hrelayed.symm.trans hrelay
      refine hgrounded.back originator requestId
        (discovery.senderAddress, discovery.forwardCost.toNat) hown ?_
      rw [back, hdiscovery]
      rfl

namespace Example

/-- Node 1 relays the request of node 5 for node 7 that it heard from node 9. -/
def relayed : Routing :=
  (Op.noteRelayedDiscovery 7).apply
    ((Op.acceptRouteRequest 5 1 7 9 3 .notManyToOne 1000 10000000).apply {})

theorem reached_relayed : Reached 1 relayed :=
  .step _ (.step _ (.start 1) (by exact show (9 : Nwk) ≠ 0xFFFF by decide)) trivial

end Example

open Routing.Example in
/-- It relays the answer to node 9. -/
theorem active_routes_grounded_relayed : Reached 1 relayed ∧
    (relayed.acceptRouteReply 1 5 1 7 8 4).1.disposition = .relay 9 4 ∧
    (9 : Nwk) ≠ unknownNextHop := by
  have hrelay : (relayed.acceptRouteReply 1 5 1 7 8 4).1.disposition = .relay 9 4 := by
    decide +kernel
  obtain ⟨-, -, hreplies⟩ := active_routes_grounded 1 relayed reached_relayed
  exact ⟨reached_relayed, hrelay, hreplies 5 1 7 8 4 9 4 hrelay⟩

end Ziggurat.Routing
