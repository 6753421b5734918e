import Ziggurat.Nwk.Routing

/-!
# Pointers of the routing tables

What the tables say about the way to an originator: `back` is the pointer that a discovery
entry holds for one request, `toward` the pointer of an active route.  The lemmas say what the
parts of `accept_route_request` do to the second.
-/

namespace Ziggurat.Routing

/-- The pointer of an entry, if the route is active. -/
def TableEntry.pointer (entry : TableEntry) : Option (Nwk × Nat) :=
  if entry.status = .active then some (entry.nextHopAddress, entry.pathCost.toNat) else none

/-- The sender of the cheapest copy of a request, and its cost. -/
def back (routing : Routing) (key : SourceNumber) : Option (Nwk × Nat) :=
  (routing.discoveryTable.get key).map fun entry =>
    (entry.senderAddress, entry.forwardCost.toNat)

/-- The next hop of an active route, and its cost. -/
def toward (routing : Routing) (destination : Nwk) : Option (Nwk × Nat) :=
  (routing.routeTable.get destination).bind TableEntry.pointer

variable {routing : Routing} {now : Instant}

theorem toward_eq_none_of_routeStatus {destination : Nwk}
    (h : routing.routeStatus destination ≠ some .active) : routing.toward destination = none := by
  unfold routeStatus at h
  unfold toward
  cases hget : routing.routeTable.get destination with
  | none => rfl
  | some entry =>
    rw [hget, Option.map_some] at h
    rw [Option.bind_some, TableEntry.pointer, if_neg fun hactive => h (congrArg some hactive)]

/-! ## Requests of others -/

theorem TableEntry.pointer_noteManyToOne (entry : TableEntry)
    (manyToOne : NwkRouteRequestManyToOne) :
    (entry.noteManyToOne manyToOne).pointer = entry.pointer := by
  unfold noteManyToOne
  split <;> rfl

/-- An active route stays unless the new one is cheaper. -/
theorem TableEntry.pointer_considerRoute (entry : TableEntry) (nextHop : Nwk) (cost : UInt8) :
    (∃ e, entry.pointer = some e ∧ e.2 ≤ cost.toNat ∧
      (entry.considerRoute nextHop cost).2.pointer = some e) ∨
    ((∀ e, entry.pointer = some e → cost.toNat < e.2) ∧
      (entry.considerRoute nextHop cost).2.pointer = some (nextHop, cost.toNat)) := by
  unfold considerRoute
  split
  next h =>
    refine .inl ⟨(entry.nextHopAddress, entry.pathCost.toNat), if_pos h.1, h.2, if_pos h.1⟩
  next h =>
    refine .inr ⟨fun e he => ?_, if_pos rfl⟩
    unfold pointer at he
    split at he
    next hactive =>
      cases he
      exact Nat.lt_of_not_le fun hle => h ⟨hactive, hle⟩
    next => cases he

@[simp] theorem toward_noteRelayedDiscovery (destination other : Nwk) :
    (routing.noteRelayedDiscovery destination).toward other = routing.toward other := by
  simp only [toward, noteRelayedDiscovery, FlatMap.get_insert]
  split
  next hother =>
    rw [hother]
    cases routing.routeTable.get destination with
    | none => rfl
    | some entry =>
      by_cases hactive : entry.status = .active <;> simp [TableEntry.pointer, hactive]
  next => rfl

end Ziggurat.Routing
