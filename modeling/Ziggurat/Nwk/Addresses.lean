import Ziggurat.Nwk.Neighbors

/-!
# The address map

`nwk/addresses.rs`: the network address of each known EUI64, with the invariant that an
address has a single owner.

The map is keyed by the EUI64, so nothing in its type keeps two devices from sharing an
address.  `SingleOwner` says that none do.  `update_mapping` refuses to break it, `claim`
evicts the other owners first, and `forget_address` only removes.
-/

namespace Ziggurat

structure AddressMap where
  ownAddress : Nwk
  map : FlatMap Eui64 Nwk

namespace AddressMap

/-- The map is seeded with our own mapping. -/
def new (ownAddress : Nwk) (ownEui64 : Eui64) : AddressMap :=
  ⟨ownAddress, FlatMap.new.insert ownEui64 ownAddress⟩

def nwkFor (addresses : AddressMap) (eui64 : Eui64) : Option Nwk := addresses.map.get eui64

/-- The first entry in key order answers. -/
def eui64For (addresses : AddressMap) (nwk : Nwk) : Option Eui64 :=
  (addresses.map.findValue (· = nwk)).map Prod.fst

/-- Whether an address belongs to a device other than the given one, or to us. -/
def claimedByOther (addresses : AddressMap) (nwk : Nwk) (eui64 : Eui64) : Bool :=
  nwk = addresses.ownAddress ||
    addresses.map.entries.any fun entry => entry.2 = nwk && entry.1 ≠ eui64

/-- Record a mapping learned from a frame, unless the address is claimed.  Whether it is,
which is an address conflict. -/
def updateMapping (addresses : AddressMap) (eui64 : Eui64) (nwk : Nwk) : Bool × AddressMap :=
  if addresses.map.get eui64 = some nwk then (false, addresses)
  else if addresses.claimedByOther nwk eui64 then (true, addresses)
  else (false, { addresses with map := addresses.map.insert eui64 nwk })

/-- The first candidate in the assigned range that nobody uses.  The candidates are the
draws of the caller. -/
def generateUnused (addresses : AddressMap) (neighbors : Neighbors) (candidates : List Nwk) :
    Checked Nwk :=
  Checked.expect "Candidate address stream ended" <| candidates.find? fun candidate =>
    candidate.val ≠ 0x0000 && candidate.val < 0xFFF8 && candidate ≠ addresses.ownAddress &&
      !addresses.map.values.any (· = candidate) && !neighbors.hasNetworkAddress candidate

/-- The address of a joining device: the one it had, or an unused one. -/
def allocate (addresses : AddressMap) (eui64 : Eui64) (neighbors : Neighbors)
    (candidates : List Nwk) : Checked Nwk :=
  match addresses.nwkFor eui64 with
  | some nwk => .ok nwk
  | none => addresses.generateUnused neighbors candidates

/-- `evict_other_owners`. -/
def evictOtherOwners (addresses : AddressMap) (nwk : Nwk) (owner : Eui64) : AddressMap :=
  { addresses with
    map := addresses.map.retain fun eui64 mapped => !(mapped = nwk && eui64 ≠ owner) }

/-- A device announced its address: the other owners are evicted. -/
def claim (addresses : AddressMap) (eui64 : Eui64) (nwk : Nwk) : AddressMap :=
  let addresses := addresses.evictOtherOwners nwk eui64
  { addresses with map := addresses.map.insert eui64 nwk }

/-- Forget every mapping to an address. -/
def forgetAddress (addresses : AddressMap) (nwk : Nwk) : AddressMap :=
  { addresses with map := addresses.map.retain fun _ mapped => mapped ≠ nwk }

variable {addresses : AddressMap}

/-! ## Lookups -/

theorem nwkFor_new (ownAddress : Nwk) (ownEui64 eui64 : Eui64) :
    (new ownAddress ownEui64).nwkFor eui64 = if eui64 = ownEui64 then some ownAddress else none :=
  FlatMap.get_insert ..

theorem nwkFor_claim (eui64 other : Eui64) (nwk : Nwk) :
    (addresses.claim eui64 nwk).nwkFor other =
      if other = eui64 then some nwk else (addresses.nwkFor other).filter (· ≠ nwk) := by
  unfold claim evictOtherOwners nwkFor
  rw [FlatMap.get_insert]
  split
  next => rfl
  next hne =>
    rw [FlatMap.get_retain]
    congr 1
    funext mapped
    simp [hne]

theorem nwkFor_forgetAddress (nwk : Nwk) (eui64 : Eui64) :
    (addresses.forgetAddress nwk).nwkFor eui64 = (addresses.nwkFor eui64).filter (· ≠ nwk) :=
  FlatMap.get_retain ..

theorem claimedByOther_eq_true {nwk : Nwk} {eui64 : Eui64} :
    addresses.claimedByOther nwk eui64 = true ↔
      nwk = addresses.ownAddress ∨ ∃ other ≠ eui64, addresses.nwkFor other = some nwk := by
  unfold claimedByOther nwkFor
  rw [Bool.or_eq_true, decide_eq_true_eq, List.any_eq_true]
  refine or_congr_right ⟨?_, ?_⟩
  · rintro ⟨⟨other, mapped⟩, hmem, h⟩
    rw [Bool.and_eq_true, decide_eq_true_eq, decide_eq_true_eq] at h
    obtain ⟨rfl, hne⟩ := h
    exact ⟨other, hne, FlatMap.mem_entries.mp hmem⟩
  · rintro ⟨other, hne, hget⟩
    exact ⟨(other, nwk), FlatMap.mem_entries.mpr hget, by simp [hne]⟩

/-- What `update_mapping` does: nothing, or one entry. -/
theorem updateMapping_cases (addresses : AddressMap) (eui64 : Eui64) (nwk : Nwk) :
    addresses.nwkFor eui64 = some nwk ∧ addresses.updateMapping eui64 nwk = (false, addresses) ∨
    addresses.nwkFor eui64 ≠ some nwk ∧
      (nwk = addresses.ownAddress ∨ ∃ other ≠ eui64, addresses.nwkFor other = some nwk) ∧
      addresses.updateMapping eui64 nwk = (true, addresses) ∨
    addresses.nwkFor eui64 ≠ some nwk ∧ nwk ≠ addresses.ownAddress ∧
      (∀ other ≠ eui64, addresses.nwkFor other ≠ some nwk) ∧
      addresses.updateMapping eui64 nwk =
        (false, { addresses with map := addresses.map.insert eui64 nwk }) := by
  unfold updateMapping
  split_ifs with hsame hclaimed
  · exact .inl ⟨hsame, rfl⟩
  · exact .inr (.inl ⟨hsame, claimedByOther_eq_true.mp hclaimed, rfl⟩)
  · have hfree := mt claimedByOther_eq_true.mpr hclaimed
    push Not at hfree
    exact .inr (.inr ⟨hsame, hfree.1, hfree.2, rfl⟩)

theorem ownAddress_updateMapping (addresses : AddressMap) (eui64 : Eui64) (nwk : Nwk) :
    (addresses.updateMapping eui64 nwk).2.ownAddress = addresses.ownAddress := by
  unfold updateMapping
  split_ifs <;> rfl

/-! ## A single owner -/

/-- No two devices have one address. -/
def SingleOwner (addresses : AddressMap) : Prop :=
  ∀ eui64 other nwk, addresses.nwkFor eui64 = some nwk → addresses.nwkFor other = some nwk →
    eui64 = other

theorem singleOwner_new (ownAddress : Nwk) (ownEui64 : Eui64) :
    (new ownAddress ownEui64).SingleOwner := by
  intro eui64 other nwk h h'
  rw [nwkFor_new, Option.ite_none_right_eq_some] at h h'
  exact h.1.trans h'.1.symm

theorem SingleOwner.updateMapping (h : addresses.SingleOwner) (eui64 : Eui64) (nwk : Nwk) :
    (addresses.updateMapping eui64 nwk).2.SingleOwner := by
  rcases updateMapping_cases addresses eui64 nwk with
    ⟨-, heq⟩ | ⟨-, -, heq⟩ | ⟨-, -, hfree, heq⟩
  · rw [heq]
    exact h
  · rw [heq]
    exact h
  · rw [heq]
    intro first second shared hfirst hsecond
    unfold nwkFor at hfirst hsecond
    rw [FlatMap.get_insert] at hfirst hsecond
    split_ifs at hfirst hsecond with hfirstEq hsecondEq hsecondEq
    · exact hfirstEq.trans hsecondEq.symm
    · cases hfirst
      exact absurd hsecond (hfree second hsecondEq)
    · cases hsecond
      exact absurd hfirst (hfree first hfirstEq)
    · exact h first second shared hfirst hsecond

theorem SingleOwner.claim (h : addresses.SingleOwner) (eui64 : Eui64) (nwk : Nwk) :
    (addresses.claim eui64 nwk).SingleOwner := by
  intro first second shared hfirst hsecond
  rw [nwkFor_claim] at hfirst hsecond
  split_ifs at hfirst hsecond with hfirstEq hsecondEq hsecondEq
  · exact hfirstEq.trans hsecondEq.symm
  · cases hfirst
    simp [Option.filter_eq_some_iff] at hsecond
  · cases hsecond
    simp [Option.filter_eq_some_iff] at hfirst
  · rw [Option.filter_eq_some_iff] at hfirst hsecond
    exact h first second shared hfirst.1 hsecond.1

theorem SingleOwner.forgetAddress (h : addresses.SingleOwner) (nwk : Nwk) :
    (addresses.forgetAddress nwk).SingleOwner := by
  intro first second shared hfirst hsecond
  rw [nwkFor_forgetAddress, Option.filter_eq_some_iff] at hfirst hsecond
  exact h first second shared hfirst.1 hsecond.1

/-- With single owners, the two lookups are inverse to each other. -/
theorem SingleOwner.eui64For_eq_some (h : addresses.SingleOwner) {nwk : Nwk} {eui64 : Eui64} :
    addresses.eui64For nwk = some eui64 ↔ addresses.nwkFor eui64 = some nwk := by
  unfold eui64For
  constructor
  · intro hfound
    obtain ⟨⟨other, mapped⟩, hfind, rfl⟩ := Option.map_eq_some_iff.mp hfound
    obtain ⟨hget, hmapped⟩ := FlatMap.get_of_findValue hfind
    rw [nwkFor, hget, of_decide_eq_true hmapped]
  · intro hget
    cases hfind : addresses.map.findValue (· = nwk) with
    | none =>
      have := FlatMap.findValue_eq_none.mp hfind eui64 nwk hget
      simp at this
    | some found =>
      obtain ⟨other, mapped⟩ := found
      obtain ⟨hother, hmapped⟩ := FlatMap.get_of_findValue hfind
      rw [of_decide_eq_true hmapped] at hother
      rw [Option.map_some, h other eui64 nwk hother hget]

/-! ## Runs -/

/-- The maps that a stack can have. -/
inductive Reachable (ownAddress : Nwk) (ownEui64 : Eui64) : AddressMap → Prop where
  | new : Reachable ownAddress ownEui64 (new ownAddress ownEui64)
  | updateMapping {addresses : AddressMap} (h : Reachable ownAddress ownEui64 addresses)
      (eui64 : Eui64) (nwk : Nwk) :
      Reachable ownAddress ownEui64 (addresses.updateMapping eui64 nwk).2
  | claim {addresses : AddressMap} (h : Reachable ownAddress ownEui64 addresses) (eui64 : Eui64)
      (nwk : Nwk) : Reachable ownAddress ownEui64 (addresses.claim eui64 nwk)
  | forgetAddress {addresses : AddressMap} (h : Reachable ownAddress ownEui64 addresses)
      (nwk : Nwk) : Reachable ownAddress ownEui64 (addresses.forgetAddress nwk)

variable {ownAddress : Nwk} {ownEui64 : Eui64}

theorem Reachable.singleOwner (h : Reachable ownAddress ownEui64 addresses) :
    addresses.SingleOwner := by
  induction h with
  | new => exact singleOwner_new ownAddress ownEui64
  | updateMapping _ eui64 nwk ih => exact ih.updateMapping eui64 nwk
  | claim _ eui64 nwk ih => exact ih.claim eui64 nwk
  | forgetAddress _ nwk ih => exact ih.forgetAddress nwk

theorem Reachable.ownAddress_eq (h : Reachable ownAddress ownEui64 addresses) :
    addresses.ownAddress = ownAddress := by
  induction h with
  | new => rfl
  | updateMapping _ eui64 nwk ih => rw [ownAddress_updateMapping, ih]
  | claim _ _ _ ih => exact ih
  | forgetAddress _ _ ih => exact ih

/-- A generated address is in no device's mapping. -/
theorem nwkFor_ne_of_generateUnused {neighbors : Neighbors} {candidates : List Nwk} {nwk : Nwk}
    (h : addresses.generateUnused neighbors candidates = .ok nwk) (eui64 : Eui64) :
    addresses.nwkFor eui64 ≠ some nwk := by
  have hunused := List.find?_some (Checked.expect_eq_ok.mp h)
  simp only [Bool.and_eq_true, Bool.not_eq_true', List.any_eq_false, decide_eq_true_eq] at hunused
  intro hget
  exact hunused.1.2 nwk (FlatMap.mem_values.mpr ⟨eui64, hget⟩) rfl

/-- A network address has a single owner in every map that a stack can have: the two
lookups are inverse, `update_mapping` reports exactly the conflicts and else writes the one
mapping, and no address that another device owns is handed out. -/
theorem network_address_single_owner (h : Reachable ownAddress ownEui64 addresses) :
    addresses.SingleOwner ∧
    (∀ nwk eui64, addresses.eui64For nwk = some eui64 ↔ addresses.nwkFor eui64 = some nwk) ∧
    (∀ eui64 nwk,
      ((addresses.updateMapping eui64 nwk).1 = true ↔ addresses.nwkFor eui64 ≠ some nwk ∧
        (nwk = ownAddress ∨ ∃ other ≠ eui64, addresses.nwkFor other = some nwk)) ∧
      ((addresses.updateMapping eui64 nwk).1 = true →
        (addresses.updateMapping eui64 nwk).2 = addresses) ∧
      ((addresses.updateMapping eui64 nwk).1 = false →
        (addresses.updateMapping eui64 nwk).2.nwkFor eui64 = some nwk ∧
        ∀ other ≠ eui64,
          (addresses.updateMapping eui64 nwk).2.nwkFor other = addresses.nwkFor other)) ∧
    (∀ eui64 neighbors candidates nwk, addresses.allocate eui64 neighbors candidates = .ok nwk →
      ∀ other ≠ eui64, addresses.nwkFor other ≠ some nwk) ∧
    ∀ neighbors candidates nwk, addresses.generateUnused neighbors candidates = .ok nwk →
      ∀ eui64, addresses.nwkFor eui64 ≠ some nwk := by
  have howner := h.singleOwner
  refine ⟨howner, fun nwk eui64 => howner.eui64For_eq_some, fun eui64 nwk => ?_, ?_,
    fun neighbors candidates nwk => nwkFor_ne_of_generateUnused⟩
  · rcases updateMapping_cases addresses eui64 nwk with
      ⟨hsame, heq⟩ | ⟨hother, hclaimed, heq⟩ | ⟨hother, hown, hfree, heq⟩
    · rw [heq]
      exact ⟨⟨nofun, fun hconflict => absurd hsame hconflict.1⟩, fun _ => rfl,
        fun _ => ⟨hsame, fun _ _ => rfl⟩⟩
    · rw [heq]
      rw [h.ownAddress_eq] at hclaimed
      exact ⟨⟨fun _ => ⟨hother, hclaimed⟩, fun _ => rfl⟩, fun _ => rfl, nofun⟩
    · rw [heq]
      rw [h.ownAddress_eq] at hown
      refine ⟨⟨nofun, ?_⟩, nofun, fun _ => ⟨?_, fun other hne => ?_⟩⟩
      · rintro ⟨-, hconflict | ⟨other, hne, hget⟩⟩
        · exact absurd hconflict hown
        · exact absurd hget (hfree other hne)
      · exact (FlatMap.get_insert ..).trans (if_pos rfl)
      · exact (FlatMap.get_insert ..).trans (if_neg hne)
  · intro eui64 neighbors candidates nwk hallocate other hne hget
    unfold allocate at hallocate
    cases hknown : addresses.nwkFor eui64 with
    | some known =>
      rw [hknown] at hallocate
      cases hallocate
      exact hne (howner other eui64 nwk hget hknown)
    | none =>
      rw [hknown] at hallocate
      exact nwkFor_ne_of_generateUnused hallocate other hget

/-- A device that announced its address, and the conflict that a second one causes. -/
theorem network_address_single_owner_annce :
    (((new 0 1).claim 7 0x1234).updateMapping 8 0x1234).1 = true :=
  ((network_address_single_owner (Reachable.new.claim 7 0x1234)).2.2.1 8 0x1234).1.mpr
    ⟨by decide +kernel, .inr ⟨7, by decide, by decide +kernel⟩⟩

end AddressMap

end Ziggurat
