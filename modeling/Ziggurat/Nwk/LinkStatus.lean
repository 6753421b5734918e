import Ziggurat.Nwk.Neighbors

/-!
# Link statuses in fragments

A router advertises the costs of its links in frames of seven entries.  Consecutive frames share
an entry: the last of one is the first of the next.  The receiver digests each frame as it comes.
It starts over with the first frame, adds up what the entries say about the connectivity of the
sender, and decides after each frame whether the link to the sender is lost.

`LinkView` is what the receiver keeps of the sender, and `onLinkStatus_linkView` says in sums what
one frame adds to it.  `onLinkStatuses_linkStatusFrames` says what all frames of a list add: a
list that is digested in fragments counts the shared entries twice, and loses the link for a
while if the first seven entries do not name the receiver.  `linkStatus_transparent_iff` says for
which lists neither shows.
-/

namespace Ziggurat

/-! ## The sender -/

/-- The link statuses of a table in the order in which they are sent.  Both costs are below 8. -/
def Neighbors.sortedLinkStatuses (neighbors : Neighbors) : List NwkLinkStatus :=
  (neighbors.linkStatusEntries.map fun (address, incomingCost, outgoingCost) =>
    ⟨address, Fin.ofNat _ incomingCost.toNat, Fin.ofNat _ outgoingCost.toNat⟩).mergeSort
      (·.address ≤ ·.address)

/-- `MAX_LINK_STATUSES`. -/
def maxLinkStatuses : Nat := 7

/-- The frame of the entries from `start` up to `stop`. -/
def linkStatusFrame (linkStatuses : List NwkLinkStatus) (start stop : Nat) :
    NwkLinkStatusCommand where
  isFirstFrame := start = 0
  isLastFrame := stop = linkStatuses.length
  linkStatuses := (linkStatuses.drop start).take (stop - start)

/-- The loop of `send_link_status_broadcast`: the frames from `start` on.  A frame repeats the
last entry of the one before. -/
def linkStatusFramesFrom (linkStatuses : List NwkLinkStatus) (start : Nat) :
    List NwkLinkStatusCommand :=
  let stop := min (start + maxLinkStatuses) linkStatuses.length
  if stop = linkStatuses.length then [linkStatusFrame linkStatuses start stop]
  else linkStatusFrame linkStatuses start stop :: linkStatusFramesFrom linkStatuses (stop - 1)
termination_by linkStatuses.length - start
decreasing_by
  have hmax : maxLinkStatuses = 7 := rfl
  omega

def linkStatusFrames (linkStatuses : List NwkLinkStatus) : List NwkLinkStatusCommand :=
  linkStatusFramesFrom linkStatuses 0

/-- The entries of the frames: seven, and the rest from the last of them on. -/
def fragments (linkStatuses : List NwkLinkStatus) : List (List NwkLinkStatus) :=
  if linkStatuses.length ≤ maxLinkStatuses then [linkStatuses]
  else linkStatuses.take maxLinkStatuses :: fragments (linkStatuses.drop (maxLinkStatuses - 1))
termination_by linkStatuses.length
decreasing_by
  have hmax : maxLinkStatuses = 7 := rfl
  rw [List.length_drop]
  omega

/-- The entries that are in two frames. -/
def repeated (linkStatuses : List NwkLinkStatus) : List NwkLinkStatus :=
  (fragments linkStatuses).tail.filterMap List.head?

theorem fragments_of_le {linkStatuses : List NwkLinkStatus}
    (h : linkStatuses.length ≤ maxLinkStatuses) : fragments linkStatuses = [linkStatuses] := by
  rw [fragments, if_pos h]

theorem fragments_of_lt {linkStatuses : List NwkLinkStatus}
    (h : maxLinkStatuses < linkStatuses.length) :
    fragments linkStatuses = linkStatuses.take maxLinkStatuses ::
      fragments (linkStatuses.drop (maxLinkStatuses - 1)) := by
  rw [fragments, if_neg (Nat.not_le.mpr h)]

theorem fragments_eq_cons (linkStatuses : List NwkLinkStatus) :
    ∃ rest, fragments linkStatuses = linkStatuses.take maxLinkStatuses :: rest := by
  by_cases h : linkStatuses.length ≤ maxLinkStatuses
  · exact ⟨[], by rw [fragments_of_le h, List.take_of_length_le h]⟩
  · exact ⟨_, fragments_of_lt (Nat.not_le.mp h)⟩

/-- The frames hold the fragments, and only the frame at the start is marked as the first. -/
theorem linkStatusFramesFrom_eq (linkStatuses : List NwkLinkStatus) (start : Nat) :
    (linkStatusFramesFrom linkStatuses start).map (·.linkStatuses) =
        fragments (linkStatuses.drop start) ∧
      ∃ frame frames, linkStatusFramesFrom linkStatuses start = frame :: frames ∧
        frame.isFirstFrame = decide (start = 0) ∧ ∀ other ∈ frames, other.isFirstFrame = false := by
  induction start using linkStatusFramesFrom.induct linkStatuses with
  | case1 start stop hlast =>
    have hlength : (linkStatuses.drop start).length ≤ maxLinkStatuses := by
      rw [List.length_drop]
      omega
    rw [linkStatusFramesFrom, if_pos hlast, fragments_of_le hlength]
    refine ⟨?_, _, [], rfl, rfl, nofun⟩
    rw [List.map_singleton, linkStatusFrame]
    dsimp only
    rw [List.take_of_length_le]
    rw [List.length_drop]
    omega
  | case2 start stop hmore ih =>
    have hstop : stop = start + maxLinkStatuses := by omega
    have hlength : maxLinkStatuses < (linkStatuses.drop start).length := by
      rw [List.length_drop]
      omega
    rw [linkStatusFramesFrom, if_neg hmore, fragments_of_lt hlength]
    obtain ⟨hstatuses, frame, frames, hframes, hfirst, hothers⟩ := ih
    constructor
    · rw [List.map_cons, hstatuses, List.drop_drop, linkStatusFrame]
      dsimp only
      rw [hstop]
      congr 3
      all_goals omega
    · refine ⟨_, _, rfl, rfl, ?_⟩
      rw [hframes]
      rintro other (_ | ⟨_, hother⟩)
      · rw [hfirst, decide_eq_false_iff_not]
        unfold maxLinkStatuses at hstop
        omega
      · exact hothers other hother

/-! ## Sums -/

/-- What an entry adds to the connectivity of its sender. -/
def NwkLinkStatus.connectivity (status : NwkLinkStatus) : Nat :=
  if 0 < status.outgoingCost then 7 - max status.incomingCost.val status.outgoingCost.val else 0

/-- The connectivity of the entries. -/
def connectivityOf (statuses : List NwkLinkStatus) : Nat :=
  (statuses.map NwkLinkStatus.connectivity).sum

/-- The connectivity of the entries whose router is not connected to us. -/
def diversityOf (connected : List Nwk) (statuses : List NwkLinkStatus) : Nat :=
  connectivityOf (statuses.filter (·.address ∉ connected))

/-- The cost that the entries leave the sender with: the last one that names us decides. -/
def costAfter (ownAddress : Nwk) (statuses : List NwkLinkStatus) (cost : UInt8) : UInt8 :=
  statuses.foldl (fun cost status =>
    if status.address = ownAddress then UInt8.ofNat status.incomingCost.val else cost) cost

/-- The addresses of connected neighbors: the others, and the sender if its cost is not zero. -/
def connectedWith (others : List Nwk) (networkAddress : Nwk) (cost : UInt8) : List Nwk :=
  if 0 < cost then networkAddress :: others else others

/-- Many saturating additions. -/
def addUp (total : UInt8) (n : Nat) : UInt8 := UInt8.ofNat (min 255 (total.toNat + n))

theorem toNat_addUp (total : UInt8) (n : Nat) :
    (addUp total n).toNat = min 255 (total.toNat + n) := by
  unfold addUp
  rw [UInt8.toNat_ofNat']
  omega

theorem addUp_zero (total : UInt8) : addUp total 0 = total := by
  have hlt := total.toNat_lt
  apply UInt8.toNat_inj.mp
  rw [toNat_addUp]
  omega

theorem addUp_addUp (total : UInt8) (m n : Nat) :
    addUp (addUp total m) n = addUp total (m + n) := by
  apply UInt8.toNat_inj.mp
  rw [toNat_addUp, toNat_addUp, toNat_addUp]
  omega

theorem saturatingAdd_ofNat (total : UInt8) {n : Nat} (h : n < 2 ^ 8) :
    UInt8.saturatingAdd total (UInt8.ofNat n) = addUp total n := by
  have hlt := total.toNat_lt
  have hn : (UInt8.ofNat n).toNat = n := by
    rw [UInt8.toNat_ofNat']
    omega
  apply UInt8.toNat_inj.mp
  rw [toNat_addUp]
  by_cases hsum : total.toNat + (UInt8.ofNat n).toNat < 2 ^ 8
  · rw [UInt8.toNat_saturatingAdd hsum, hn]
    omega
  · rw [UInt8.saturatingAdd, if_neg hsum]
    change 255 = _
    omega

/-- Two sums from zero saturate to the same value. -/
theorem addUp_zero_inj {m n : Nat} :
    addUp 0 m = addUp 0 n ↔ m = n ∨ 255 ≤ m ∧ 255 ≤ n := by
  rw [← UInt8.toNat_inj, toNat_addUp, toNat_addUp]
  change min 255 (0 + m) = min 255 (0 + n) ↔ _
  omega

@[simp] theorem connectivityOf_append (statuses statuses' : List NwkLinkStatus) :
    connectivityOf (statuses ++ statuses') =
      connectivityOf statuses + connectivityOf statuses' := by
  unfold connectivityOf
  rw [List.map_append, List.sum_append]

@[simp] theorem diversityOf_append (connected : List Nwk)
    (statuses statuses' : List NwkLinkStatus) :
    diversityOf connected (statuses ++ statuses') =
      diversityOf connected statuses + diversityOf connected statuses' := by
  unfold diversityOf
  rw [List.filter_append, connectivityOf_append]

/-- Which of two lists of connected neighbors is given does not matter if they have the same
members among the addresses of the entries. -/
theorem diversityOf_congr {connected connected' : List Nwk} {statuses : List NwkLinkStatus}
    (h : ∀ status ∈ statuses, status.address ∈ connected ↔ status.address ∈ connected') :
    diversityOf connected statuses = diversityOf connected' statuses := by
  unfold diversityOf
  congr 1
  exact List.filter_congr fun status hstatus => by rw [decide_eq_decide, h status hstatus]

/-- The entry on which a full frame ends and the next one begins. -/
theorem exists_boundary {statuses : List NwkLinkStatus} (h : maxLinkStatuses < statuses.length) :
    ∃ status, statuses.take maxLinkStatuses = statuses.take (maxLinkStatuses - 1) ++ [status] ∧
      statuses.drop (maxLinkStatuses - 1) = status :: statuses.drop maxLinkStatuses := by
  have hlast : maxLinkStatuses - 1 < statuses.length := by omega
  refine ⟨statuses[maxLinkStatuses - 1], ?_, List.drop_eq_getElem_cons hlast⟩
  calc statuses.take maxLinkStatuses
      = statuses.take (maxLinkStatuses - 1) ++ (statuses[maxLinkStatuses - 1]?).toList :=
        List.take_add_one
    _ = _ := by rw [List.getElem?_eq_getElem hlast]; rfl

/-- The fragments hold the list, and the repeated entries once more. -/
theorem flatten_fragments_perm (statuses : List NwkLinkStatus) :
    (fragments statuses).flatten.Perm (statuses ++ repeated statuses) := by
  induction statuses using fragments.induct with
  | case1 statuses h =>
    unfold repeated
    rw [fragments_of_le h]
    simp
  | case2 statuses h ih =>
    have hmore := Nat.not_le.mp h
    obtain ⟨rest, hfragments⟩ := fragments_eq_cons (statuses.drop (maxLinkStatuses - 1))
    obtain ⟨status, htake, hdrop⟩ := exists_boundary hmore
    have hrepeated : repeated statuses =
        status :: repeated (statuses.drop (maxLinkStatuses - 1)) := by
      unfold repeated
      rw [fragments_of_lt hmore, List.tail_cons, hfragments, List.filterMap_cons,
        List.head?_take, if_neg (by decide), hdrop]
      rfl
    have hsplit : statuses ++ repeated statuses = statuses.take (maxLinkStatuses - 1) ++
        (statuses.drop (maxLinkStatuses - 1) ++ repeated statuses) := by
      rw [← List.append_assoc, List.take_append_drop]
    rw [fragments_of_lt hmore, List.flatten_cons, htake, hsplit, hrepeated, List.append_assoc,
      List.singleton_append]
    -- the repeated entry moves behind the rest of the list
    exact ((ih.cons status).trans List.perm_middle.symm).append_left _

theorem mem_of_mem_flatten_fragments {statuses : List NwkLinkStatus} {status : NwkLinkStatus}
    (h : status ∈ (fragments statuses).flatten) : status ∈ statuses := by
  induction statuses using fragments.induct with
  | case1 statuses hshort =>
    rw [fragments_of_le hshort] at h
    simpa using h
  | case2 statuses hmore ih =>
    rw [fragments_of_lt (Nat.not_le.mp hmore), List.flatten_cons, List.mem_append] at h
    exact h.elim List.mem_of_mem_take fun h => List.mem_of_mem_drop (ih h)

theorem connectivityOf_flatten_fragments (statuses : List NwkLinkStatus) :
    connectivityOf (fragments statuses).flatten =
      connectivityOf statuses + connectivityOf (repeated statuses) := by
  rw [← connectivityOf_append]
  exact ((flatten_fragments_perm statuses).map _).sum_nat

theorem diversityOf_flatten_fragments (connected : List Nwk) (statuses : List NwkLinkStatus) :
    diversityOf connected (fragments statuses).flatten =
      diversityOf connected statuses + diversityOf connected (repeated statuses) := by
  rw [← diversityOf_append]
  exact (((flatten_fragments_perm statuses).filter _).map _).sum_nat

theorem costAfter_append (ownAddress : Nwk) (statuses statuses' : List NwkLinkStatus)
    (cost : UInt8) :
    costAfter ownAddress (statuses ++ statuses') cost =
      costAfter ownAddress statuses' (costAfter ownAddress statuses cost) :=
  List.foldl_append

/-- To hear an entry twice in a row changes no cost. -/
theorem costAfter_twice (ownAddress : Nwk) (status : NwkLinkStatus) (rest : List NwkLinkStatus)
    (cost : UInt8) :
    costAfter ownAddress (status :: rest) (costAfter ownAddress [status] cost) =
      costAfter ownAddress (status :: rest) cost := by
  unfold costAfter
  simp only [List.foldl_cons, List.foldl_nil]
  congr 1
  split
  next => rfl
  next => rfl

/-- A frame that begins with the last entry that was heard goes on where the list does. -/
theorem costAfter_overlap (ownAddress : Nwk) {statuses : List NwkLinkStatus} {m : Nat}
    (h : m < statuses.length) (n : Nat) (cost : UInt8) :
    costAfter ownAddress ((statuses.drop m).take (n + 1))
        (costAfter ownAddress (statuses.take (m + 1)) cost) =
      costAfter ownAddress (statuses.take (m + (n + 1))) cost := by
  have hheard : statuses.take (m + 1) = statuses.take m ++ [statuses[m]] := by
    rw [List.take_add_one, List.getElem?_eq_getElem h]
    rfl
  have hall : statuses.take (m + (n + 1)) = statuses.take m ++ (statuses.drop m).take (n + 1) :=
    List.take_add
  rw [hall, hheard, costAfter_append, costAfter_append, List.drop_eq_getElem_cons h,
    List.take_succ_cons, costAfter_twice]

theorem costAfter_flatten_fragments (ownAddress : Nwk) (statuses : List NwkLinkStatus)
    (cost : UInt8) :
    costAfter ownAddress (fragments statuses).flatten cost =
      costAfter ownAddress statuses cost := by
  induction statuses using fragments.induct generalizing cost with
  | case1 statuses h =>
    rw [fragments_of_le h, List.flatten_cons, List.flatten_nil, List.append_nil]
  | case2 statuses h ih =>
    have hmore := Nat.not_le.mp h
    have hoverlap := costAfter_overlap ownAddress (Nat.lt_of_succ_lt hmore) statuses.length cost
    have hall : statuses.take (6 + (statuses.length + 1)) = statuses :=
      List.take_of_length_le (by omega)
    rw [hall, List.take_of_length_le (by rw [List.length_drop]; omega)] at hoverlap
    rw [fragments_of_lt hmore, List.flatten_cons, costAfter_append, ih]
    exact hoverlap

theorem diversityOf_connectedWith {others : List Nwk} {networkAddress : Nwk} {cost : UInt8}
    {statuses : List NwkLinkStatus}
    (h : ∀ status ∈ statuses, status.address = networkAddress → networkAddress ∈ others) :
    diversityOf (connectedWith others networkAddress cost) statuses =
      diversityOf others statuses := by
  refine diversityOf_congr fun status hstatus => ?_
  unfold connectedWith
  split
  next =>
    rw [List.mem_cons, or_iff_right_iff_imp]
    exact fun heq => heq ▸ h status hstatus heq
  next => rfl

/-- The fragments, each with the cost of the sender when it arrives. -/
def arriving (ownAddress : Nwk) :
    UInt8 → List (List NwkLinkStatus) → List (UInt8 × List NwkLinkStatus)
  | _, [] => []
  | cost, fragment :: fragments =>
    (cost, fragment) :: arriving ownAddress (costAfter ownAddress fragment cost) fragments

/-- The diversity that fragments add, each against the neighbors that are connected when it
arrives. -/
def arrivingDiversity (others : List Nwk) (networkAddress : Nwk)
    (arrivals : List (UInt8 × List NwkLinkStatus)) : Nat :=
  (arrivals.map fun (cost, fragment) =>
    diversityOf (connectedWith others networkAddress cost) fragment).sum

/-- A sender that does not list its own address counts the same in all frames. -/
theorem arrivingDiversity_unlisted {ownAddress : Nwk} {others : List Nwk} {networkAddress : Nwk}
    {fragments : List (List NwkLinkStatus)}
    (h : ∀ status ∈ fragments.flatten, status.address = networkAddress → networkAddress ∈ others)
    (cost : UInt8) :
    arrivingDiversity others networkAddress (arriving ownAddress cost fragments) =
      diversityOf others fragments.flatten := by
  induction fragments generalizing cost with
  | nil => rfl
  | cons fragment fragments ih =>
    refine .trans (congrArg₂ (· + ·) (diversityOf_connectedWith fun status hstatus => ?_)
      (ih (fun status hstatus => ?_) _)) (diversityOf_append others fragment _).symm
    · exact h status (List.mem_append_left _ hstatus)
    · exact h status (List.mem_append_right _ hstatus)

/-- The frames behind the first: the one that begins at the entry `6 * k + 6` comes when the first
`6 * k + 7` entries have been heard. -/
def behindFirst (ownAddress : Nwk) (cost : UInt8) (statuses : List NwkLinkStatus) :
    List (UInt8 × List NwkLinkStatus) :=
  (List.range ((statuses.length - 2) / 6)).map fun k =>
    (costAfter ownAddress (statuses.take (6 * k + 7)) cost, (statuses.drop (6 * k + 6)).take 7)

theorem arriving_fragments (ownAddress : Nwk) (statuses : List NwkLinkStatus) (cost : UInt8) :
    arriving ownAddress cost (fragments statuses) =
      (cost, statuses.take 7) :: behindFirst ownAddress cost statuses := by
  unfold behindFirst
  induction statuses using fragments.induct generalizing cost with
  | case1 statuses h =>
    have hshort : statuses.length ≤ 7 := h
    rw [fragments_of_le h, List.take_of_length_le hshort, Nat.div_eq_of_lt (by omega)]
    rfl
  | case2 statuses h ih =>
    have hmore := Nat.not_le.mp h
    have hlong : 7 < statuses.length := hmore
    have hcount : (statuses.length - 2) / 6 = ((statuses.drop 6).length - 2) / 6 + 1 := by
      rw [List.length_drop]
      omega
    rw [fragments_of_lt hmore, hcount, List.range_succ_eq_map, List.map_cons, List.map_map]
    refine congrArg (_ :: ·) ((ih _).trans (congrArg (_ :: ·) (List.map_congr_left fun k _ => ?_)))
    refine Prod.ext ((costAfter_overlap ownAddress (by omega : 6 < _) (6 * k + 6) cost).trans ?_) ?_
    · exact congrArg (fun n => costAfter ownAddress (statuses.take n) cost) (by omega)
    · have hplace : maxLinkStatuses - 1 + (6 * k + 6) = 6 * (k + 1) + 6 := by
        unfold maxLinkStatuses
        omega
      dsimp only
      rw [List.drop_drop, hplace]
      rfl

theorem behindFirst_unlisted {ownAddress : Nwk} {others : List Nwk} {networkAddress : Nwk}
    {statuses : List NwkLinkStatus}
    (h : ∀ status ∈ statuses, status.address = networkAddress → networkAddress ∈ others)
    (cost : UInt8) :
    arrivingDiversity others networkAddress
        ((cost, statuses.take 7) :: behindFirst ownAddress 0 statuses) =
      diversityOf others statuses + diversityOf others (repeated statuses) := by
  have hframes : ∀ status ∈ (fragments statuses).flatten,
      status.address = networkAddress → networkAddress ∈ others := fun status hstatus =>
    h status (mem_of_mem_flatten_fragments hstatus)
  rw [← diversityOf_flatten_fragments, ← arrivingDiversity_unlisted hframes 0, arriving_fragments]
  unfold arrivingDiversity
  rw [List.map_cons, List.map_cons, List.sum_cons, List.sum_cons]
  congr 1
  exact diversityOf_connectedWith fun status hstatus => h status (List.mem_of_mem_take hstatus)

/-! ## The receiver -/

/-- What the receiver keeps of the links of the sender. -/
structure LinkView where
  networkAddress : Nwk
  outgoingCost : UInt8
  connectivity : UInt8
  diversity : UInt8

namespace LinkView

/-- The addresses of connected neighbors, `others` apart from the sender. -/
def connected (view : LinkView) (others : List Nwk) : List Nwk :=
  connectedWith others view.networkAddress view.outgoingCost

/-- One frame. -/
def digest (ownAddress : Nwk) (others : List Nwk) (view : LinkView) (isFirstFrame : Bool)
    (statuses : List NwkLinkStatus) : LinkView :=
  let start := if isFirstFrame then ⟨view.networkAddress, 0, 0, 0⟩ else view
  { networkAddress := view.networkAddress
    outgoingCost := costAfter ownAddress statuses start.outgoingCost
    connectivity := addUp start.connectivity (connectivityOf statuses)
    diversity := addUp start.diversity (diversityOf (view.connected others) statuses) }

end LinkView

namespace Neighbors

def TableEntry.linkView (entry : TableEntry) : LinkView :=
  ⟨entry.networkAddress, entry.outgoingCost, entry.routerConnectivity,
    entry.routerNeighborSetDiversity⟩

/-- The view of a sender, that we may not know yet. -/
def linkView (neighbors : Neighbors) (sourceIeee : Eui64) (sourceNwk : Nwk) : LinkView :=
  ((neighbors.table.get sourceIeee).map TableEntry.linkView).getD ⟨sourceNwk, 0, 0, 0⟩

/-- The addresses of the connected neighbors. -/
def connectedOf (table : FlatMap Eui64 TableEntry) : List Nwk :=
  (table.values.filter (0 < ·.outgoingCost)).map (·.networkAddress)

def connectedOthers (neighbors : Neighbors) (sourceIeee : Eui64) : List Nwk :=
  connectedOf (neighbors.table.remove sourceIeee)

theorem mem_connectedOf {table : FlatMap Eui64 TableEntry} {nwk : Nwk} :
    nwk ∈ connectedOf table ↔
      ∃ eui64 entry, table.get eui64 = some entry ∧ 0 < entry.outgoingCost ∧
        entry.networkAddress = nwk := by
  unfold connectedOf
  rw [List.mem_map]
  constructor
  · rintro ⟨entry, hmem, hnwk⟩
    obtain ⟨hvalue, hcost⟩ := List.mem_filter.mp hmem
    obtain ⟨eui64, hget⟩ := FlatMap.mem_values.mp hvalue
    exact ⟨eui64, entry, hget, of_decide_eq_true hcost, hnwk⟩
  · rintro ⟨eui64, entry, hget, hcost, hnwk⟩
    exact ⟨entry, List.mem_filter.mpr ⟨FlatMap.mem_values.mpr ⟨eui64, hget⟩,
      decide_eq_true hcost⟩, hnwk⟩

/-- The connected neighbors are the others, and the sender if it is connected. -/
theorem mem_connectedOf_iff {neighbors : Neighbors} {sourceIeee : Eui64} {sourceNwk nwk : Nwk} :
    nwk ∈ connectedOf neighbors.table ↔
      nwk ∈ (neighbors.linkView sourceIeee sourceNwk).connected
        (neighbors.connectedOthers sourceIeee) := by
  have hothers : nwk ∈ neighbors.connectedOthers sourceIeee ↔
      ∃ eui64 entry, eui64 ≠ sourceIeee ∧ neighbors.table.get eui64 = some entry ∧
        0 < entry.outgoingCost ∧ entry.networkAddress = nwk := by
    unfold connectedOthers
    rw [mem_connectedOf]
    constructor
    · rintro ⟨eui64, entry, hget, hentry⟩
      rw [FlatMap.get_remove] at hget
      split at hget
      next => cases hget
      next hne => exact ⟨eui64, entry, hne, hget, hentry⟩
    · rintro ⟨eui64, entry, hne, hget, hentry⟩
      exact ⟨eui64, entry, by rw [FlatMap.get_remove, if_neg hne, hget], hentry⟩
  have hconnected : nwk ∈ (neighbors.linkView sourceIeee sourceNwk).connected
      (neighbors.connectedOthers sourceIeee) ↔
        (∃ entry, neighbors.table.get sourceIeee = some entry ∧ 0 < entry.outgoingCost ∧
          entry.networkAddress = nwk) ∨ nwk ∈ neighbors.connectedOthers sourceIeee := by
    unfold LinkView.connected connectedWith linkView
    cases hget : neighbors.table.get sourceIeee with
    | none => simp
    | some entry =>
      by_cases hcost : 0 < entry.outgoingCost
      · simp [TableEntry.linkView, hcost, eq_comm]
      · simp [TableEntry.linkView, hcost]
  rw [mem_connectedOf, hconnected, hothers]
  constructor
  · rintro ⟨eui64, entry, hget, hentry⟩
    by_cases heq : eui64 = sourceIeee
    · exact .inl ⟨entry, heq ▸ hget, hentry⟩
    · exact .inr ⟨eui64, entry, heq, hget, hentry⟩
  · rintro (⟨entry, hentry⟩ | ⟨eui64, entry, -, hentry⟩)
    · exact ⟨sourceIeee, entry, hentry⟩
    · exact ⟨eui64, entry, hentry⟩

/-- One entry, in sums. -/
theorem linkView_digestLinkStatus (ownAddress : Nwk) (connected : List Nwk) (entry : TableEntry)
    (status : NwkLinkStatus) :
    (digestLinkStatus ownAddress connected entry status).linkView =
      { networkAddress := entry.networkAddress
        outgoingCost := costAfter ownAddress [status] entry.outgoingCost
        connectivity := addUp entry.routerConnectivity (connectivityOf [status])
        diversity := addUp entry.routerNeighborSetDiversity (diversityOf connected [status]) } := by
  have hlt : 7 - max status.incomingCost.val status.outgoingCost.val < 2 ^ 8 := by omega
  have hadd (total : UInt8) := saturatingAdd_ofNat total hlt
  have hconnectivity : connectivityOf [status] = status.connectivity := by
    simp [connectivityOf]
  have hdiversity : diversityOf connected [status] =
      if status.address ∈ connected then 0 else status.connectivity := by
    unfold diversityOf
    by_cases hmem : status.address ∈ connected <;> simp [hmem, connectivityOf]
  rw [hconnectivity, hdiversity]
  unfold digestLinkStatus NwkLinkStatus.connectivity costAfter TableEntry.linkView
  rcases eq_or_ne status.address ownAddress with rfl | hown
  · by_cases hcost : 0 < status.outgoingCost <;> by_cases hmem : status.address ∈ connected <;>
      simp [hcost, hmem, hadd, addUp_zero]
  · by_cases hcost : 0 < status.outgoingCost <;> by_cases hmem : status.address ∈ connected <;>
      simp [hcost, hmem, hown, hadd, addUp_zero]

/-- All entries of a frame. -/
theorem linkView_foldl (ownAddress : Nwk) (connected : List Nwk) (statuses : List NwkLinkStatus)
    (entry : TableEntry) :
    (statuses.foldl (digestLinkStatus ownAddress connected) entry).linkView =
      { networkAddress := entry.networkAddress
        outgoingCost := costAfter ownAddress statuses entry.outgoingCost
        connectivity := addUp entry.routerConnectivity (connectivityOf statuses)
        diversity := addUp entry.routerNeighborSetDiversity (diversityOf connected statuses) } := by
  induction statuses generalizing entry with
  | nil =>
    change entry.linkView = ⟨_, _, addUp _ 0, addUp _ 0⟩
    rw [addUp_zero, addUp_zero]
    rfl
  | cons status statuses ih =>
    have hstep := linkView_digestLinkStatus ownAddress connected entry status
    injection hstep with haddress hcost hconnectivity hdiversity
    rw [List.foldl_cons, ih, haddress, hcost, hconnectivity, hdiversity, addUp_addUp, addUp_addUp,
      ← connectivityOf_append, ← diversityOf_append]
    rfl

section

variable {neighbors : Neighbors} {ownAddress : Nwk} {sourceIeee : Eui64} {sourceNwk : Nwk}
  {lqi : UInt8} {command : NwkLinkStatusCommand} {now : Instant}

/-- The entry of the sender before the command is read: found or made, a router, and started
over by a first frame. -/
def statusEntry (neighbors : Neighbors) (sourceIeee : Eui64) (sourceNwk : Nwk) (lqi : UInt8)
    (isFirstFrame : Bool) (now : Instant) : TableEntry :=
  let entry := (neighbors.table.get sourceIeee).getD (sibling sourceIeee sourceNwk
    (LqaSamples.push ((neighbors.pendingLqas.get sourceNwk).getD []) lqi) now)
  let entry :=
    if entry.deviceType = .endDevice then { entry with deviceType := .router, rxOnWhenIdle := true }
    else entry
  let entry := { entry with lastLinkStatusTimestamp := now }
  if isFirstFrame then
    { entry with routerConnectivity := 0, routerNeighborSetDiversity := 0, outgoingCost := 0 }
  else entry

theorem linkView_statusEntry {isFirstFrame : Bool} :
    (neighbors.statusEntry sourceIeee sourceNwk lqi isFirstFrame now).linkView =
      if isFirstFrame then ⟨(neighbors.linkView sourceIeee sourceNwk).networkAddress, 0, 0, 0⟩
      else neighbors.linkView sourceIeee sourceNwk := by
  unfold statusEntry linkView
  cases neighbors.table.get sourceIeee with
  | none => cases isFirstFrame <;> rfl
  | some entry =>
    dsimp only [Option.getD_some, Option.map_some]
    by_cases htype : entry.deviceType = .endDevice
    · rw [if_pos htype]
      cases isFirstFrame <;> rfl
    · rw [if_neg htype]
      cases isFirstFrame <;> rfl

/-- The handler in two steps: the entry of the sender, and the statuses. -/
theorem onLinkStatus_eq :
    neighbors.onLinkStatus ownAddress sourceIeee sourceNwk lqi command now =
      let entry := command.linkStatuses.foldl
        (digestLinkStatus ownAddress (connectedOf neighbors.table))
        (neighbors.statusEntry sourceIeee sourceNwk lqi command.isFirstFrame now)
      (if 0 < (neighbors.statusEntry sourceIeee sourceNwk lqi false now).outgoingCost ∧
          entry.outgoingCost = 0 then
        some entry.networkAddress
      else none,
        { table := neighbors.table.insert sourceIeee entry
          pendingLqas := neighbors.pendingLqas.remove sourceNwk }) :=
  rfl

/-- The statuses only change the costs of their sender. -/
theorem exists_foldl_digestLinkStatus (ownAddress : Nwk) (connected : List Nwk)
    (statuses : List NwkLinkStatus) (entry : TableEntry) :
    ∃ outgoingCost routerConnectivity routerNeighborSetDiversity,
      statuses.foldl (digestLinkStatus ownAddress connected) entry =
        { entry with
          outgoingCost := outgoingCost
          routerConnectivity := routerConnectivity
          routerNeighborSetDiversity := routerNeighborSetDiversity } := by
  induction statuses generalizing entry with
  | nil => exact ⟨_, _, _, rfl⟩
  | cons status statuses ih =>
    obtain ⟨outgoingCost, routerConnectivity, routerNeighborSetDiversity, heq⟩ :=
      ih (digestLinkStatus ownAddress connected entry status)
    refine ⟨outgoingCost, routerConnectivity, routerNeighborSetDiversity, heq.trans ?_⟩
    unfold digestLinkStatus
    by_cases hcost : 0 < status.outgoingCost <;> by_cases hown : status.address = ownAddress <;>
      simp only [hcost, hown, if_true, if_false]

/-- The entry that a frame leaves its sender with: the one that it had, or a new one with the
samples that were buffered and the one of the frame. -/
theorem exists_onLinkStatus_table (neighbors : Neighbors) (ownAddress : Nwk) (sourceIeee : Eui64)
    (sourceNwk : Nwk) (lqi : UInt8) (command : NwkLinkStatusCommand) (now : Instant) :
    ∃ entry rxOnWhenIdle outgoingCost routerConnectivity routerNeighborSetDiversity,
      entry = (neighbors.table.get sourceIeee).getD (sibling sourceIeee sourceNwk
        (LqaSamples.push ((neighbors.pendingLqas.get sourceNwk).getD []) lqi) now) ∧
      (neighbors.onLinkStatus ownAddress sourceIeee sourceNwk lqi command now).2.table =
        neighbors.table.insert sourceIeee
          { entry with
            deviceType := if entry.deviceType = .endDevice then .router else entry.deviceType
            rxOnWhenIdle := rxOnWhenIdle
            lastLinkStatusTimestamp := now
            outgoingCost := outgoingCost
            routerConnectivity := routerConnectivity
            routerNeighborSetDiversity := routerNeighborSetDiversity } := by
  obtain ⟨outgoingCost, routerConnectivity, routerNeighborSetDiversity, hdigest⟩ :=
    exists_foldl_digestLinkStatus ownAddress (connectedOf neighbors.table) command.linkStatuses
      (neighbors.statusEntry sourceIeee sourceNwk lqi command.isFirstFrame now)
  refine ⟨_, (neighbors.statusEntry sourceIeee sourceNwk lqi command.isFirstFrame
    now).rxOnWhenIdle, outgoingCost, routerConnectivity, routerNeighborSetDiversity, rfl, ?_⟩
  rw [onLinkStatus_eq, hdigest]
  unfold statusEntry sibling
  generalize (neighbors.table.get sourceIeee).getD _ = entry
  by_cases htype : entry.deviceType = .endDevice <;> cases command.isFirstFrame <;>
    simp only [htype, if_true, if_false, Bool.false_eq_true]

/-- What a frame does to the view of its sender, and when the link is reported lost. -/
theorem onLinkStatus_linkView :
    let view := neighbors.linkView sourceIeee sourceNwk
    let view' := view.digest ownAddress (neighbors.connectedOthers sourceIeee)
      command.isFirstFrame command.linkStatuses
    let result := neighbors.onLinkStatus ownAddress sourceIeee sourceNwk lqi command now
    (∃ entry, result.2.table.get sourceIeee = some entry ∧ entry.linkView = view') ∧
      result.2.connectedOthers sourceIeee = neighbors.connectedOthers sourceIeee ∧
      result.1 = if 0 < view.outgoingCost ∧ view'.outgoingCost = 0 then some view.networkAddress
        else none := by
  intro view view' result
  have hstart : (neighbors.statusEntry sourceIeee sourceNwk lqi command.isFirstFrame now).linkView =
      if command.isFirstFrame then ⟨view.networkAddress, 0, 0, 0⟩ else view := linkView_statusEntry
  have hbefore : (neighbors.statusEntry sourceIeee sourceNwk lqi false now).linkView = view :=
    linkView_statusEntry
  have hdigest : (command.linkStatuses.foldl
      (digestLinkStatus ownAddress (connectedOf neighbors.table))
      (neighbors.statusEntry sourceIeee sourceNwk lqi command.isFirstFrame now)).linkView =
        view' := by
    rw [linkView_foldl, diversityOf_congr fun _ _ => mem_connectedOf_iff]
    unfold view' LinkView.digest
    dsimp only
    rw [← hstart]
    congr 1
    have haddress := congrArg LinkView.networkAddress hstart
    rwa [apply_ite LinkView.networkAddress, ite_self] at haddress
  have hresult : result = _ := onLinkStatus_eq
  refine ⟨?_, ?_, ?_⟩
  · exact ⟨_, by rw [hresult, FlatMap.get_insert, if_pos rfl], hdigest⟩
  · have htable : result.2.table.remove sourceIeee = neighbors.table.remove sourceIeee := by
      refine FlatMap.ext_get fun key => ?_
      rw [hresult, FlatMap.get_remove, FlatMap.get_remove, FlatMap.get_insert]
      split
      next => rfl
      next => rfl
    unfold connectedOthers
    rw [htable]
  · have haddress : view'.networkAddress = view.networkAddress := rfl
    rw [hresult, ← haddress, ← hdigest, ← hbefore]
    rfl

end

/-! ## All frames of a list -/

/-- Digest frames in order, the frame `k` when the radio measured `lqi k` at `now k`.  What was
reported after each, and the table in the end. -/
def onLinkStatuses (ownAddress : Nwk) (sourceIeee : Eui64) (sourceNwk : Nwk) (lqi : Nat → UInt8)
    (now : Nat → Instant) : Nat → List NwkLinkStatusCommand → Neighbors →
      List (Option Nwk) × Neighbors
  | _, [], neighbors => ([], neighbors)
  | k, command :: commands, neighbors =>
    let (lost, neighbors) :=
      neighbors.onLinkStatus ownAddress sourceIeee sourceNwk (lqi k) command (now k)
    let (losses, neighbors) :=
      onLinkStatuses ownAddress sourceIeee sourceNwk lqi now (k + 1) commands neighbors
    (lost :: losses, neighbors)

section

variable {ownAddress : Nwk} {sourceIeee : Eui64} {sourceNwk : Nwk} {lqi : Nat → UInt8}
  {now : Nat → Instant}

theorem onLinkStatuses_cons {k : Nat} {command : NwkLinkStatusCommand}
    {commands : List NwkLinkStatusCommand} {neighbors : Neighbors} :
    onLinkStatuses ownAddress sourceIeee sourceNwk lqi now k (command :: commands) neighbors =
      let one := neighbors.onLinkStatus ownAddress sourceIeee sourceNwk (lqi k) command (now k)
      let more := onLinkStatuses ownAddress sourceIeee sourceNwk lqi now (k + 1) commands one.2
      (one.1 :: more.1, more.2) := rfl

/-- A frame reports no lost link iff it does not take the cost from nonzero to zero. -/
theorem lost_eq_none_iff {before after : UInt8} {nwk : Nwk} {lost : Option Nwk}
    (hlost : lost = if 0 < before ∧ after = 0 then some nwk else none) :
    lost = none ↔ (0 < before → 0 < after) := by
  rw [hlost, ite_eq_right_iff]
  refine ⟨fun h hbefore => UInt8.pos_iff_ne_zero.mpr fun hafter => ?_, fun h hboth => ?_⟩
  · exact nomatch h ⟨hbefore, hafter⟩
  · exact absurd hboth.2 (UInt8.pos_iff_ne_zero.mp (h hboth.1))

/-- The frames after the first. -/
theorem onLinkStatuses_linkView (k : Nat) (commands : List NwkLinkStatusCommand)
    (hfirst : ∀ command ∈ commands, command.isFirstFrame = false) (neighbors : Neighbors)
    {entry : TableEntry} (hentry : neighbors.table.get sourceIeee = some entry)
    {others : List Nwk} (hothers : neighbors.connectedOthers sourceIeee = others) :
    let result := onLinkStatuses ownAddress sourceIeee sourceNwk lqi now k commands neighbors
    let fragments := commands.map (·.linkStatuses)
    (∃ entry', result.2.table.get sourceIeee = some entry' ∧
      entry'.outgoingCost = costAfter ownAddress fragments.flatten entry.outgoingCost ∧
      entry'.routerConnectivity =
        addUp entry.routerConnectivity (connectivityOf fragments.flatten) ∧
      entry'.routerNeighborSetDiversity =
        addUp entry.routerNeighborSetDiversity
          (arrivingDiversity others entry.networkAddress
            (arriving ownAddress entry.outgoingCost fragments))) ∧
      ((∀ lost ∈ result.1, lost = none) ↔
        ∀ arrival ∈ arriving ownAddress entry.outgoingCost fragments,
          0 < arrival.1 → 0 < costAfter ownAddress arrival.2 arrival.1) := by
  induction commands generalizing k neighbors entry with
  | nil =>
    refine ⟨⟨entry, hentry, rfl, ?_, ?_⟩, fun _ => nofun, fun _ => nofun⟩
    · exact (addUp_zero _).symm
    · exact (addUp_zero _).symm
  | cons command commands ih =>
    intro result
    have hview : neighbors.linkView sourceIeee sourceNwk = entry.linkView := by
      unfold linkView
      rw [hentry]
      rfl
    obtain ⟨⟨middle, hmiddle, hdigest⟩, hsame, hlost⟩ := @onLinkStatus_linkView neighbors ownAddress
      sourceIeee sourceNwk (lqi k) command (now k)
    rw [hview, hfirst command List.mem_cons_self, hothers] at hdigest
    rw [hview, hfirst command List.mem_cons_self, hothers] at hlost
    unfold LinkView.digest at hdigest
    injection hdigest with haddress hcost hconnectivity hdiversity
    obtain ⟨⟨entry', hentry', hcost', hconnectivity', hdiversity'⟩, hlosses⟩ := ih (k + 1)
      (fun other hother => hfirst other (List.mem_cons_of_mem _ hother)) _ hmiddle
      (hsame.trans hothers)
    have hcost₁ : middle.outgoingCost =
        costAfter ownAddress command.linkStatuses entry.outgoingCost := hcost
    have haddress₁ : middle.networkAddress = entry.networkAddress := haddress
    refine ⟨⟨entry', hentry', ?_, ?_, ?_⟩, ?_⟩
    · rw [hcost', hcost₁, ← costAfter_append]
      rfl
    · rw [hconnectivity', show middle.routerConnectivity = _ from hconnectivity]
      rw [addUp_addUp, ← connectivityOf_append]
      rfl
    · rw [hdiversity', show middle.routerNeighborSetDiversity = _ from hdiversity]
      rw [addUp_addUp, haddress₁, hcost₁]
      rfl
    · have hnone := lost_eq_none_iff hlost
      rw [show result = _ from onLinkStatuses_cons]
      refine List.forall_mem_cons.trans ?_
      rw [hnone, hlosses, hcost₁, List.map_cons, arriving, List.forall_mem_cons]
      rfl

end

/-- What the entry of a router says of its links. -/
def linkMeasures (neighbors : Neighbors) (eui64 : Eui64) : Option (UInt8 × UInt8 × UInt8) :=
  (neighbors.table.get eui64).map fun entry =>
    (entry.outgoingCost, entry.routerConnectivity, entry.routerNeighborSetDiversity)

/-- No six further entries take back the cost that those before them gave us. -/
def KeepsCost (ownAddress : Nwk) (linkStatuses : List NwkLinkStatus) : Prop :=
  ∀ k, 6 * k + 7 < linkStatuses.length →
    0 < costAfter ownAddress (linkStatuses.take (6 * k + 7)) 0 →
    0 < costAfter ownAddress (linkStatuses.take (6 * (k + 1) + 7)) 0

theorem keepsCost_iff {ownAddress : Nwk} {linkStatuses : List NwkLinkStatus} :
    KeepsCost ownAddress linkStatuses ↔ ∀ arrival ∈ behindFirst ownAddress 0 linkStatuses,
      0 < arrival.1 → 0 < costAfter ownAddress arrival.2 arrival.1 := by
  unfold KeepsCost behindFirst
  rw [List.forall_mem_map]
  refine forall_congr' fun k => ?_
  rw [List.mem_range, show k < (linkStatuses.length - 2) / 6 ↔ 6 * k + 7 < linkStatuses.length by
    omega]
  refine imp_congr_right fun hk => ?_
  rw [costAfter_overlap ownAddress (m := 6 * k + 6) (by omega) 6]
  rfl

section

variable {neighbors : Neighbors} {ownAddress : Nwk} {sourceIeee : Eui64} {sourceNwk : Nwk}
  {lqi : Nat → UInt8} {now : Nat → Instant}

/-- All frames of a list. -/
theorem onLinkStatuses_linkStatusFrames (linkStatuses : List NwkLinkStatus) :
    let view := neighbors.linkView sourceIeee sourceNwk
    let others := neighbors.connectedOthers sourceIeee
    let result := onLinkStatuses ownAddress sourceIeee sourceNwk lqi now 0
      (linkStatusFrames linkStatuses) neighbors
    result.2.linkMeasures sourceIeee =
        some (costAfter ownAddress linkStatuses 0,
          addUp 0 (connectivityOf linkStatuses + connectivityOf (repeated linkStatuses)),
          addUp 0 (arrivingDiversity others view.networkAddress
            ((view.outgoingCost, linkStatuses.take 7) :: behindFirst ownAddress 0 linkStatuses))) ∧
      ((∀ lost ∈ result.1, lost = none) ↔
        (0 < view.outgoingCost → 0 < costAfter ownAddress (linkStatuses.take 7) 0) ∧
          KeepsCost ownAddress linkStatuses) := by
  intro view others result
  obtain ⟨hstatuses, frame, frames, hframes, hfirst, hlater⟩ :=
    linkStatusFramesFrom_eq linkStatuses 0
  rw [List.drop_zero] at hstatuses
  have hfragments : fragments linkStatuses =
      frame.linkStatuses :: frames.map (·.linkStatuses) := by
    rw [← hstatuses, hframes, List.map_cons]
  have hhead : frame.linkStatuses = linkStatuses.take 7 := by
    obtain ⟨rest, hcons⟩ := fragments_eq_cons linkStatuses
    exact List.head_eq_of_cons_eq (hfragments.symm.trans hcons)
  have harriving : arriving ownAddress (costAfter ownAddress (linkStatuses.take 7) 0)
      (frames.map (·.linkStatuses)) = behindFirst ownAddress 0 linkStatuses := by
    have hall := arriving_fragments ownAddress linkStatuses 0
    rw [hfragments, hhead] at hall
    exact List.tail_eq_of_cons_eq hall
  obtain ⟨⟨middle, hmiddle, hdigest⟩, hsame, hlost⟩ := @onLinkStatus_linkView neighbors ownAddress
    sourceIeee sourceNwk (lqi 0) frame (now 0)
  rw [hfirst] at hdigest hlost
  unfold LinkView.digest at hdigest
  injection hdigest with haddress hcost hconnectivity hdiversity
  obtain ⟨⟨entry', hentry', hcost', hconnectivity', hdiversity'⟩, hlosses⟩ :=
    @onLinkStatuses_linkView ownAddress sourceIeee sourceNwk lqi now 1 frames hlater _ _ hmiddle
      _ hsame
  have hcost₁ : middle.outgoingCost = costAfter ownAddress frame.linkStatuses 0 := hcost
  have haddress₁ : middle.networkAddress = view.networkAddress := haddress
  have hresult : result = onLinkStatuses ownAddress sourceIeee sourceNwk lqi now 0
      (frame :: frames) neighbors := by
    rw [← hframes]
    rfl
  rw [hresult, onLinkStatuses_cons]
  refine ⟨?_, ?_⟩
  · have hflatten : frame.linkStatuses ++ (frames.map (·.linkStatuses)).flatten =
        (fragments linkStatuses).flatten := by
      rw [hfragments, List.flatten_cons]
    unfold linkMeasures
    dsimp only
    rw [hentry', Option.map_some, hcost', hconnectivity', hdiversity', hcost₁, haddress₁,
      show middle.routerConnectivity = _ from hconnectivity,
      show middle.routerNeighborSetDiversity = _ from hdiversity, addUp_addUp, addUp_addUp,
      ← costAfter_append, ← connectivityOf_append, hflatten, costAfter_flatten_fragments,
      connectivityOf_flatten_fragments, hhead, harriving]
    rfl
  · refine List.forall_mem_cons.trans (and_congr ?_ ?_)
    · rw [lost_eq_none_iff hlost, hhead]
      rfl
    · rw [hlosses, hcost₁, hhead, harriving, keepsCost_iff]

/-- The whole list in one command. -/
theorem linkMeasures_onLinkStatus_whole (linkStatuses : List NwkLinkStatus) (lqi : UInt8)
    (now : Instant) :
    let view := neighbors.linkView sourceIeee sourceNwk
    let others := neighbors.connectedOthers sourceIeee
    (neighbors.onLinkStatus ownAddress sourceIeee sourceNwk lqi ⟨true, true, linkStatuses⟩
      now).2.linkMeasures sourceIeee =
        some (costAfter ownAddress linkStatuses 0, addUp 0 (connectivityOf linkStatuses),
          addUp 0 (diversityOf (connectedWith others view.networkAddress view.outgoingCost)
            linkStatuses)) := by
  intro view others
  obtain ⟨⟨entry, hentry, hdigest⟩, -, -⟩ := @onLinkStatus_linkView neighbors ownAddress
    sourceIeee sourceNwk lqi ⟨true, true, linkStatuses⟩ now
  unfold LinkView.digest at hdigest
  injection hdigest with haddress hcost hconnectivity hdiversity
  unfold linkMeasures
  rw [hentry, Option.map_some, show entry.outgoingCost = _ from hcost,
    show entry.routerConnectivity = _ from hconnectivity,
    show entry.routerNeighborSetDiversity = _ from hdiversity]
  rfl

end

/-- The frames of a list leave what one command with the whole list leaves, and report no lost
link if the list gives us a cost. -/
structure Transparent (ownAddress : Nwk) (sourceIeee : Eui64) (sourceNwk : Nwk)
    (lqi : Nat → UInt8) (now : Nat → Instant) (linkStatuses : List NwkLinkStatus)
    (neighbors : Neighbors) : Prop where
  measures : ∀ wholeLqi wholeNow,
    (onLinkStatuses ownAddress sourceIeee sourceNwk lqi now 0 (linkStatusFrames linkStatuses)
      neighbors).2.linkMeasures sourceIeee =
    (neighbors.onLinkStatus ownAddress sourceIeee sourceNwk wholeLqi ⟨true, true, linkStatuses⟩
      wholeNow).2.linkMeasures sourceIeee
  kept : 0 < costAfter ownAddress linkStatuses 0 →
    ∀ lost ∈ (onLinkStatuses ownAddress sourceIeee sourceNwk lqi now 0
      (linkStatusFrames linkStatuses) neighbors).1, lost = none

/-- Totals that a saturating counter cannot tell apart. -/
def SameTotal (m n : Nat) : Prop :=
  m = n ∨ 255 ≤ m ∧ 255 ≤ n

/-- Fragmentation does not show iff the entries that stand in two frames add nothing to the
connectivity and to the diversity, or the totals saturate without them, and the list gives us no
cost, or we recorded none, or its first seven entries give us one that no later entries take back.

A sender that lists its own address is connected to us in some frames and not in others, so its
diversity is compared as it is. -/
theorem linkStatus_transparent_iff (ownAddress : Nwk) (sourceIeee : Eui64) (sourceNwk : Nwk)
    (lqi : Nat → UInt8) (now : Nat → Instant) (linkStatuses : List NwkLinkStatus)
    (neighbors : Neighbors) :
    let view := neighbors.linkView sourceIeee sourceNwk
    let others := neighbors.connectedOthers sourceIeee
    Transparent ownAddress sourceIeee sourceNwk lqi now linkStatuses neighbors ↔
      (connectivityOf (repeated linkStatuses) = 0 ∨ 255 ≤ connectivityOf linkStatuses) ∧
      (if view.networkAddress ∉ others ∧ ∃ status ∈ linkStatuses,
          status.address = view.networkAddress then
        SameTotal
          (arrivingDiversity others view.networkAddress
            ((view.outgoingCost, linkStatuses.take 7) :: behindFirst ownAddress 0 linkStatuses))
          (diversityOf (connectedWith others view.networkAddress view.outgoingCost) linkStatuses)
      else
        diversityOf others (repeated linkStatuses) = 0 ∨ 255 ≤ diversityOf others linkStatuses) ∧
      (0 < costAfter ownAddress linkStatuses 0 →
        (view.outgoingCost = 0 ∨ 0 < costAfter ownAddress (linkStatuses.take 7) 0) ∧
          KeepsCost ownAddress linkStatuses) := by
  intro view others
  obtain ⟨hframes, hlost⟩ := @onLinkStatuses_linkStatusFrames neighbors ownAddress sourceIeee
    sourceNwk lqi now linkStatuses
  have hwhole := @linkMeasures_onLinkStatus_whole neighbors ownAddress sourceIeee sourceNwk
    linkStatuses
  have htotals : Transparent ownAddress sourceIeee sourceNwk lqi now linkStatuses neighbors ↔
      addUp 0 (connectivityOf linkStatuses + connectivityOf (repeated linkStatuses)) =
          addUp 0 (connectivityOf linkStatuses) ∧
        addUp 0 (arrivingDiversity others view.networkAddress
            ((view.outgoingCost, linkStatuses.take 7) :: behindFirst ownAddress 0 linkStatuses)) =
          addUp 0 (diversityOf (connectedWith others view.networkAddress view.outgoingCost)
            linkStatuses) ∧
        (0 < costAfter ownAddress linkStatuses 0 →
          (0 < view.outgoingCost → 0 < costAfter ownAddress (linkStatuses.take 7) 0) ∧
            KeepsCost ownAddress linkStatuses) := by
    refine ⟨fun h => ?_, fun ⟨hconn, hdiv, hkept⟩ => ⟨fun wholeLqi wholeNow => ?_,
      fun hcost => hlost.mpr (hkept hcost)⟩⟩
    · have hmeasures := h.measures 0 0
      rw [hframes, hwhole 0 0] at hmeasures
      injection hmeasures with hmeasures
      injection hmeasures with _ hmeasures
      injection hmeasures with hconn hdiv
      exact ⟨hconn, hdiv, fun hcost => hlost.mp (h.kept hcost)⟩
    · rw [hframes, hwhole wholeLqi wholeNow, hconn, hdiv]
  rw [htotals, addUp_zero_inj, addUp_zero_inj]
  refine and_congr (by omega) (and_congr ?_ (imp_congr_right fun _ => and_congr_left' ?_))
  · split
    next => rfl
    next hlisted =>
      have hothers : ∀ status ∈ linkStatuses,
          status.address = view.networkAddress → view.networkAddress ∈ others := by
        intro status hstatus heq
        by_contra hnot
        exact hlisted ⟨hnot, status, hstatus, heq⟩
      rw [behindFirst_unlisted hothers, diversityOf_connectedWith hothers]
      omega
  · rw [UInt8.pos_iff_ne_zero, or_iff_not_imp_left]

/-- Eight routers with perfect links to the sender. -/
def Example.eightLinks : List NwkLinkStatus :=
  (List.range' 1 8).map fun nwk => ⟨Fin.ofNat _ nwk, 1, 1⟩

/-- A table with one router, `0x0100`, which reported the cost 3. -/
def Example.oneRouter : Neighbors :=
  { table := FlatMap.new.insert 0x99
      { extendedAddress := 0x99, networkAddress := 0x0100, deviceType := .router
        rxOnWhenIdle := true, timeoutAt := 0, deviceTimeout := 0, relationship := .sibling
        outgoingCost := 3, lastLinkStatusTimestamp := 0 } }

/-- The eighth router hears the first frame without its own entry, so that the link is lost, and
counts the seventh entry twice. -/
theorem linkStatus_fragments_show :
    let framed := onLinkStatuses 8 0x99 0x0100 (fun _ => 255) (fun _ => 1) 0
      (linkStatusFrames Example.eightLinks) Example.oneRouter
    let whole := Example.oneRouter.onLinkStatus 8 0x99 0x0100 255
      ⟨true, true, Example.eightLinks⟩ 1
    framed.1 = [some 0x0100, none] ∧ whole.1 = none ∧
      framed.2.linkMeasures 0x99 = some (1, 54, 54) ∧
      whole.2.linkMeasures 0x99 = some (1, 48, 48) := by
  decide +kernel

end Neighbors

end Ziggurat
