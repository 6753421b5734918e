import Ziggurat.Nwk.LinkStatus

/-!
# The frames of a link status

The loop of `send_link_status_broadcast` cuts the sorted list of link statuses into frames of seven
entries.  It steps back by one entry each time, so that a frame begins with the entry on which the
one before ended.

`linkStatusLoop` is the loop with a bound on its rounds, and `linkStatusLoop_eq` says that it ends
within as many rounds as there are entries.  What the frames hold is said of the fragments, by the
recursion that takes seven entries and drops six; `stitch` is how a receiver puts them together.
-/

namespace Ziggurat

variable {linkStatuses : List NwkLinkStatus}

/-! ## The loop -/

/-- The loop, which must come to its last frame in the given number of rounds. -/
def linkStatusLoop (linkStatuses : List NwkLinkStatus) :
    Nat → Nat → Option (List NwkLinkStatusCommand)
  | 0, _ => none
  | fuel + 1, start =>
    let stop := min (start + maxLinkStatuses) linkStatuses.length
    let frame := linkStatusFrame linkStatuses start stop
    if stop = linkStatuses.length then some [frame]
    else (linkStatusLoop linkStatuses fuel (stop - 1)).map (frame :: ·)

theorem linkStatusLoop_eq (start : Nat) {fuel : Nat} (hfuel : linkStatuses.length - start < fuel) :
    linkStatusLoop linkStatuses fuel start = some (linkStatusFramesFrom linkStatuses start) := by
  induction fuel generalizing start with
  | zero => exact absurd hfuel (Nat.not_lt_zero _)
  | succ fuel ih =>
    have hmax : maxLinkStatuses = 7 := rfl
    rw [linkStatusLoop, linkStatusFramesFrom]
    split
    next => rfl
    next hmore =>
      rw [ih _ (by omega)]
      rfl

/-- Only the last frame is marked as the last. -/
theorem isLastFrame_linkStatusFramesFrom (start : Nat) :
    (linkStatusFramesFrom linkStatuses start).map (·.isLastFrame) =
      .replicate ((linkStatusFramesFrom linkStatuses start).length - 1) false ++ [true] := by
  induction start using linkStatusFramesFrom.induct linkStatuses with
  | case1 start stop hlast =>
    rw [linkStatusFramesFrom, if_pos hlast, List.map_singleton, linkStatusFrame]
    exact congrArg (fun last => [last]) (decide_eq_true hlast)
  | case2 start stop hmore ih =>
    obtain ⟨-, frame, frames, hframes, -⟩ := linkStatusFramesFrom_eq linkStatuses (stop - 1)
    rw [linkStatusFramesFrom, if_neg hmore, List.map_cons, List.length_cons, Nat.add_sub_cancel, ih]
    rw [hframes, List.length_cons, Nat.add_sub_cancel, List.replicate_succ, List.cons_append]
    exact congrArg (fun last => last :: _) (decide_eq_false hmore)

/-! ## The fragments -/

/-- The entries of consecutive frames, without the one that a frame repeats. -/
def stitch : List (List NwkLinkStatus) → List NwkLinkStatus
  | [] => []
  | fragment :: rest => fragment ++ (rest.map List.tail).flatten

theorem length_fragments (linkStatuses : List NwkLinkStatus) :
    (fragments linkStatuses).length = max 1 ((linkStatuses.length + 4) / 6) := by
  have hmax : maxLinkStatuses = 7 := rfl
  induction linkStatuses using fragments.induct with
  | case1 linkStatuses h =>
    rw [fragments_of_le h, List.length_singleton]
    omega
  | case2 linkStatuses h ih =>
    rw [fragments_of_lt (Nat.not_le.mp h), List.length_cons, ih, List.length_drop]
    omega

theorem length_le_of_mem_fragments {fragment : List NwkLinkStatus}
    (hmem : fragment ∈ fragments linkStatuses) : fragment.length ≤ maxLinkStatuses := by
  induction linkStatuses using fragments.induct with
  | case1 linkStatuses h =>
    rw [fragments_of_le h, List.mem_singleton] at hmem
    exact hmem ▸ h
  | case2 linkStatuses h ih =>
    rw [fragments_of_lt (Nat.not_le.mp h), List.mem_cons] at hmem
    obtain rfl | hmem := hmem
    · exact List.length_take_le ..
    · exact ih hmem

/-- A frame that is not the last one is full. -/
theorem length_of_mem_dropLast_fragments {fragment : List NwkLinkStatus}
    (hmem : fragment ∈ (fragments linkStatuses).dropLast) :
    fragment.length = maxLinkStatuses := by
  induction linkStatuses using fragments.induct with
  | case1 linkStatuses h =>
    rw [fragments_of_le h] at hmem
    cases hmem
  | case2 linkStatuses h ih =>
    obtain ⟨rest, hnext⟩ := fragments_eq_cons (linkStatuses.drop (maxLinkStatuses - 1))
    rw [fragments_of_lt (Nat.not_le.mp h), hnext, List.dropLast_cons_cons, ← hnext,
      List.mem_cons] at hmem
    obtain rfl | hmem := hmem
    · exact List.length_take_of_le (by omega)
    · exact ih hmem

/-- The second begins with the entry on which the first ends. -/
def Overlap (before after : List NwkLinkStatus) : Prop :=
  ∃ entry, before.getLast? = some entry ∧ after.head? = some entry

theorem isChain_fragments (linkStatuses : List NwkLinkStatus) :
    (fragments linkStatuses).IsChain Overlap := by
  induction linkStatuses using fragments.induct with
  | case1 linkStatuses h =>
    rw [fragments_of_le h]
    exact .singleton _
  | case2 linkStatuses h ih =>
    obtain ⟨rest, hnext⟩ := fragments_eq_cons (linkStatuses.drop (maxLinkStatuses - 1))
    obtain ⟨entry, htake, hdrop⟩ := exists_boundary (Nat.not_le.mp h)
    rw [fragments_of_lt (Nat.not_le.mp h), hnext]
    rw [hnext] at ih
    refine .cons_cons ⟨entry, ?_, ?_⟩ ih
    · rw [htake, List.getLast?_concat]
    · rw [hdrop]
      rfl

/-- Put together, the fragments are the list. -/
theorem stitch_fragments (linkStatuses : List NwkLinkStatus) :
    stitch (fragments linkStatuses) = linkStatuses := by
  induction linkStatuses using fragments.induct with
  | case1 linkStatuses h =>
    rw [fragments_of_le h, stitch]
    exact List.append_nil _
  | case2 linkStatuses h ih =>
    obtain ⟨rest, hnext⟩ := fragments_eq_cons (linkStatuses.drop (maxLinkStatuses - 1))
    obtain ⟨entry, htake, hdrop⟩ := exists_boundary (Nat.not_le.mp h)
    have hhead : (linkStatuses.drop (maxLinkStatuses - 1)).take maxLinkStatuses =
        entry :: (linkStatuses.drop maxLinkStatuses).take (maxLinkStatuses - 1) := by
      rw [hdrop]
      rfl
    rw [hhead] at hnext
    rw [hnext, stitch, hdrop, List.cons_append, List.cons.injEq] at ih
    rw [fragments_of_lt (Nat.not_le.mp h), hnext, stitch, List.map_cons, List.flatten_cons,
      List.tail_cons, ih.2]
    exact List.take_append_drop ..

theorem length_stitch_append (before : List (List NwkLinkStatus))
    (fragment : List NwkLinkStatus) (hfragment : 2 ≤ fragment.length) :
    (stitch before).length < (stitch (before ++ [fragment])).length := by
  cases before with
  | nil =>
    show 0 < (fragment ++ []).length
    rw [List.append_nil]
    omega
  | cons first rest =>
    rw [List.cons_append, stitch, stitch, List.map_append, List.flatten_append,
      List.length_append, List.length_append, List.length_append]
    have hnew : ([fragment].map List.tail).flatten.length = fragment.length - 1 := by simp
    omega

/-! ## The frames -/

theorem pairwise_sortedLinkStatuses (neighbors : Neighbors) :
    neighbors.sortedLinkStatuses.Pairwise (·.address ≤ ·.address) := by
  have hsorted (statuses : List NwkLinkStatus) := List.pairwise_mergeSort
    (fun (a b c : NwkLinkStatus) (hab : decide (a.address ≤ b.address) = true)
      (hbc : decide (b.address ≤ c.address) = true) =>
        decide_eq_true ((of_decide_eq_true hab).trans (of_decide_eq_true hbc)))
    (fun a b => by
      rw [Bool.or_eq_true, decide_eq_true_eq, decide_eq_true_eq]
      exact le_total ..)
    statuses
  exact (hsorted _).imp of_decide_eq_true

theorem isFirstFrame_linkStatusFrames (linkStatuses : List NwkLinkStatus) :
    (linkStatusFrames linkStatuses).map (·.isFirstFrame) =
      true :: .replicate ((linkStatusFrames linkStatuses).length - 1) false := by
  obtain ⟨-, frame, frames, hframes, hfirst, hothers⟩ := linkStatusFramesFrom_eq linkStatuses 0
  rw [linkStatusFrames, hframes, List.map_cons, hfirst, List.length_cons, Nat.add_sub_cancel]
  refine congrArg (true :: ·) (List.eq_replicate_iff.mpr ⟨List.length_map .., ?_⟩)
  intro first hmem
  obtain ⟨other, hother, rfl⟩ := List.mem_map.mp hmem
  exact hothers other hother

/-- The loop ends.  Its frames hold at most seven entries; exactly the first and the last are
marked; each begins with the last entry of the one before, and without these entries they are the
list, of which each frame but the last covers more than the ones before.  The list is sorted. -/
theorem link_status_frames (linkStatuses : List NwkLinkStatus) :
    ∃ frames, linkStatusLoop linkStatuses (linkStatuses.length + 1) 0 = some frames ∧
    frames = linkStatusFrames linkStatuses ∧
    frames.length = max 1 ((linkStatuses.length + 4) / 6) ∧
    (∀ frame ∈ frames, frame.linkStatuses.length ≤ 7) ∧
    frames.map (·.isFirstFrame) = true :: .replicate (frames.length - 1) false ∧
    frames.map (·.isLastFrame) = .replicate (frames.length - 1) false ++ [true] ∧
    (frames.map (·.linkStatuses)).IsChain Overlap ∧
    stitch (frames.map (·.linkStatuses)) = linkStatuses ∧
    (∀ before frame after, frames = before ++ frame :: after → after ≠ [] →
      (stitch (before.map (·.linkStatuses))).length <
        (stitch ((before ++ [frame]).map (·.linkStatuses))).length) ∧
    ∀ neighbors : Neighbors, linkStatuses = neighbors.sortedLinkStatuses →
      linkStatuses.Pairwise (·.address ≤ ·.address) := by
  have hfragments : (linkStatusFrames linkStatuses).map (·.linkStatuses) =
      fragments linkStatuses := (linkStatusFramesFrom_eq linkStatuses 0).1
  refine ⟨linkStatusFrames linkStatuses, linkStatusLoop_eq 0 (Nat.lt_succ_self _), rfl, ?_, ?_,
    isFirstFrame_linkStatusFrames linkStatuses, isLastFrame_linkStatusFramesFrom 0, ?_, ?_, ?_,
    fun neighbors heq => heq ▸ pairwise_sortedLinkStatuses neighbors⟩
  · rw [← length_fragments, ← hfragments, List.length_map]
  · intro frame hframe
    exact length_le_of_mem_fragments (hfragments ▸ List.mem_map_of_mem hframe)
  · exact hfragments ▸ isChain_fragments linkStatuses
  · rw [hfragments, stitch_fragments]
  · intro before frame after hframes hafter
    have hmem : frame.linkStatuses ∈ (fragments linkStatuses).dropLast := by
      rw [← hfragments, hframes, List.map_append, List.map_cons,
        List.dropLast_append_of_ne_nil (List.cons_ne_nil _ _),
        List.dropLast_cons_of_ne_nil (by simpa using hafter)]
      exact List.mem_append_right _ List.mem_cons_self
    have hlength := length_of_mem_dropLast_fragments hmem
    rw [List.map_append]
    refine length_stitch_append _ _ ?_
    rw [hlength]
    decide

/-- Eight entries make two frames, and nine and thirteen as well. -/
example : ((List.range 15).map fun n =>
    (linkStatusLoop (.replicate n ⟨5, 1, 1⟩) (n + 1) 0).map List.length) =
      [1, 1, 1, 1, 1, 1, 1, 1, 2, 2, 2, 2, 2, 2, 3].map some := by
  decide

end Ziggurat
