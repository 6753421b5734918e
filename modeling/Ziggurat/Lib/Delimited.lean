import Mathlib.Data.List.Basic

/-!
# Streams that a delimiter cuts into segments

A reader that gets a stream in pieces keeps what follows the last delimiter and works on the
segments that are complete.  `cut` is what such a reader makes of one buffer: the complete
segments, and the rest.  `cut_append` says that the pieces do not matter: a piece that arrives
later is cut together with the rest.

`splitOn_eq` is the connection with `List.splitOn`, which does not tell the rest apart.
-/

namespace Ziggurat.Lib.Delimited

variable {α : Type} [DecidableEq α] (d : α)

/-- The segments that a delimiter ends, and what follows the last one. -/
def cut : List α → List (List α) × List α
  | [] => ([], [])
  | x :: xs =>
    if x = d then ([] :: (cut xs).1, (cut xs).2)
    else match cut xs with
      | ([], rest) => ([], x :: rest)
      | (segment :: segments, rest) => ((x :: segment) :: segments, rest)

variable {d}

theorem cut_of_notMem {xs : List α} (h : d ∉ xs) : cut d xs = ([], xs) := by
  induction xs with
  | nil => rfl
  | cons x xs ih =>
    rw [List.mem_cons, not_or] at h
    rw [cut, if_neg (Ne.symm h.1), ih h.2]

/-- The first delimiter ends the first segment. -/
theorem cut_append_cons {xs : List α} (h : d ∉ xs) (ys : List α) :
    cut d (xs ++ d :: ys) = (xs :: (cut d ys).1, (cut d ys).2) := by
  induction xs with
  | nil => rw [List.nil_append, cut, if_pos rfl]
  | cons x xs ih =>
    rw [List.mem_cons, not_or] at h
    rw [List.cons_append, cut, if_neg (Ne.symm h.1), ih h.2]

/-- A list without a delimiter, or its first segment and what follows. -/
theorem notMem_or_eq_append (d : α) (xs : List α) :
    d ∉ xs ∨ ∃ segment ys, d ∉ segment ∧ xs = segment ++ d :: ys := by
  by_cases h : d ∈ xs
  · obtain ⟨segment, ys, hxs, hsegment⟩ := List.eq_append_cons_of_mem h
    exact .inr ⟨segment, ys, hsegment, hxs⟩
  · exact .inl h

theorem notMem_rest (d : α) (xs : List α) : d ∉ (cut d xs).2 := by
  induction h : xs.length using Nat.strongRecOn generalizing xs with
  | _ n ih =>
    obtain hnone | ⟨segment, ys, hsegment, rfl⟩ := notMem_or_eq_append d xs
    · rw [cut_of_notMem hnone]
      exact hnone
    · rw [cut_append_cons hsegment]
      refine ih ys.length ?_ ys rfl
      rw [← h, List.length_append, List.length_cons]
      omega

/-- A piece that arrives later is cut together with the rest. -/
theorem cut_append (xs ys : List α) :
    cut d (xs ++ ys) =
      ((cut d xs).1 ++ (cut d ((cut d xs).2 ++ ys)).1, (cut d ((cut d xs).2 ++ ys)).2) := by
  induction h : xs.length using Nat.strongRecOn generalizing xs with
  | _ n ih =>
    obtain hnone | ⟨segment, tail, hsegment, rfl⟩ := notMem_or_eq_append d xs
    · rw [cut_of_notMem hnone]
      rfl
    · have hlt : tail.length < n := by
        rw [← h, List.length_append, List.length_cons]
        omega
      rw [List.append_assoc, List.cons_append, cut_append_cons hsegment, cut_append_cons hsegment,
        ih tail.length hlt tail rfl]
      rfl

theorem rest_eq_of_segments_eq_nil {xs : List α} (h : (cut d xs).1 = []) : (cut d xs).2 = xs := by
  obtain hnone | ⟨segment, tail, hsegment, rfl⟩ := notMem_or_eq_append d xs
  · rw [cut_of_notMem hnone]
  · rw [cut_append_cons hsegment] at h
    cases h

/-! ## All the runs of a stream -/

theorem splitOn_eq (d : α) (xs : List α) : xs.splitOn d = (cut d xs).1 ++ [(cut d xs).2] := by
  induction xs with
  | nil => rfl
  | cons x xs ih =>
    rw [List.splitOn, List.splitOnP_cons_eq_if_modifyHead, ← List.splitOn, ih, cut]
    by_cases hx : x = d
    · rw [if_pos hx, if_pos (beq_iff_eq.mpr hx)]
      rfl
    · rw [if_neg hx, if_neg (fun h => hx (beq_iff_eq.mp h))]
      generalize cut d xs = r
      obtain ⟨_ | ⟨segment, segments⟩, rest⟩ := r
      · rfl
      · rfl

theorem splitOn_append (xs ys : List α) :
    (xs ++ ys).splitOn d = (cut d xs).1 ++ ((cut d xs).2 ++ ys).splitOn d := by
  rw [splitOn_eq, splitOn_eq, cut_append, List.append_assoc]

/-- What stands before the first delimiter is in the first run only. -/
theorem exists_splitOn_append {xs : List α} (h : d ∉ xs) (ys : List α) :
    ∃ run runs, ys.splitOn d = run :: runs ∧ (xs ++ ys).splitOn d = (xs ++ run) :: runs := by
  obtain hnone | ⟨segment, tail, hsegment, rfl⟩ := notMem_or_eq_append d ys
  · have hboth : d ∉ xs ++ ys := by
      rw [List.mem_append]
      exact not_or.mpr ⟨h, hnone⟩
    rw [splitOn_eq, splitOn_eq, cut_of_notMem hnone, cut_of_notMem hboth]
    exact ⟨_, _, rfl, rfl⟩
  · have hboth : d ∉ xs ++ segment := by
      rw [List.mem_append]
      exact not_or.mpr ⟨h, hsegment⟩
    rw [splitOn_eq, splitOn_eq, cut_append_cons hsegment, ← List.append_assoc,
      cut_append_cons hboth]
    exact ⟨_, _, rfl, rfl⟩

end Ziggurat.Lib.Delimited
