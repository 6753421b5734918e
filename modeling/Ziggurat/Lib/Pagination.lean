import Mathlib.Data.List.Basic

/-!
# Reading a list in pages

A client asks for the entries of a list from an index on.  It gets a page of them, and the number
of entries that the list is announced to have.  It asks again, from as many entries on as it has,
until it has as many as were announced.

`collect` is that client.  If every page is not empty and the announced number is right, it gets
the list.  If the number is too low by more than a page, it does not.
-/

namespace Ziggurat.Lib.Pagination

variable {R : Type}

/-- Ask until there are as many entries as announced, `fuel` times at most. -/
def collect (ask : Nat → Nat × List R) : Nat → List R → Option (List R)
  | 0, _ => none
  | fuel + 1, got =>
    let (announced, page) := ask got.length
    if announced ≤ (got ++ page).length then some (got ++ page)
    else collect ask fuel (got ++ page)

/-- The answers are pages of a list, as far as the client asks for it. -/
structure Paged (ask : Nat → Nat × List R) (entries : List R) (announced size : Nat) : Prop where
  size_pos : 0 < size
  announced_le : announced ≤ entries.length
  page : ∀ start, start = 0 ∨ start < announced →
    ask start = (announced, (entries.drop start).take size)

variable {ask : Nat → Nat × List R} {entries : List R} {announced size : Nat}

/-- The client gets a front part of the list, which ends in the page that reaches the announced
number. -/
theorem collect_eq_take (h : Paged ask entries announced size) {start fuel : Nat}
    (hstart : start = 0 ∨ start < announced) (hfuel : announced < start + fuel) :
    ∃ stop, announced ≤ stop ∧ stop ≤ announced + size ∧
      collect ask fuel (entries.take start) = some (entries.take stop) := by
  induction fuel generalizing start with
  | zero => omega
  | succ fuel ih =>
    have hle := h.announced_le
    have hpos := h.size_pos
    have hlength : (entries.take start).length = start := by
      rw [List.length_take]
      omega
    have hpage : entries.take start ++ (entries.drop start).take size =
        entries.take (start + size) := List.take_add.symm
    rw [collect, hlength, h.page start hstart]
    dsimp only
    rw [hpage, List.length_take]
    by_cases hdone : announced ≤ min (start + size) entries.length
    · rw [if_pos hdone]
      exact ⟨start + size, by omega, by omega, rfl⟩
    · rw [if_neg hdone]
      exact ih (.inr (by omega)) (by omega)

theorem collect_all (h : Paged ask entries announced size) {fuel : Nat} (hfuel : announced < fuel)
    (hall : entries.length ≤ announced) : collect ask fuel [] = some entries := by
  have hfuel' : announced < 0 + fuel := by omega
  obtain ⟨stop, hstop, -, hcollect⟩ := collect_eq_take h (.inl rfl) hfuel'
  rw [List.take_of_length_le (Nat.le_trans hall hstop)] at hcollect
  exact hcollect

theorem collect_short (h : Paged ask entries announced size) {fuel : Nat} (hfuel : announced < fuel)
    (hshort : announced + size < entries.length) :
    ∃ got, collect ask fuel [] = some got ∧ got.length < entries.length := by
  have hfuel' : announced < 0 + fuel := by omega
  obtain ⟨stop, -, hstop, hcollect⟩ := collect_eq_take h (.inl rfl) hfuel'
  refine ⟨entries.take stop, hcollect, ?_⟩
  rw [List.length_take]
  omega

end Ziggurat.Lib.Pagination
