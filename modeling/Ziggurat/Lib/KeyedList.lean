import Mathlib.Order.Basic
import Mathlib.Data.List.Sort

/-!
# Lists of pairs in strictly increasing key order

A finite map over a linear order is a list of key/value pairs whose keys
strictly increase.  This module has the facts about such lists that do not
depend on how a program searches them: a list splits at every key, a key has
at most one value, and the members determine the list.

`KeySorted` is the invariant.  `exists_split` is the one case split that the
operations on such a list need: either the key is present and the list splits
around its entry, or it is absent and the list splits at the place where the
entry belongs.
-/

namespace Ziggurat.Lib.KeyedList

/-- Inserting at the boundary of two lists puts the element between them. -/
theorem insertIdx_length_append {α : Type} (lo hi : List α) (e : α) :
    (lo ++ hi).insertIdx lo.length e = lo ++ e :: hi := by
  induction lo with
  | nil => simp
  | cons x lo ih => simp [ih]

variable {K V : Type} [LinearOrder K]

/-- The keys strictly increase. -/
def KeySorted (l : List (K × V)) : Prop :=
  l.Pairwise (fun a b => a.1 < b.1)

theorem keySorted_nil : KeySorted ([] : List (K × V)) :=
  List.Pairwise.nil

theorem KeySorted.tail {e : K × V} {l : List (K × V)}
    (h : KeySorted (e :: l)) : KeySorted l :=
  (List.pairwise_cons.mp h).2

theorem KeySorted.head_lt {e : K × V} {l : List (K × V)}
    (h : KeySorted (e :: l)) : ∀ e' ∈ l, e.1 < e'.1 :=
  (List.pairwise_cons.mp h).1

/-- The values may change freely: the order only reads the keys. -/
theorem KeySorted.map {V' : Type} {l : List (K × V)} (h : KeySorted l)
    (f : K → V → V') : KeySorted (l.map (fun e => (e.1, f e.1 e.2))) := by
  unfold KeySorted at h ⊢
  rw [List.pairwise_map]
  exact h

theorem KeySorted.filter {l : List (K × V)} (h : KeySorted l) (p : K × V → Bool) :
    KeySorted (l.filter p) :=
  List.Pairwise.filter p h

theorem KeySorted.drop {l : List (K × V)} (h : KeySorted l) (n : Nat) : KeySorted (l.drop n) :=
  List.Pairwise.sublist (List.drop_sublist n l) h

/-- Two entries under one key are the same entry. -/
theorem KeySorted.value_unique {l : List (K × V)} (h : KeySorted l)
    {k : K} {v v' : V} (hv : (k, v) ∈ l) (hv' : (k, v') ∈ l) : v = v' := by
  induction l with
  | nil => simp at hv
  | cons e l ih =>
    rcases List.mem_cons.mp hv with he | hl
    · rcases List.mem_cons.mp hv' with he' | hl'
      · exact congrArg Prod.snd (he.trans he'.symm)
      · have hlt := h.head_lt _ hl'
        rw [← he] at hlt
        exact absurd hlt (lt_irrefl _)
    · rcases List.mem_cons.mp hv' with he' | hl'
      · have hlt := h.head_lt _ hl
        rw [← he'] at hlt
        exact absurd hlt (lt_irrefl _)
      · exact ih h.tail hl hl'

/-- The keys do not repeat. -/
theorem KeySorted.nodup_keys {l : List (K × V)} (h : KeySorted l) :
    (l.map Prod.fst).Nodup := by
  unfold List.Nodup
  rw [List.pairwise_map]
  exact h.imp ne_of_lt

/-- A sorted list splits at every key: around the key's entry, or at the
place where the entry belongs. -/
theorem exists_split {l : List (K × V)} (h : KeySorted l) (k : K) :
    (∃ lo v hi, l = lo ++ (k, v) :: hi ∧ (∀ e ∈ lo, e.1 < k) ∧ ∀ e ∈ hi, k < e.1) ∨
      ∃ lo hi, l = lo ++ hi ∧ (∀ e ∈ lo, e.1 < k) ∧ ∀ e ∈ hi, k < e.1 := by
  induction l with
  | nil => exact Or.inr ⟨[], [], rfl, by simp, by simp⟩
  | cons e l ih =>
    rcases lt_trichotomy e.1 k with hlt | heq | hgt
    · have hlo : ∀ lo : List (K × V), (∀ e' ∈ lo, e'.1 < k) →
          ∀ e' ∈ e :: lo, e'.1 < k := by
        intro lo hlo e' he'
        rcases List.mem_cons.mp he' with rfl | he'
        · exact hlt
        · exact hlo e' he'
      rcases ih h.tail with ⟨lo, v, hi, rfl, h1, h2⟩ | ⟨lo, hi, rfl, h1, h2⟩
      · exact Or.inl ⟨e :: lo, v, hi, rfl, hlo lo h1, h2⟩
      · exact Or.inr ⟨e :: lo, hi, rfl, hlo lo h1, h2⟩
    · refine Or.inl ⟨[], e.2, l, ?_, by simp, ?_⟩
      · rw [← heq]; rfl
      · intro e' he'
        rw [← heq]
        exact h.head_lt e' he'
    · refine Or.inr ⟨[], e :: l, rfl, by simp, ?_⟩
      intro e' he'
      rcases List.mem_cons.mp he' with rfl | he'
      · exact hgt
      · exact hgt.trans (h.head_lt e' he')

/-- A list cut at a key and filled there is sorted again. -/
theorem keySorted_insert {lo hi : List (K × V)} {k : K} {v : V}
    (h : KeySorted (lo ++ hi)) (hlo : ∀ e ∈ lo, e.1 < k)
    (hhi : ∀ e ∈ hi, k < e.1) : KeySorted (lo ++ (k, v) :: hi) := by
  unfold KeySorted at h ⊢
  rw [List.pairwise_append] at h ⊢
  refine ⟨h.1, List.pairwise_cons.mpr ⟨hhi, h.2.1⟩, ?_⟩
  intro a ha b hb
  rcases List.mem_cons.mp hb with rfl | hb
  · exact hlo a ha
  · exact h.2.2 a ha b hb

/-- Dropping an entry keeps the list sorted. -/
theorem keySorted_erase {lo hi : List (K × V)} {e : K × V}
    (h : KeySorted (lo ++ e :: hi)) : KeySorted (lo ++ hi) :=
  h.sublist (List.Sublist.append_left (List.sublist_cons_self e hi) lo)

/-- The members of a sorted list determine it. -/
theorem KeySorted.ext {l l' : List (K × V)} (h : KeySorted l) (h' : KeySorted l')
    (hmem : ∀ e, e ∈ l ↔ e ∈ l') : l = l' := by
  have hnodup : ∀ {m : List (K × V)}, KeySorted m → m.Nodup :=
    fun hm => List.Nodup.of_map _ hm.nodup_keys
  have hperm : l.Perm l' :=
    (List.perm_ext_iff_of_nodup (hnodup h) (hnodup h')).mpr hmem
  exact hperm.eq_of_pairwise
    (fun a b _ _ hab hba => absurd hab (lt_asymm hba)) h h'

/-- The first member that satisfies `p` has the lowest key among those that
do. -/
theorem KeySorted.find?_lowest {l : List (K × V)} (h : KeySorted l)
    {p : K × V → Bool} {e : K × V} (hfind : l.find? p = some e) :
    ∀ e' ∈ l, p e' = true → e.1 ≤ e'.1 := by
  induction l with
  | nil => simp at hfind
  | cons x l ih =>
    intro e' he' hp
    by_cases hx : p x = true
    · rw [List.find?_cons_of_pos hx] at hfind
      cases hfind
      rcases List.mem_cons.mp he' with rfl | he'
      · exact le_refl _
      · exact (h.head_lt e' he').le
    · rw [List.find?_cons_of_neg hx] at hfind
      rcases List.mem_cons.mp he' with rfl | he'
      · exact absurd hp hx
      · exact ih h.tail hfind e' he' hp

end Ziggurat.Lib.KeyedList
