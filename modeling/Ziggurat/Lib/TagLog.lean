import Mathlib.Algebra.BigOperators.Group.Finset.Piecewise
import Mathlib.Algebra.Order.BigOperators.Group.Finset
import Mathlib.Data.List.Basic

/-!
# Logs whose entries carry a key

A component that serves many clients at once emits one log.  Tagging every entry
with the client it is about turns a statement about the log into one statement
for each client: `project k log` is what client `k` sees of it, in order.

`project_flatMap` is the rule for a log that a loop over distinct keys writes.
`countP_map_snd` goes the other way: a count over the whole log is the sum of the
counts that the clients see.  `countP_isSome_le` compares two counts key by key.
-/

namespace Ziggurat.Lib.TagLog

variable {K A V : Type} [DecidableEq K]

/-- The entries for `k`, in order. -/
def project (k : K) (log : List (K × A)) : List A :=
  (log.filter (fun e => e.1 = k)).map Prod.snd

/-- A list of entries, all for `k`. -/
def tagAll (k : K) (entries : List A) : List (K × A) :=
  entries.map (fun a => (k, a))

@[simp] theorem project_nil (k : K) : project k ([] : List (K × A)) = [] := rfl

@[simp] theorem project_append (k : K) (log log' : List (K × A)) :
    project k (log ++ log') = project k log ++ project k log' := by
  simp [project]

@[simp] theorem project_tagAll_self (k : K) (entries : List A) :
    project k (tagAll k entries) = entries := by
  induction entries with
  | nil => rfl
  | cons a entries ih => simpa [project, tagAll] using ih

theorem project_tagAll_ne {k k' : K} (h : k' ≠ k) (entries : List A) :
    project k (tagAll k' entries) = [] := by
  simp [project, tagAll, h]

omit [DecidableEq K] in
@[simp] theorem map_snd_tagAll (k : K) (entries : List A) :
    (tagAll k entries).map Prod.snd = entries := by
  simp [tagAll, Function.comp_def]

theorem mem_project {k : K} {a : A} {log : List (K × A)} :
    a ∈ project k log ↔ (k, a) ∈ log := by
  simp [project]

/-- A loop over other keys writes nothing for `k`. -/
theorem project_flatMap_ne {k : K} {l : List V} (key : V → K) (emit : V → List A)
    (h : ∀ v ∈ l, key v ≠ k) :
    project k (l.flatMap (fun v => tagAll (key v) (emit v))) = [] := by
  induction l with
  | nil => rfl
  | cons v l ih =>
    rw [List.flatMap_cons, project_append, project_tagAll_ne (h v (by simp)),
      ih (fun v' hv' => h v' (by simp [hv']))]
    rfl

/-- A loop over distinct keys writes for each key what its own pass emits. -/
theorem project_flatMap {l : List V} (key : V → K) (emit : V → List A)
    (hnodup : (l.map key).Nodup) {v : V} (hv : v ∈ l) :
    project (key v) (l.flatMap (fun v => tagAll (key v) (emit v))) = emit v := by
  induction l with
  | nil => simp at hv
  | cons x l ih =>
    simp only [List.map_cons, List.nodup_cons] at hnodup
    rw [List.flatMap_cons, project_append]
    rcases List.mem_cons.mp hv with rfl | hv
    · have hrest : ∀ v' ∈ l, key v' ≠ key v := fun v' hv' heq =>
        hnodup.1 (heq ▸ List.mem_map_of_mem hv')
      rw [project_tagAll_self, project_flatMap_ne key emit hrest, List.append_nil]
    · have hne : key x ≠ key v := fun heq => hnodup.1 (heq ▸ List.mem_map_of_mem hv)
      rw [project_tagAll_ne hne, ih hnodup.2 hv, List.nil_append]

theorem project_flatten (k : K) (logs : List (List (K × A))) :
    project k logs.flatten = (logs.map (project k)).flatten := by
  induction logs with
  | nil => rfl
  | cons log logs ih => simp [ih]

theorem project_eq_nil {k : K} {log : List (K × A)} (h : ∀ e ∈ log, e.1 ≠ k) :
    project k log = [] := by
  simp only [project, List.map_eq_nil_iff, List.filter_eq_nil_iff, decide_eq_true_eq]
  exact h

/-- A count over a log with keys below `n` is the sum of the counts for each key. -/
theorem countP_map_snd (p : A → Bool) {log : List (Nat × A)} {n : Nat}
    (h : ∀ e ∈ log, e.1 < n) :
    (log.map Prod.snd).countP p = ∑ i ∈ Finset.range n, (project i log).countP p := by
  induction log with
  | nil => simp
  | cons e log ih =>
    have hcons : ∀ i, (project i (e :: log)).countP p =
        (project i log).countP p + if e.1 = i then (if p e.2 then 1 else 0) else 0 := by
      intro i
      by_cases hi : e.1 = i
      · simp [project, hi, List.countP_cons]
      · simp [project, hi]
    have hlt : e.1 < n := h e (by simp)
    rw [List.map_cons, List.countP_cons, ih (fun e' he' => h e' (by simp [he'])),
      Finset.sum_congr rfl (fun i _ => hcons i), Finset.sum_add_distrib, Finset.sum_ite_eq]
    simp [hlt]

/-- The elements with a key in `s`, counted key by key. -/
theorem sum_countP (f : V → Option K) (s : Finset K) (l : List V) :
    ∑ k ∈ s, l.countP (fun a => f a = some k) =
      l.countP (fun a => (f a).any (fun k => k ∈ s)) := by
  induction l with
  | nil => simp
  | cons a l ih =>
    simp only [List.countP_cons, decide_eq_true_eq]
    rw [Finset.sum_add_distrib, ih]
    cases ha : f a with
    | none => simp
    | some k => simp [Finset.sum_ite_eq]

/-- A count by keys is bounded by another one that bounds it for each key. -/
theorem countP_isSome_le (f g : V → Option K) (l : List V)
    (h : ∀ k, l.countP (fun a => f a = some k) ≤ l.countP (fun a => g a = some k)) :
    l.countP (fun a => (f a).isSome) ≤ l.countP (fun a => (g a).isSome) := by
  let s := (l.filterMap f).toFinset
  calc l.countP (fun a => (f a).isSome)
      ≤ l.countP (fun a => (f a).any (fun k => k ∈ s)) := by
        refine List.countP_mono_left (fun a ha hsome => ?_)
        obtain ⟨k, hk⟩ := Option.isSome_iff_exists.mp hsome
        have hmem : k ∈ s := List.mem_toFinset.mpr (List.mem_filterMap.mpr ⟨a, ha, hk⟩)
        simp [hk, hmem]
    _ = ∑ k ∈ s, l.countP (fun a => f a = some k) := (sum_countP f s l).symm
    _ ≤ ∑ k ∈ s, l.countP (fun a => g a = some k) := Finset.sum_le_sum (fun k _ => h k)
    _ = l.countP (fun a => (g a).any (fun k => k ∈ s)) := sum_countP g s l
    _ ≤ l.countP (fun a => (g a).isSome) := by
        refine List.countP_mono_left (fun a _ hany => ?_)
        cases hg : g a <;> simp_all

end Ziggurat.Lib.TagLog
