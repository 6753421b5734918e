import Ziggurat.Lib.TagLog

/-!
# Draining a keyed table

A loop that removes listed keys from a table one by one and emits something for
each record it removes.  `foldlM_drain` says what the whole loop does, for any
table type with a lookup and any fallible removal that succeeds on the records in
question: the listed keys are gone, every other key is untouched, and each
record's entries are emitted once, tagged with its key.  `foldlM_drain_answers`
says the same key by key.
-/

namespace Ziggurat.Lib.Drain

open TagLog

variable {T K R A X ε : Type} [DecidableEq K]

/-- What a loop of successful removals over distinct keys does. -/
theorem foldlM_drain (get : T → K → Option R) (key : X → K)
    (remove : T → X → List A → Except ε (T × List A)) (emit : X → R → List A)
    (Holds : R → Prop)
    (hremove : ∀ t x acc r, get t (key x) = some r → Holds r →
      ∃ t', remove t x acc = .ok (t', acc ++ emit x r) ∧
        ∀ k, get t' k = if k = key x then none else get t k)
    (items : List X) (hnodup : (items.map key).Nodup) (t : T) (acc : List A)
    (hmem : ∀ x ∈ items, ∃ r, get t (key x) = some r ∧ Holds r) :
    ∃ (t' : T) (log : List (K × A)),
      items.foldlM (fun (s : T × List A) x => remove s.1 x s.2) (t, acc) =
        .ok (t', acc ++ log.map Prod.snd) ∧
      (∀ k, get t' k = if k ∈ items.map key then none else get t k) ∧
      (∀ k, k ∉ items.map key → project k log = []) ∧
      ∀ x ∈ items, ∀ r, get t (key x) = some r → project (key x) log = emit x r := by
  induction items generalizing t acc with
  | nil => exact ⟨t, [], by simp [pure, Except.pure], by simp, by simp, by simp⟩
  | cons x items ih =>
    simp only [List.map_cons, List.nodup_cons] at hnodup
    obtain ⟨r, hget, hholds⟩ := hmem x (by simp)
    obtain ⟨t₁, hstep, hget₁⟩ := hremove t x acc r hget hholds
    have hother : ∀ y ∈ items, key y ≠ key x := fun y hy heq =>
      hnodup.1 (heq ▸ List.mem_map_of_mem hy)
    have hmem₁ : ∀ y ∈ items, ∃ r, get t₁ (key y) = some r ∧ Holds r := by
      intro y hy
      rw [hget₁, if_neg (hother y hy)]
      exact hmem y (by simp [hy])
    obtain ⟨t', log, hfold, hget', hnone, hsome⟩ :=
      ih hnodup.2 t₁ (acc ++ emit x r) hmem₁
    refine ⟨t', tagAll (key x) (emit x r) ++ log, ?_, ?_, ?_, ?_⟩
    · rw [List.foldlM_cons, hstep]
      simpa [bind, Except.bind] using hfold
    · intro k
      rw [hget', hget₁]
      by_cases hk : k = key x
      · simp [hk]
      · simp [hk]
    · intro k hk
      simp only [List.map_cons, List.mem_cons, not_or] at hk
      rw [project_append, project_tagAll_ne (Ne.symm hk.1), hnone k hk.2]
      rfl
    · intro y hy r' hr'
      rcases List.mem_cons.mp hy with rfl | hy
      · have : r' = r := by simpa [hget] using hr'.symm
        subst this
        rw [project_append, project_tagAll_self, hnone _ hnodup.1, List.append_nil]
      · have hne := hother y hy
        rw [project_append, project_tagAll_ne (Ne.symm hne)]
        refine hsome y hy r' ?_
        rw [hget₁, if_neg hne]
        exact hr'

/-- The same loop when its items are the keys that a partial function answers:
what happens to each key of the table. -/
theorem foldlM_drain_answers (get : T → K → Option R)
    (remove : T → K × X → List A → Except ε (T × List A)) (emit : X → R → List A)
    (Holds : R → Prop)
    (hremove : ∀ t v acc r, get t v.1 = some r → Holds r →
      ∃ t', remove t v acc = .ok (t', acc ++ emit v.2 r) ∧
        ∀ k, get t' k = if k = v.1 then none else get t k)
    (items : List (K × X)) (hnodup : (items.map Prod.fst).Nodup) (answer : K → Option X)
    (hanswer : ∀ k x, (k, x) ∈ items ↔ answer k = some x) (t : T)
    (hholds : ∀ k x, answer k = some x → ∃ r, get t k = some r ∧ Holds r) :
    ∃ (t' : T) (log : List (K × A)),
      items.foldlM (fun (s : T × List A) v => remove s.1 v s.2) (t, []) =
        .ok (t', log.map Prod.snd) ∧
      ∀ k,
        (answer k = none → get t' k = get t k ∧ project k log = []) ∧
        ∀ x r, answer k = some x → get t k = some r →
          get t' k = none ∧ project k log = emit x r := by
  have hkeys : ∀ k, k ∈ items.map Prod.fst ↔ (answer k).isSome = true := by
    intro k
    simp [Option.isSome_iff_exists, hanswer]
  obtain ⟨t', log, hfold, hget, hnone, hsome⟩ :=
    foldlM_drain get Prod.fst remove (fun v r => emit v.2 r) Holds hremove items hnodup t []
      (fun v hv => hholds v.1 v.2 ((hanswer _ _).mp hv))
  refine ⟨t', log, by simpa using hfold, fun k => ⟨fun hk => ?_, fun x r hk hr => ?_⟩⟩
  · have hmem : k ∉ items.map Prod.fst := by simp [hkeys, hk]
    exact ⟨by rw [hget, if_neg hmem], hnone k hmem⟩
  · have hmem : k ∈ items.map Prod.fst := by simp [hkeys, hk]
    exact ⟨by rw [hget, if_pos hmem], hsome (k, x) ((hanswer k x).mpr hk) r hr⟩

end Ziggurat.Lib.Drain
