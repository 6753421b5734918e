import Mathlib.Data.List.Basic

/-!
# Replay filters

A receiver rejects replays with a counter for each source: it keeps a floor, takes a
message whose counter is at the floor or above, and raises the floor past it.

`Guarded floor log floor'` says what a stretch of such a receiver's life looks like from
outside: no floor falls, and the counters in the log were taken between the floor before
and the floor after, in strictly increasing order for each source.  Stretches compose, so
a receiver is verified one step at a time.
-/

namespace Ziggurat.Lib.ReplayFilter

variable {κ : Type} [DecidableEq κ]

/-- The counters that a log has of one source, in order. -/
def countersOf (source : κ) (log : List (κ × Nat)) : List Nat :=
  log.filterMap fun entry => if entry.1 = source then some entry.2 else none

theorem mem_countersOf {source : κ} {log : List (κ × Nat)} {counter : Nat} :
    counter ∈ countersOf source log ↔ (source, counter) ∈ log := by
  simp only [countersOf, List.mem_filterMap, Option.ite_none_right_eq_some, Option.some.injEq,
    Prod.exists]
  constructor
  · rintro ⟨_, _, hmem, rfl, rfl⟩
    exact hmem
  · intro hmem
    exact ⟨source, counter, hmem, rfl, rfl⟩

@[simp] theorem countersOf_append (source : κ) (log log' : List (κ × Nat)) :
    countersOf source (log ++ log') = countersOf source log ++ countersOf source log' :=
  List.filterMap_append

/-- The log of what was taken while the floors went from `floor` to `floor'`. -/
structure Guarded (floor : κ → Nat) (log : List (κ × Nat)) (floor' : κ → Nat) : Prop where
  mono : ∀ source, floor source ≤ floor' source
  above : ∀ {source counter}, (source, counter) ∈ log → floor source ≤ counter
  below : ∀ {source counter}, (source, counter) ∈ log → counter < floor' source
  increasing : ∀ source, (countersOf source log).Pairwise (· < ·)

namespace Guarded

variable {floor floor' floor'' : κ → Nat} {log log' : List (κ × Nat)}

/-- Nothing is taken, and no floor falls. -/
theorem idle (mono : ∀ source, floor source ≤ floor' source) : Guarded floor [] floor' where
  mono := mono
  above := nofun
  below := nofun
  increasing _ := .nil

/-- One message is taken. -/
theorem take {source : κ} {counter : Nat} (mono : ∀ source, floor source ≤ floor' source)
    (above : floor source ≤ counter) (below : counter < floor' source) :
    Guarded floor [(source, counter)] floor' where
  mono := mono
  above h := by
    cases List.mem_singleton.mp h
    exact above
  below h := by
    cases List.mem_singleton.mp h
    exact below
  increasing source' := by
    unfold countersOf
    by_cases hsource : source = source' <;> simp [hsource]

/-- One stretch after another. -/
theorem trans (h : Guarded floor log floor') (h' : Guarded floor' log' floor'') :
    Guarded floor (log ++ log') floor'' where
  mono source := Nat.le_trans (h.mono source) (h'.mono source)
  above {source _} hmem := by
    rcases List.mem_append.mp hmem with hmem | hmem
    · exact h.above hmem
    · exact Nat.le_trans (h.mono source) (h'.above hmem)
  below {source _} hmem := by
    rcases List.mem_append.mp hmem with hmem | hmem
    · exact Nat.lt_of_lt_of_le (h.below hmem) (h'.mono source)
    · exact h'.below hmem
  increasing source := by
    rw [countersOf_append, List.pairwise_append]
    refine ⟨h.increasing source, h'.increasing source, ?_⟩
    -- what the first stretch took is below the floor in between, the rest above it
    intro counter hcounter counter' hcounter'
    exact Nat.lt_of_lt_of_le (h.below (mem_countersOf.mp hcounter))
      (h'.above (mem_countersOf.mp hcounter'))

end Guarded

end Ziggurat.Lib.ReplayFilter
