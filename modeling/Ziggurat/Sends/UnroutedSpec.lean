import Ziggurat.Lib.TagLog
import Ziggurat.Sends.Life

/-!
# What each operation of the unrouted unicasts table does

The counterpart of `Sends.UnicastsSpec` for `Sends.Unrouted`.  The operations all
take out the records that pass a test, so they share `removeAll_filter`.
-/

namespace Ziggurat.UnroutedUnicasts

open Lib.TagLog

variable {F W E : Type}

private theorem removeAll_aux (taken acc : List (SendId × Record F W))
    (records : FlatMap SendId (Record F W)) (hnodup : (taken.map Prod.fst).Nodup)
    (hmem : ∀ e ∈ taken, records.get e.1 = some e.2) :
    ∃ records', (taken.map Prod.fst).foldlM (fun s id => do
          let send ← Checked.unwrap (s.1.get id)
          return (s.1.remove id, s.2 ++ [(id, send)])) (records, acc) =
        (.ok (records', acc ++ taken) :
          Checked (FlatMap SendId (Record F W) × List (SendId × Record F W))) ∧
      ∀ id, records'.get id = if id ∈ taken.map Prod.fst then none else records.get id := by
  induction taken generalizing records acc with
  | nil => exact ⟨records, by simp [pure, Except.pure], by simp⟩
  | cons e taken ih =>
    obtain ⟨id, r⟩ := e
    simp only [List.map_cons, List.nodup_cons] at hnodup
    have hother : ∀ e ∈ taken, e.1 ≠ id := fun e he heq =>
      hnodup.1 (heq ▸ List.mem_map_of_mem he)
    obtain ⟨records', hfold, hget⟩ := ih (acc ++ [(id, r)]) (records.remove id) hnodup.2
      (fun e he => by simpa [hother e he] using hmem e (by simp [he]))
    refine ⟨records', ?_, ?_⟩
    · simp only [List.map_cons, List.foldlM_cons, hmem (id, r) (by simp), Checked.unwrap_some,
        Checked.ok_bind, Checked.pure_eq_ok]
      simpa using hfold
    · intro k
      rw [hget, FlatMap.get_remove, List.map_cons]
      by_cases hk : k = id
      · simp [hk]
      · simp only [List.mem_cons, hk, false_or, if_false]

/-- Removing the records that pass a test returns exactly those, in id order. -/
theorem removeAll_filter (records : FlatMap SendId (Record F W)) (p : Record F W → Bool) :
    ∃ records', removeAll records ((records.entries.filter (fun e => p e.2)).map Prod.fst) =
        .ok (records', records.entries.filter (fun e => p e.2)) ∧
      ∀ id, records'.get id = (records.get id).filter (fun r => !p r) := by
  obtain ⟨records', hfold, hget⟩ := removeAll_aux (records.entries.filter fun e => p e.2) []
    records ((List.filter_sublist.map Prod.fst).nodup records.nodup_keys)
    (fun e he => FlatMap.mem_entries.mp (List.mem_of_mem_filter he))
  refine ⟨records', by simpa [removeAll] using hfold, fun id => ?_⟩
  rw [hget]
  have hmem : id ∈ (records.entries.filter fun e => p e.2).map Prod.fst ↔
      ∃ r, records.get id = some r ∧ p r = true := by
    simp [FlatMap.mem_entries]
  cases hr : records.get id with
  | none => simp [hmem, hr]
  | some r => by_cases hp : p r = true <;> simp [hmem, hr, hp, Option.filter]

/-- What a loop over the taken records writes, one action each. -/
theorem project_taken (records : FlatMap SendId (Record F W)) (p : Record F W → Bool)
    (act : Record F W → Action F W E) (id : SendId) :
    project id ((records.entries.filter fun e => p e.2).map fun e => (e.1, act e.2)) =
      (((records.get id).filter p).map act).toList := by
  have hflat : ((records.entries.filter fun e => p e.2).map fun e => (e.1, act e.2)) =
      (records.entries.filter fun e => p e.2).flatMap fun e => tagAll e.1 [act e.2] := by
    simp [tagAll, List.map_eq_flatMap]
  rw [hflat]
  cases hr : (records.get id).filter p with
  | none =>
    refine project_flatMap_ne Prod.fst (fun e => [act e.2]) (fun e he heq => ?_)
    obtain ⟨hmem, hp⟩ := List.mem_filter.mp he
    rw [← heq, FlatMap.mem_entries.mp hmem] at hr
    simp [hp] at hr
  | some r =>
    obtain ⟨hget, hp⟩ := Option.filter_eq_some_iff.mp hr
    have hmem : (id, r) ∈ records.entries.filter fun e => p e.2 :=
      List.mem_filter.mpr ⟨FlatMap.mem_entries.mpr hget, hp⟩
    exact project_flatMap Prod.fst (fun e => [act e.2])
      ((List.filter_sublist.map Prod.fst).nodup records.nodup_keys) hmem

variable (t : UnroutedUnicasts F W)

/-- The timer pass settles the sends past their deadline. -/
theorem tick_ok [FromSendFailure E] (now : Instant) :
    ∃ (t' : UnroutedUnicasts F W) (log : List (SendId × Action F W E)),
      t.tick now = .ok (t', log.map Prod.snd) ∧ t'.retries = t.retries ∧
      (∀ id, t'.records.get id =
        (t.records.get id).filter (fun r => decide (now < r.deadline))) ∧
      ∀ id, project id log =
        (((t.records.get id).filter (fun r => decide (r.deadline ≤ now))).map
          (settled · .handoffTimeout)).toList := by
  obtain ⟨records', hok, hget⟩ :=
    removeAll_filter t.records (fun r => decide (r.deadline ≤ now))
  refine ⟨{ t with records := records' },
    (t.records.entries.filter fun e => decide (e.2.deadline ≤ now)).map
      fun e => (e.1, settled e.2 .handoffTimeout), ?_, rfl, ?_, fun id => ?_⟩
  · unfold tick
    simp [hok, Function.comp_def]
  · simpa only [← not_le, decide_not] using hget
  · exact project_taken t.records (fun r => decide (r.deadline ≤ now))
      (settled · .handoffTimeout) id

/-- Routing takes every send to the destination out of the table. -/
theorem route_ok (destination : Nwk) :
    ∃ t', t.route destination =
        .ok (t.records.entries.filter (fun e => e.2.destination = destination), t') ∧
      ∀ id, t'.records.get id =
        (t.records.get id).filter (fun r => decide (r.destination ≠ destination)) := by
  obtain ⟨records', hok, hget⟩ :=
    removeAll_filter t.records (fun r => decide (r.destination = destination))
  refine ⟨⟨records', t.retries.remove destination⟩, ?_, ?_⟩
  · unfold route take
    simp [hok]
  · simpa using hget

/-- A failed discovery settles every send to the destination. -/
theorem fail_ok [FromSendFailure E] (destination : Nwk) :
    ∃ (t' : UnroutedUnicasts F W) (log : List (SendId × Action F W E)),
      t.fail destination = .ok (t', log.map Prod.snd) ∧
      (∀ id, t'.records.get id =
        (t.records.get id).filter (fun r => decide (r.destination ≠ destination))) ∧
      ∀ id, project id log =
        (((t.records.get id).filter (fun r => decide (r.destination = destination))).map
          (settled · .routeDiscoveryTimeout)).toList := by
  obtain ⟨t', hok, hget⟩ := t.route_ok destination
  refine ⟨t', (t.records.entries.filter fun e => e.2.destination = destination).map
      fun e => (e.1, settled e.2 .routeDiscoveryTimeout), ?_, hget, fun id => ?_⟩
  · unfold fail
    rw [route] at hok
    simp [hok, Function.comp_def]
  · exact project_taken t.records (fun r => decide (r.destination = destination))
      (settled · .routeDiscoveryTimeout) id

theorem cancel_ok [FromSendFailure E] {id : SendId} {r : Record F W}
    (hget : t.records.get id = some r) :
    t.cancel id = .ok ({ t with records := t.records.remove id },
      ([settled r .cancelled] : Actions F W E)) := by
  unfold cancel
  simp [hget]

/-- A discovery of an awaited destination is answered, and no send moves. -/
theorem retryDiscovery_ok {destination : Nwk} (h : destination ∈ t.destinations) :
    ∃ answer t', t.retryDiscovery destination = .ok (answer, t') ∧ t'.records = t.records := by
  obtain ⟨retries, hretries⟩ := Option.isSome_iff_exists.mp (FlatMap.mem_keys.mp h)
  unfold retryDiscovery
  simp only [hretries, Checked.unwrap_some, Checked.ok_bind]
  split_ifs
  · exact ⟨_, _, rfl, rfl⟩
  · exact ⟨_, _, rfl, rfl⟩

end Ziggurat.UnroutedUnicasts
