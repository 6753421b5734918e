import Ziggurat.Sends.Refinement.Runs

/-!
# The timer

The driver sleeps until `next_wake` and then ticks.  Two things could go wrong: a
tick that leaves something due makes the driver spin, and a wake time past some
record's deadline strands the record.  Neither happens, although each table
computes its wake times apart from what its tick does.

* `Life.Step.rested` reads off the machine what a tick leaves of one send: its
  wake time, if it has one, and its deadline are past `now`.
* `Sends.mem_wakes_of_nextWake` and `Sends.nextWake_le` relate the wake time of
  the tables to those of their records.
-/

namespace Ziggurat

variable {F W E : Type}

/-! ## One record -/

/-- A record that a tick at `now` left behind is not due. -/
structure Unicasts.Record.Rested (now : Instant) (r : Unicasts.Record F W) : Prop where
  deadline : r.stage.isTransmitting = true ∨ now < r.deadline
  wake : ∀ wake, r.nextWake = some wake → now < wake

structure Broadcasts.Record.Rested (now : Instant) (r : Broadcasts.Record F W E) : Prop where
  deadline : r.copy = .transmitting ∨ now < r.deadline
  wake : ∀ wake, r.nextWake = some wake → now < wake

theorem Unicasts.Record.rested_of_transmitting {r : Unicasts.Record F W} (now : Instant)
    (h : r.stage.isTransmitting = true) : r.Rested now := by
  refine ⟨Or.inl h, fun wake hwake => ?_⟩
  cases hs : r.stage <;> simp_all [Stage.isTransmitting, nextWake]

theorem Broadcasts.Record.rested_of_transmitting {r : Broadcasts.Record F W E} (now : Instant)
    (h : r.copy = .transmitting) : r.Rested now :=
  ⟨Or.inl h, by simp [nextWake, h]⟩

/-- A record outside the radio that does not lapse is before its deadline. -/
theorem Unicasts.Record.lt_deadline_of_lapse {r : Unicasts.Record F W} {now : Instant}
    (hstage : r.stage.isTransmitting = false) (h : r.lapse now = none) : now < r.deadline := by
  unfold lapse at h
  split_ifs at h with hdeadline
  · unfold deadlineFailure at h
    cases hs : r.stage <;> cases hp : r.pollAddress <;>
      simp_all [Stage.isTransmitting]
  · exact not_le.mp hdeadline

/-- The timer pass leaves no unicast due. -/
theorem Unicasts.Record.rested_requeue {r : Unicasts.Record F W} {now : Instant}
    (hstage : r.stage.isTransmitting = false) (h : (r.requeue now).lapse now = none) :
    (r.requeue now).Rested now := by
  have hdeadline : now < (r.requeue now).deadline :=
    lt_deadline_of_lapse (by rwa [isTransmitting_requeue]) h
  refine ⟨Or.inr hdeadline, fun wake hwake => ?_⟩
  unfold nextWake at hwake
  cases hs : (r.requeue now).stage with
  | transmitting acked => simp [hs] at hwake
  | retrying due =>
    -- a retry that was due is queued
    have hdue : now < due := by
      unfold requeue at hs
      split at hs
      · split_ifs at hs with hle
        rename_i due' hs'
        obtain rfl : due' = due := by simpa [hs'] using hs
        exact not_le.mp hle
      · rename_i hnot
        exact absurd hs (hnot due)
    simp only [hs, Option.some.injEq] at hwake
    exact hwake ▸ lt_min hdue hdeadline
  | queued | awaitingPoll | awaitingApsAck =>
    simp only [hs, Option.some.injEq] at hwake
    exact hwake ▸ hdeadline

/-- What a schedule answers when nothing is due. -/
theorem Broadcasts.lt_nextAttempt {schedule : Schedule} {now : Instant}
    (h : (scheduleDue schedule now).1 = none) (record : Record F W E) (next : Instant)
    (hnext : Record.nextAttempt { record with schedule := (scheduleDue schedule now).2 } =
      some next) : now < next := by
  cases schedule with
  | once => simp [scheduleDue, Record.nextAttempt] at hnext
  | passiveAck key copies nextAttempt | fixedInterval key copies nextAttempt =>
    simp only [scheduleDue] at h hnext
    split_ifs at h hnext with hlt
    simp only [Record.nextAttempt, Option.some.injEq] at hnext
    exact hnext ▸ hlt

/-- A record without a verdict has a schedule that goes on and is before its
deadline. -/
theorem Broadcasts.Record.of_verdict_none [FromSendFailure E] {r : Broadcasts.Record F W E}
    {now : Instant} {due : Option Due} (hcopy : r.copy ≠ .transmitting)
    (h : r.verdict now due = .ok none) : due ≠ some .over ∧ now < r.deadline := by
  unfold verdict at h
  rw [if_neg hcopy] at h
  split_ifs at h with hover hoff
  · cases hv : handedOffVerdict (E := E) r.schedule <;>
      simp [hv, Functor.map, Except.map] at h
  · cases hv : r.lastError <;> simp [hv, Checked.unwrap] at h
  · refine ⟨hover, ?_⟩
    unfold lapse at h
    split_ifs at h with hdeadline hoff
    · cases hv : handedOffVerdict (E := E) r.schedule <;>
        simp [hv, Functor.map, Except.map] at h
    · cases h
    · exact not_le.mp hdeadline

/-- The timer pass leaves no broadcast due. -/
theorem Broadcasts.Record.rested_advance [FromSendFailure E] {r : Broadcasts.Record F W E}
    {now : Instant} (hcopy : r.copy ≠ .transmitting)
    (h : (r.advance now).1.verdict now (r.advance now).2 = .ok none) :
    (r.advance now).1.Rested now := by
  have hcopy' : (r.advance now).1.copy ≠ .transmitting :=
    fun heq => hcopy (copy_advance_transmitting.mp heq)
  obtain ⟨hover, hdeadline⟩ := of_verdict_none hcopy' h
  refine ⟨Or.inr hdeadline, fun wake hwake => ?_⟩
  unfold nextWake at hwake
  cases hc : (r.advance now).1.copy with
  | transmitting => exact absurd hc hcopy'
  | queued =>
    simp only [hc, Option.some.injEq] at hwake
    exact hwake ▸ hdeadline
  | idle =>
    simp only [hc, Option.some.injEq] at hwake
    have hattempt : ∀ next, (r.advance now).1.nextAttempt = some next → now < next := by
      unfold advance at hc hover ⊢
      cases hr : r.copy with
      | transmitting => exact absurd hr hcopy
      | queued => simp [hr] at hc
      | idle =>
        simp only [hr] at hc hover ⊢
        cases hdue : (scheduleDue r.schedule now).1 with
        | none =>
          intro next hnext
          exact lt_nextAttempt hdue { r with copy := .idle } next (by simpa [hdue] using hnext)
        | some due => cases due <;> simp [hdue] at hc hover
    rw [← hwake]
    refine lt_min ?_ hdeadline
    cases hnext : (r.advance now).1.nextAttempt with
    | none => exact hdeadline
    | some next => exact hattempt next hnext

/-! ## One send -/

/-- A tick at `now` left nothing of the send due. -/
structure Life.Rested (now : Instant) (l : Life F W E) : Prop where
  unicast : ∀ r, l.unicast = some r → r.Rested now
  unrouted : ∀ r, l.unrouted = some r → now < r.deadline
  broadcast : ∀ r, l.broadcast = some r → r.Rested now

/-- What a timer pass leaves of a send. -/
theorem Life.Step.rested [FromSendFailure E] {id : SendId} {e : Event F W E}
    {l l' : Life F W E} {actions : Actions F W E} {now : Instant}
    (h : Life.Step id e l actions l') (hop : e.op = .tick now) : l'.Rested now := by
  have habsent : (absent : Life F W E).Rested now :=
    ⟨by simp [absent], by simp [absent], by simp [absent]⟩
  -- the other verbs are ruled out by the call, and every pass is at `now`
  cases h with
  | idle quiet =>
    have := quiet.sweeps
    simp [hop, Op.sweeps] at this
  | tickIdle _ unrouted unicast broadcast =>
    exact ⟨fun r hr => Unicasts.Record.rested_of_transmitting now (unicast r hr),
      by simp [unrouted],
      fun r hr => Broadcasts.Record.rested_of_transmitting now (broadcast r hr)⟩
  | tickUnicast op stage lapse =>
    obtain rfl := (Op.tick.inj (hop.symm.trans op))
    refine ⟨fun r hr => ?_, by simp, by simp⟩
    cases hr
    exact Unicasts.Record.rested_requeue stage lapse
  | tickUnrouted op deadline =>
    obtain rfl := (Op.tick.inj (hop.symm.trans op))
    refine ⟨by simp, fun r hr => ?_, by simp⟩
    cases hr
    exact deadline
  | tickBroadcast op copy verdict =>
    obtain rfl := (Op.tick.inj (hop.symm.trans op))
    refine ⟨by simp, by simp, fun r hr => ?_⟩
    cases hr
    exact Broadcasts.Record.rested_advance copy verdict
  | lapseUnicast | lapseUnrouted | lapseBroadcast => exact habsent
  | abandoned op | lendUnicast op | reportUnicast op | pollUnicast op | ackTransmitting op
  | ackSettle op | dropUnicast op | cancelUnicast op | admitUnrouted _ op | routed op
  | routeFailed op | failUnrouted op | cancelUnrouted op | admitBroadcast _ op
  | lendBroadcast op | reportBroadcast op | quorumNoted op | quorumSettle op
  | cancelBroadcast op => exact absurd (hop.symm.trans op) (by simp)
  | admitUnicast _ waiter => simp [hop, Op.waiter] at waiter

/-! ## The wake time of the tables -/

/-- The times at which some record asks to be looked at. -/
def Sends.wakes (s : Sends F W E) : List Instant :=
  s.unicasts.records.values.filterMap Unicasts.Record.nextWake ++
    s.unroutedUnicasts.records.values.map (·.deadline) ++
    s.broadcasts.records.values.filterMap Broadcasts.Record.nextWake

theorem Sends.mem_wakes_of_nextWake {s : Sends F W E} {wake : Instant}
    (h : s.nextWake = some wake) : wake ∈ s.wakes := by
  have hmem := List.min?_mem h
  simp only [List.mem_append, Option.mem_toList] at hmem
  simp only [wakes, List.mem_append]
  rcases hmem with (hmem | hmem) | hmem
  · exact Or.inl (Or.inl (List.min?_mem hmem))
  · exact Or.inl (Or.inr (List.min?_mem hmem))
  · exact Or.inr (List.min?_mem hmem)

theorem exists_min?_le {l : List Instant} {t : Instant} (h : t ∈ l) :
    ∃ m, l.min? = some m ∧ m ≤ t := by
  cases hm : l.min? with
  | none => simp [List.min?_eq_none_iff.mp hm] at h
  | some m => exact ⟨m, rfl, (List.min?_eq_some_iff.mp hm).2 t h⟩

theorem Sends.nextWake_le {s : Sends F W E} {t : Instant} (h : t ∈ s.wakes) :
    ∃ wake, s.nextWake = some wake ∧ wake ≤ t := by
  -- the table of `t` has an earliest time, and the tables together an earlier one
  have hstep : ∀ {m : Instant},
      m ∈ s.unicasts.nextWake.toList ++ s.unroutedUnicasts.nextWake.toList ++
        s.broadcasts.nextWake.toList → m ≤ t →
      ∃ wake, s.nextWake = some wake ∧ wake ≤ t := by
    intro m hm hle
    obtain ⟨wake, hwake, hwakeLe⟩ := exists_min?_le hm
    exact ⟨wake, hwake, le_trans hwakeLe hle⟩
  simp only [wakes, List.mem_append] at h
  rcases h with (h | h) | h <;> obtain ⟨m, hm, hle⟩ := exists_min?_le h
  · exact hstep (by simp [Unicasts.nextWake, hm]) hle
  · exact hstep (by simp [UnroutedUnicasts.nextWake, hm]) hle
  · exact hstep (by simp [Broadcasts.nextWake, hm]) hle

/-- A record outside the radio asks for a look no later than its deadline. -/
theorem Unicasts.Record.nextWake_le_deadline {r : Unicasts.Record F W}
    (h : r.stage.isTransmitting = false) : ∃ t, r.nextWake = some t ∧ t ≤ r.deadline := by
  unfold nextWake
  cases hs : r.stage with
  | transmitting => simp [hs, Stage.isTransmitting] at h
  | retrying due => exact ⟨_, rfl, min_le_right _ _⟩
  | queued | awaitingPoll | awaitingApsAck => exact ⟨_, rfl, le_rfl⟩

theorem Broadcasts.Record.nextWake_le_deadline {r : Broadcasts.Record F W E}
    (h : r.copy ≠ .transmitting) : ∃ t, r.nextWake = some t ∧ t ≤ r.deadline := by
  unfold nextWake
  cases hc : r.copy with
  | transmitting => exact absurd hc h
  | idle => exact ⟨_, rfl, min_le_right _ _⟩
  | queued => exact ⟨_, rfl, le_rfl⟩

/-- Every record that is not in the radio is looked at by its deadline. -/
structure Sends.NoneStranded (s : Sends F W E) : Prop where
  unicast : ∀ id r, s.unicasts.records.get id = some r → r.stage.isTransmitting = false →
    ∃ wake, s.nextWake = some wake ∧ wake ≤ r.deadline
  unrouted : ∀ id r, s.unroutedUnicasts.records.get id = some r →
    ∃ wake, s.nextWake = some wake ∧ wake ≤ r.deadline
  broadcast : ∀ id r, s.broadcasts.records.get id = some r → r.copy ≠ .transmitting →
    ∃ wake, s.nextWake = some wake ∧ wake ≤ r.deadline

theorem Sends.noneStranded (s : Sends F W E) : s.NoneStranded := by
  have hle : ∀ {t deadline : Instant}, t ∈ s.wakes → t ≤ deadline →
      ∃ wake, s.nextWake = some wake ∧ wake ≤ deadline := by
    intro t deadline ht hdeadline
    obtain ⟨wake, hwake, hwakeLe⟩ := nextWake_le ht
    exact ⟨wake, hwake, le_trans hwakeLe hdeadline⟩
  refine ⟨fun id r hr hstage => ?_, fun id r hr => ?_, fun id r hr hcopy => ?_⟩
  · obtain ⟨t, ht, htLe⟩ := r.nextWake_le_deadline hstage
    have hmem := FlatMap.mem_values.mpr ⟨id, hr⟩
    exact hle (by simp only [wakes, List.mem_append]
                  exact Or.inl (Or.inl (List.mem_filterMap.mpr ⟨r, hmem, ht⟩))) htLe
  · have hmem := FlatMap.mem_values.mpr ⟨id, hr⟩
    exact hle (by simp only [wakes, List.mem_append]
                  exact Or.inl (Or.inr (List.mem_map_of_mem hmem))) le_rfl
  · obtain ⟨t, ht, htLe⟩ := r.nextWake_le_deadline hcopy
    have hmem := FlatMap.mem_values.mpr ⟨id, hr⟩
    exact hle (by simp only [wakes, List.mem_append]
                  exact Or.inr (List.mem_filterMap.mpr ⟨r, hmem, ht⟩)) htLe

/-- Nothing in the tables is due at `now`. -/
structure Sends.Rested (now : Instant) (s : Sends F W E) : Prop where
  unicast : ∀ id r, s.unicasts.records.get id = some r →
    r.stage.isTransmitting = true ∨ now < r.deadline
  unrouted : ∀ id r, s.unroutedUnicasts.records.get id = some r → now < r.deadline
  broadcast : ∀ id r, s.broadcasts.records.get id = some r →
    r.copy = .transmitting ∨ now < r.deadline
  wake : ∀ wake, s.nextWake = some wake → now < wake

theorem World.rested_of_lives {w : World F W E} {now : Instant}
    (h : ∀ i, (w.life i).Rested now) : w.sends.Rested now := by
  refine ⟨fun id r hr => ((h id).unicast r hr).deadline, fun id r hr => (h id).unrouted r hr,
    fun id r hr => ((h id).broadcast r hr).deadline, fun wake hwake => ?_⟩
  have hmem := Sends.mem_wakes_of_nextWake hwake
  simp only [Sends.wakes, List.mem_append, List.mem_filterMap, List.mem_map] at hmem
  rcases hmem with (⟨r, hr, hwake⟩ | ⟨r, hr, rfl⟩) | ⟨r, hr, hwake⟩ <;>
    obtain ⟨id, hget⟩ := FlatMap.mem_values.mp hr
  · exact ((h id).unicast r hget).wake wake hwake
  · exact (h id).unrouted r hget
  · exact ((h id).broadcast r hget).wake wake hwake

/-- From every reachable state the timer pass at any instant returns and leaves
nothing due, and the wake time never misses a deadline. -/
theorem timer_never_spins_or_strands [FromSendFailure E] {w : World F W E}
    {es : List (Event F W E)} (h : Run w es) :
    w.sends.NoneStranded ∧
      ∀ now, ∃ w' out, step w (.tick now) = .ok (w', out) ∧ w'.sends.Rested now := by
  refine ⟨w.sends.noneStranded, fun now => ?_⟩
  obtain ⟨w', out, log, hrefines⟩ := Refinement.tick h.ok now
  exact ⟨w', out, hrefines.returned,
    World.rested_of_lives fun i => (hrefines.steps i).rested rfl⟩

/-- A unicast in the queue, and a broadcast whose first copy is due at 5. -/
def dueAtFive : List (Op Nat Nat SendFailure) :=
  [.enqueueUnicast
    { frame := 7, priority := .userNormal, waiter := 100, confirm := .onHandoff,
      nextHop := 1, pollAddress := none } 0 {},
  .enqueueBroadcast
    { frame := 8, priority := .userNormal, waiter := 101,
      schedule := .passiveAck (1, 9) 2 5 } 0 {}]

theorem timer_never_spins_or_strands_due :
    ∃ (w : World Nat Nat SendFailure) (es : List (Event Nat Nat SendFailure)),
      Run w es ∧ w.sends.nextWake = some 5 ∧ w.sends.NoneStranded ∧
      ∃ w' out, step w (.tick 5) = .ok (w', out) ∧ w'.sends.Rested 5 := by
  have hrun := run_outcome dueAtFive (by decide +kernel)
  obtain ⟨hstranded, hspins⟩ := timer_never_spins_or_strands hrun
  exact ⟨_, _, hrun, by decide +kernel, hstranded, hspins 5⟩

end Ziggurat
