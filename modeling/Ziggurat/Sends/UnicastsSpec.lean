import Ziggurat.Lib.Drain
import Ziggurat.Sends.Life

/-!
# What each operation of the unicasts table does

One lemma for each function of `Sends.Unicasts`: under the facts that keep it
from panicking, the function returns, and the lemma says what every id looks up
afterwards and which actions were emitted.  `Sends.Refinement` uses these and
never unfolds the functions.
-/

namespace Ziggurat.Unicasts

open Lib.TagLog Lib.Drain

variable {F W E : Type} {t : Unicasts F W} {id : SendId} {r : Record F W}

/-- Every record outside the radio holds its frame. -/
def Held (t : Unicasts F W) : Prop :=
  ∀ id r, t.records.get id = some r → r.stage.isTransmitting = false → r.frame.isSome = true

/-- A unicast enters the table queued, or awaiting the poll of its device. -/
theorem stage_newRecord (unicast : Unicast F W) (now : Instant) (admittedDeadline : Option Instant)
    (copyOf : Option SendId) (tunables : Tunables) :
    (newRecord unicast now admittedDeadline copyOf tunables).stage =
      if unicast.pollAddress.isSome then .awaitingPoll else .queued := by
  unfold newRecord admission
  cases unicast.pollAddress <;> cases admittedDeadline <;> rfl

theorem contains_eq_isSome (t : Unicasts F W) (id : SendId) :
    t.contains id = (t.records.get id).isSome :=
  t.records.containsKey_eq_isSome id

theorem settle_ok {frame : F} (hget : t.records.get id = some r)
    (hframe : r.frame = some frame) (result : Except E Unit) (failedHop : Option Nwk)
    (actions : Actions F W E) :
    t.settle id result failedHop actions =
      .ok (⟨t.records.remove id⟩, actions ++ r.verdict result frame failedHop) := by
  unfold settle Record.verdict
  simp only [hget, Checked.unwrap_some, Checked.ok_bind, hframe, Checked.expect_some,
    Checked.pure_eq_ok]
  split_ifs <;> simp

/-- The send that `best_queued` picks is queued and before its deadline. -/
theorem bestQueued_ready {now : Instant} {priority : TxPriority}
    (h : t.bestQueued now = some (id, priority)) :
    ∃ r, t.records.get id = some r ∧ r.ready now = true := by
  obtain ⟨e, hget, hready, heq⟩ := FlatMap.get_of_maxByKey h
  cases heq
  exact ⟨e.2, hget, hready⟩

/-- The bit that `dequeue` sets: another frame is pending for the address of this one. -/
def framePending (t : Unicasts F W) (id : SendId) (r : Record F W) : Bool :=
  match r.pollAddress with
  | none => false
  | some address => t.records.entries.any
      (fun e => e.1 ≠ id && e.2.pendingFor = some address)

theorem dequeue_ok {frame : F} (hget : t.records.get id = some r)
    (hstage : r.stage = .queued) (hframe : r.frame = some frame) :
    t.dequeue id = .ok (⟨id, frame, .unicast r.nextHop (t.framePending id r)⟩,
      ⟨t.records.set id r.lend⟩) := by
  unfold dequeue Record.lend framePending
  cases hp : r.pollAddress <;> simp [hget, hstage, hframe, hp]

private theorem handedOff_ok {frame : F} (hget : t.records.get id = some r)
    (hframe : r.frame = some frame) (hstage : r.stage ≠ .awaitingApsAck) (now : Instant)
    (acked : Bool) :
    ∃ t', t.handedOff id now acked [] =
        .ok (t', (r.accept frame now acked : _ × Actions F W E).2) ∧
      ∀ j, t'.records.get j =
        if j = id then (r.accept frame now acked : _ × Actions F W E).1
        else t.records.get j := by
  have hverdict : r.verdict (.ok ()) frame none =
      ([.settled r.waiter (.ok ()) frame none] : Actions F W E) := by
    simp [Record.verdict, hstage]
  unfold handedOff Record.accept
  cases hc : r.confirm with
  | onHandoff =>
    refine ⟨⟨t.records.remove id⟩, ?_, by simp⟩
    simp only [hget, Checked.unwrap_some, Checked.ok_bind, hc]
    rw [settle_ok hget hframe, hverdict]
    rfl
  | apsAck ack wait =>
    cases acked with
    | true =>
      refine ⟨⟨t.records.remove id⟩, ?_, by simp⟩
      simp only [hget, Checked.unwrap_some, Checked.ok_bind, hc, if_true]
      rw [settle_ok hget hframe, hverdict]
      rfl
    | false =>
      refine ⟨_, by simp [hget, hc]; rfl, ?_⟩
      intro j
      simp [← hframe]

/-- The report on a transmitting record does to it what `Record.report` says. -/
theorem transmitted_ok {acked : Bool} (hget : t.records.get id = some r)
    (hstage : r.stage = .transmitting acked) (frame : F) (result : Except E Unit)
    (now : Instant) (retryDelay : Duration) :
    ∃ t', t.transmitted id frame result now retryDelay =
        .ok (t', (r.report acked frame result now retryDelay).2) ∧
      ∀ j, t'.records.get j =
        if j = id then (r.report acked frame result now retryDelay).1
        else t.records.get j := by
  obtain ⟨_, priority, waiter, confirm, nextHop, pollAddress, attempts, stage, deadline,
    copyOf⟩ := r
  subst hstage
  -- the report first puts the frame back into the record
  let back : Record F W := ⟨some frame, priority, waiter, confirm, nextHop, pollAddress,
    attempts, .transmitting acked, deadline, copyOf⟩
  let t₁ : Unicasts F W := ⟨t.records.set id back⟩
  have hget₁ : t₁.records.get id = some back := by simp [t₁]
  have hframe₁ : back.frame = some frame := rfl
  have hother : ∀ {t' : Unicasts F W} {o : Option (Record F W)},
      (∀ j, t'.records.get j = if j = id then o else t₁.records.get j) →
      ∀ j, t'.records.get j = if j = id then o else t.records.get j := by
    intro t' o h j
    rw [h j]
    by_cases hj : j = id <;> simp [hj, t₁]
  have haccept : ∀ acked, ∃ t', t₁.handedOff id now acked [] =
        .ok (t', (back.accept frame now acked : _ × Actions F W E).2) ∧
      ∀ j, t'.records.get j =
        if j = id then (back.accept frame now acked : _ × Actions F W E).1
        else t.records.get j := by
    intro acked
    obtain ⟨t', h1, h2⟩ := handedOff_ok (E := E) hget₁ hframe₁ (by simp [back]) now acked
    exact ⟨t', h1, hother h2⟩
  have hsettle : ∀ (result : Except E Unit) (hop : Option Nwk), ∃ t',
      t₁.settle id result hop [] = .ok (t', [.settled waiter result frame hop]) ∧
      ∀ j, t'.records.get j = if j = id then none else t.records.get j := by
    intro result hop
    refine ⟨⟨t₁.records.remove id⟩, ?_, hother (by simp)⟩
    rw [settle_ok hget₁ hframe₁]
    simp [Record.verdict, back]
  have hset : ∀ (r' : Record F W) (j : SendId),
      (FlatMap.set t₁.records id r').get j =
        if j = id then some r' else t.records.get j := by
    intro r'
    exact @hother ⟨FlatMap.set t₁.records id r'⟩ _ (by simp)
  unfold transmitted Record.report
  simp only [hget, Checked.expect_some, Checked.ok_bind]
  cases result with
  | ok => exact haccept acked
  | error err =>
    dsimp only
    cases acked with
    | true => exact haccept true
    | false =>
      unfold Record.reject
      simp only [Bool.false_eq_true, if_false]
      cases pollAddress with
      | some address =>
        dsimp only
        split_ifs with hnow
        · exact ⟨_, rfl, hset _⟩
        · exact hsettle (.error err) none
      | none =>
        dsimp only
        split_ifs with hattempts
        · exact hsettle (.error err) (some nextHop)
        · exact ⟨_, rfl, hset _⟩

/-- A poll queues the record that the search finds, or nothing. -/
theorem poll_ok (t : Unicasts F W) (eui64 : Option Eui64) (nwk : Option Nwk) (now : Instant) :
    (t.records.entries.find? (fun e => e.2.pollable eui64 nwk now) = none ∧
      t.poll eui64 nwk now = .ok (false, t)) ∨
    ∃ id r, t.records.entries.find? (fun e => e.2.pollable eui64 nwk now) = some (id, r) ∧
      t.records.get id = some r ∧ r.pollable eui64 nwk now = true ∧
      t.poll eui64 nwk now = .ok (true, ⟨t.records.set id r.polled⟩) := by
  unfold poll
  cases hfind : t.records.entries.find? (fun e => e.2.pollable eui64 nwk now) with
  | none => exact Or.inl ⟨rfl, rfl⟩
  | some e =>
    obtain ⟨id, r⟩ := e
    have hget : t.records.get id = some r :=
      FlatMap.mem_entries.mp (List.mem_of_find?_eq_some hfind)
    have hpollable : r.pollable eui64 nwk now = true := by simpa using List.find?_some hfind
    exact Or.inr ⟨id, r, rfl, hget, hpollable, by simp [hget]⟩

/-- An ack touches the record that the search finds, or nothing. -/
theorem ackReceived_ok (hheld : t.Held) (ack : ApsAckData) :
    (t.records.entries.find? (fun e => e.2.expects ack) = none ∧
      t.ackReceived ack = .ok (t, ([] : Actions F W E))) ∨
    ∃ id r, t.records.entries.find? (fun e => e.2.expects ack) = some (id, r) ∧
      t.records.get id = some r ∧ r.expects ack = true ∧
      (r.stage.isTransmitting = true ∧
          t.ackReceived ack = .ok (⟨t.records.set id { r with stage := .transmitting true }⟩,
            ([] : Actions F W E)) ∨
        r.stage.isTransmitting = false ∧ ∃ frame, r.frame = some frame ∧
          t.ackReceived ack = .ok (⟨t.records.remove id⟩,
            (r.verdict (.ok ()) frame none : Actions F W E))) := by
  unfold ackReceived
  cases hfind : t.records.entries.find? (fun e => e.2.expects ack) with
  | none => exact Or.inl ⟨rfl, rfl⟩
  | some e =>
    obtain ⟨id, r⟩ := e
    have hget : t.records.get id = some r :=
      FlatMap.mem_entries.mp (List.mem_of_find?_eq_some hfind)
    have hexpects : r.expects ack = true := by simpa using List.find?_some hfind
    refine Or.inr ⟨id, r, rfl, hget, hexpects, ?_⟩
    cases hstage : r.stage.isTransmitting with
    | true => exact Or.inl ⟨rfl, by simp [hget, hstage]⟩
    | false =>
      obtain ⟨frame, hframe⟩ := Option.isSome_iff_exists.mp (hheld id r hget hstage)
      refine Or.inr ⟨rfl, frame, hframe, ?_⟩
      simp only [hget, Checked.unwrap_some, Checked.ok_bind, hstage, Bool.false_eq_true, if_false]
      rw [settle_ok hget hframe, List.nil_append]

/-- What `settle` emits for a record that holds its frame. -/
def Record.emit (result : Except E Unit) (r : Record F W) : Actions F W E :=
  match r.frame with
  | some frame => r.verdict result frame none
  | none => []

theorem settle_drains (t : Unicasts F W) (v : SendId × Except E Unit)
    (actions : Actions F W E) (r : Record F W) (hget : t.records.get v.1 = some r)
    (hframe : r.frame.isSome = true) :
    ∃ t', t.settle v.1 v.2 none actions = .ok (t', actions ++ r.emit v.2) ∧
      ∀ k, t'.records.get k = if k = v.1 then none else t.records.get k := by
  obtain ⟨frame, hframe⟩ := Option.isSome_iff_exists.mp hframe
  refine ⟨⟨t.records.remove v.1⟩, ?_, by simp⟩
  rw [settle_ok hget hframe]
  simp [Record.emit, hframe]

/-- Settling every record that `verdict?` answers, in id order. -/
theorem settleAll_ok (t : Unicasts F W) (verdict? : Record F W → Option (Except E Unit))
    (hframe : ∀ id r result, t.records.get id = some r → verdict? r = some result →
      r.frame.isSome = true) :
    ∃ (t' : Unicasts F W) (log : List (SendId × Action F W E)),
      t.settleAll (t.records.answers verdict?) = .ok (t', log.map Prod.snd) ∧
      ∀ id,
        (t.records.get id = none → t'.records.get id = none ∧ project id log = []) ∧
        ∀ r, t.records.get id = some r →
          (verdict? r = none → t'.records.get id = some r ∧ project id log = []) ∧
          ∀ result, verdict? r = some result →
            t'.records.get id = none ∧ project id log = r.emit result := by
  obtain ⟨t', log, hfold, hlog⟩ :=
    foldlM_drain_answers (fun t id => t.records.get id)
      (fun t v actions => t.settle v.1 v.2 none actions) (fun result r => r.emit result)
      (fun r => r.frame.isSome = true) settle_drains (t.records.answers verdict?)
      (t.records.nodup_answers verdict?) (fun id => (t.records.get id).bind verdict?)
      (fun id result => t.records.mem_answers) t
      (fun id result h => by
        obtain ⟨r, hr, hx⟩ := Option.bind_eq_some_iff.mp h
        exact ⟨r, hr, hframe id r result hr hx⟩)
  refine ⟨t', log, hfold, fun id =>
    ⟨fun hnone => ?_, fun r hr => ⟨fun hx => ?_, fun result hx => ?_⟩⟩⟩
  · simpa [hnone] using (hlog id).1 (by simp [hnone])
  · simpa [hr] using (hlog id).1 (by simp [hr, hx])
  · exact (hlog id).2 result r (by simp [hr, hx]) hr

theorem Record.emit_of_frame {frame : F} (hframe : r.frame = some frame)
    (result : Except E Unit) : r.emit result = r.verdict result frame none := by
  simp [Record.emit, hframe]

theorem Record.stage_of_dropped {eui64 : Option Eui64} {nwk : Nwk}
    {destination : Ieee802154Address} (h : r.dropped eui64 nwk = some destination) :
    r.stage = .awaitingPoll := by
  unfold Record.dropped at h
  split at h
  · assumption
  · cases h

theorem Record.stage_of_pollable {eui64 : Option Eui64} {nwk : Option Nwk} {now : Instant}
    (h : r.pollable eui64 nwk now = true) : r.stage = .awaitingPoll := by
  unfold Record.pollable at h
  split at h
  · assumption
  · cases h

/-- A device's departure settles every frame that awaits its poll. -/
theorem dropIndirect_ok [FromSendFailure E] (hheld : t.Held) (eui64 : Option Eui64)
    (nwk : Nwk) :
    ∃ (t' : Unicasts F W) (log : List (SendId × Action F W E)),
      t.dropIndirect eui64 nwk = .ok (t', log.map Prod.snd) ∧
      ∀ id,
        (t.records.get id = none → t'.records.get id = none ∧ project id log = []) ∧
        ∀ r, t.records.get id = some r →
          (r.dropped eui64 nwk = none → t'.records.get id = some r ∧ project id log = []) ∧
          ∀ destination, r.dropped eui64 nwk = some destination →
            t'.records.get id = none ∧
            project id log = r.emit (.error (ofFailure (.indirectExpired destination))) := by
  let verdict? : Record F W → Option (Except E Unit) := fun r =>
    (r.dropped eui64 nwk).map fun destination =>
      .error (ofFailure (.indirectExpired destination))
  have hanswers : t.dropIndirect eui64 nwk = t.settleAll (t.records.answers verdict?) := by
    simp [dropIndirect, FlatMap.answers, verdict?, Function.comp_def]
  obtain ⟨t', log, hok, hlog⟩ := settleAll_ok t verdict? (fun id r result hr hx => by
    obtain ⟨destination, hd, -⟩ := Option.map_eq_some_iff.mp hx
    exact hheld id r hr (by rw [Record.stage_of_dropped hd]; rfl))
  refine ⟨t', log, by rw [hanswers, hok], fun id => ⟨(hlog id).1, fun r hr => ?_⟩⟩
  refine ⟨fun hx => ((hlog id).2 r hr).1 (by simp [verdict?, hx]), fun destination hx => ?_⟩
  exact ((hlog id).2 r hr).2 _ (by simp [verdict?, hx])

@[simp] theorem Record.frame_requeue (now : Instant) : (r.requeue now).frame = r.frame := by
  unfold Record.requeue
  split
  · split <;> rfl
  · rfl

theorem Record.isTransmitting_requeue (now : Instant) :
    (r.requeue now).stage.isTransmitting = r.stage.isTransmitting := by
  unfold Record.requeue
  split
  · rename_i hs
    split
    · rw [hs]
      rfl
    · rfl
  · rfl

theorem Record.requeue_of_transmitting (h : r.stage.isTransmitting = true) (now : Instant) :
    r.requeue now = r := by
  unfold Record.requeue
  split
  · rename_i hs
    simp [hs, Stage.isTransmitting] at h
  · rfl

/-- Only a record outside the radio lapses. -/
theorem Record.isTransmitting_of_lapse {now : Instant} {failure : SendFailure}
    (h : r.lapse now = some failure) : r.stage.isTransmitting = false := by
  unfold Record.lapse Record.deadlineFailure at h
  cases hs : r.stage <;> simp_all [Stage.isTransmitting]

/-- The timer pass re-queues or settles each record by itself. -/
theorem tick_ok [FromSendFailure E] (hheld : t.Held) (now : Instant) :
    ∃ (t' : Unicasts F W) (log : List (SendId × Action F W E)),
      t.tick now = .ok (t', log.map Prod.snd) ∧
      ∀ id,
        (t.records.get id = none → t'.records.get id = none ∧ project id log = []) ∧
        ∀ r, t.records.get id = some r →
          ((r.requeue now).lapse now = none →
            t'.records.get id = some (r.requeue now) ∧ project id log = []) ∧
          ∀ failure, (r.requeue now).lapse now = some failure →
            t'.records.get id = none ∧
            project id log = (r.requeue now).emit (.error (ofFailure failure)) := by
  let t₁ : Unicasts F W := ⟨t.records.mapVal (fun _ record => record.requeue now)⟩
  let verdict? : Record F W → Option (Except E Unit) := fun r =>
    (r.lapse now).map fun failure => .error (ofFailure failure)
  have hanswers : t.tick now = t₁.settleAll (t₁.records.answers verdict?) := by
    simp [tick, FlatMap.answers, verdict?, Function.comp_def, t₁]
  have hget₁ : ∀ id, t₁.records.get id = (t.records.get id).map (·.requeue now) := by
    simp [t₁]
  obtain ⟨t', log, hok, hlog⟩ := settleAll_ok t₁ verdict? (fun id r result hr hx => by
    obtain ⟨failure, hlapse, -⟩ := Option.map_eq_some_iff.mp hx
    rw [hget₁] at hr
    obtain ⟨r₀, hr₀, rfl⟩ := Option.map_eq_some_iff.mp hr
    rw [Record.frame_requeue]
    refine hheld id r₀ hr₀ ?_
    rw [← Record.isTransmitting_requeue now]
    exact Record.isTransmitting_of_lapse hlapse)
  refine ⟨t', log, by rw [hanswers, hok], fun id => ⟨fun hnone => ?_, fun r hr => ?_⟩⟩
  · exact (hlog id).1 (by simp [hget₁, hnone])
  have hr₁ : t₁.records.get id = some (r.requeue now) := by simp [hget₁, hr]
  refine ⟨fun hx => ((hlog id).2 _ hr₁).1 (by simp [verdict?, hx]), fun failure hx => ?_⟩
  exact ((hlog id).2 _ hr₁).2 _ (by simp [verdict?, hx])

/-- A cancel settles the send unless it is in the radio. -/
theorem cancel_ok [FromSendFailure E] (hheld : t.Held) (hget : t.records.get id = some r) :
    (r.stage.isTransmitting = true ∧
      t.cancel id = .ok (none : Option (Unicasts F W × Actions F W E))) ∨
    (r.stage.isTransmitting = false ∧ ∃ frame, r.frame = some frame ∧
      t.cancel id = .ok (some (⟨t.records.remove id⟩,
        (r.verdict (.error (ofFailure .cancelled)) frame none : Actions F W E)))) := by
  unfold cancel
  simp only [hget]
  cases hstage : r.stage.isTransmitting with
  | true => exact Or.inl ⟨rfl, by simp⟩
  | false =>
    obtain ⟨frame, hframe⟩ := Option.isSome_iff_exists.mp (hheld id r hget hstage)
    refine Or.inr ⟨rfl, frame, hframe, ?_⟩
    simp [settle_ok hget hframe, Functor.map, Except.map]

end Ziggurat.Unicasts
