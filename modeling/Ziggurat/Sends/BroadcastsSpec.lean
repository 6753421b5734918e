import Ziggurat.Lib.Drain
import Ziggurat.Sends.Life

/-!
# What each operation of the broadcasts table does

The counterpart of `Sends.UnicastsSpec` for `Sends.Broadcasts`.  The timer pass
has two branches that panic, one for a schedule that ran out without ever having
had a report and one for a single copy that was handed off and is still there;
`Record.verdict_total` rules both out from the invariant of a broadcast record.
-/

namespace Ziggurat.Broadcasts

open Lib.TagLog Lib.Drain Life

variable {F W E : Type} {t : Broadcasts F W E} {id : SendId} {r : Record F W E}

/-- Every record keeps the invariant of a broadcast. -/
def Sound (t : Broadcasts F W E) : Prop :=
  ∀ id r, t.records.get id = some r → ∃ tokens, BroadcastOk r tokens

theorem Sound.held (h : t.Sound) (hget : t.records.get id = some r)
    (hcopy : r.copy ≠ .transmitting) : ∃ frame, r.frame = some frame := by
  obtain ⟨tokens, hok⟩ := h id r hget
  exact Option.isSome_iff_exists.mp (hok.held hcopy).1

theorem settle_ok {frame : F} (hget : t.records.get id = some r)
    (hframe : r.frame = some frame) (result : Except E Unit) (actions : Actions F W E) :
    t.settle id result actions =
      .ok (⟨t.records.remove id⟩, actions ++ r.settlement result frame) := by
  unfold settle Record.settlement
  simp only [hget, Checked.unwrap_some, Checked.ok_bind, hframe, Checked.expect_some,
    Checked.pure_eq_ok]
  split_ifs <;> simp

/-- The copy that `best_queued` picks is queued and before its deadline. -/
theorem bestQueued_ready {now : Instant} {priority : TxPriority}
    (h : t.bestQueued now = some (id, priority)) :
    ∃ r, t.records.get id = some r ∧ r.ready now = true := by
  obtain ⟨e, hget, hready, heq⟩ := FlatMap.get_of_maxByKey h
  cases heq
  exact ⟨e.2, hget, hready⟩

theorem dequeue_ok {frame : F} (hget : t.records.get id = some r)
    (hcopy : r.copy = .queued) (hframe : r.frame = some frame) :
    t.dequeue id = .ok (⟨id, frame, .broadcast⟩, ⟨t.records.set id r.lend⟩) := by
  unfold dequeue Record.lend
  simp [hget, hcopy, hframe]

/-- The end of `transmitted` for a schedule of several copies: `back` is the
record after the report, and `first` says whether it is the first success. -/
private theorem conclude_ok {back : Record F W E} {frame : F} (hframe : back.frame = some frame)
    (first : Bool) :
    ∃ t', (if back.quorumHeard && back.handedOff then
          settle ⟨t.records.set id back⟩ id (.ok ()) []
        else if first then .ok (⟨t.records.set id back⟩, [.handedOff back.waiter])
        else .ok (⟨t.records.set id back⟩, []) : Checked (Broadcasts F W E × Actions F W E)) =
        .ok (t', (if back.quorumHeard && back.handedOff then
            (none, back.settlement (.ok ()) frame)
          else if first then (some back, [.handedOff back.waiter])
          else (some back, []) : Option (Record F W E) × Actions F W E).2) ∧
      ∀ j, t'.records.get j = if j = id then
          (if back.quorumHeard && back.handedOff then
            (none, back.settlement (.ok ()) frame)
          else if first then (some back, [.handedOff back.waiter])
          else (some back, []) : Option (Record F W E) × Actions F W E).1
        else t.records.get j := by
  split_ifs with hquorum hfirst
  · refine ⟨⟨(t.records.set id back).remove id⟩, settle_ok (by simp) hframe _ [], ?_⟩
    intro j
    by_cases hj : j = id <;> simp [hj]
  · exact ⟨_, rfl, by simp⟩
  · exact ⟨_, rfl, by simp⟩

/-- The report on a lent copy does to its record what `Record.report` says. -/
theorem transmitted_ok (hget : t.records.get id = some r) (hcopy : r.copy = .transmitting)
    (frame : F) (result : Except E Unit) (now : Instant) (passiveAckInterval : Duration) :
    ∃ t', t.transmitted id frame result now passiveAckInterval =
        .ok (t', (r.report frame result now passiveAckInterval).2) ∧
      ∀ j, t'.records.get j =
        if j = id then (r.report frame result now passiveAckInterval).1
        else t.records.get j := by
  obtain ⟨_, priority, waiter, schedule, copy, handedOff, quorumHeard, lastError, deadline⟩ := r
  subst hcopy
  let back (schedule : Schedule) : Record F W E :=
    ⟨some frame, priority, waiter, schedule, .idle, handedOff, quorumHeard, lastError, deadline⟩
  -- the record that the several-copies branch stores is `reported`
  have hconclude := fun schedule => @conclude_ok F W E t id
    ((back schedule).reported frame result now passiveAckInterval) frame rfl
    (result.isOk && !handedOff)
  unfold transmitted Record.report
  simp only [hget, Checked.expect_some, Checked.ok_bind, Checked.ensure_of]
  cases schedule with
  | once =>
    have hback : (t.records.set id (back .once)).get id = some (back .once) := by simp
    refine ⟨⟨(t.records.set id (back .once)).remove id⟩, settle_ok hback rfl result [], ?_⟩
    intro j
    by_cases hj : j = id <;> simp [hj]
  | passiveAck key copies next =>
    have := hconclude (.passiveAck key copies next)
    cases result <;> simpa [Record.reported, Except.isOk, Except.toBool, back] using this
  | fixedInterval interval copies next =>
    have := hconclude (.fixedInterval interval copies next)
    cases result <;> simpa [Record.reported, Except.isOk, Except.toBool, back] using this

/-- A quorum report touches the record that the search finds, or nothing. -/
theorem delivered_ok (hsound : t.Sound) (key : Nwk × UInt8) :
    t.records.entries.find? (fun e => e.2.awaits key) = none ∧ t.delivered key = .ok (t, []) ∨
    ∃ id r, t.records.entries.find? (fun e => e.2.awaits key) = some (id, r) ∧
      t.records.get id = some r ∧ r.awaits key = true ∧
      ((r.copy = .transmitting ∨ r.handedOff = false) ∧
          t.delivered key = .ok (⟨t.records.set id { r with quorumHeard := true }⟩, []) ∨
        r.copy ≠ .transmitting ∧ r.handedOff = true ∧ ∃ frame, r.frame = some frame ∧
          t.delivered key = .ok (⟨t.records.remove id⟩, r.settlement (.ok ()) frame)) := by
  unfold delivered
  cases hfind : t.records.entries.find? (fun e => e.2.awaits key) with
  | none => exact Or.inl ⟨rfl, rfl⟩
  | some e =>
    obtain ⟨id, r⟩ := e
    have hget : t.records.get id = some r :=
      FlatMap.mem_entries.mp (List.mem_of_find?_eq_some hfind)
    have hawaits : r.awaits key = true := by simpa using List.find?_some hfind
    refine Or.inr ⟨id, r, rfl, hget, hawaits, ?_⟩
    simp only [hget, Checked.unwrap_some, Checked.ok_bind]
    by_cases hearly : r.copy = .transmitting ∨ r.handedOff = false
    · refine Or.inl ⟨hearly, ?_⟩
      rw [if_pos (by simpa using hearly)]
      rfl
    · obtain ⟨hcopy, hoff⟩ := not_or.mp hearly
      obtain ⟨frame, hframe⟩ := hsound.held hget hcopy
      refine Or.inr ⟨hcopy, by simpa using hoff, frame, hframe, ?_⟩
      rw [if_neg (by simpa using hearly), settle_ok hget hframe, List.nil_append]

/-- A cancel settles the broadcast unless a copy is in the radio. -/
theorem cancel_ok [FromSendFailure E] (hsound : t.Sound) (hget : t.records.get id = some r) :
    (r.copy = .transmitting ∧ t.cancel id = .ok none) ∨
    (r.copy ≠ .transmitting ∧ ∃ frame, r.frame = some frame ∧
      t.cancel id = .ok (some (⟨t.records.remove id⟩,
        r.settlement (.error (ofFailure .cancelled)) frame))) := by
  unfold cancel
  simp only [hget]
  by_cases hcopy : r.copy = .transmitting
  · exact Or.inl ⟨hcopy, by simp [hcopy]⟩
  · obtain ⟨frame, hframe⟩ := hsound.held hget hcopy
    refine Or.inr ⟨hcopy, frame, hframe, ?_⟩
    simp [settle_ok hget hframe, hcopy, Functor.map, Except.map]

/-! ## The timer pass -/

@[simp] theorem Record.frame_advance (now : Instant) : (r.advance now).1.frame = r.frame := by
  unfold Record.advance
  split <;> rfl

@[simp] theorem Record.handedOff_advance (now : Instant) :
    (r.advance now).1.handedOff = r.handedOff := by
  unfold Record.advance
  split <;> rfl

@[simp] theorem Record.lastError_advance (now : Instant) :
    (r.advance now).1.lastError = r.lastError := by
  unfold Record.advance
  split <;> rfl

theorem Record.advance_transmitting (h : r.copy = .transmitting) (now : Instant) :
    r.advance now = (r, none) := by
  simp [Record.advance, h]

theorem Record.copy_advance_transmitting {now : Instant} :
    (r.advance now).1.copy = .transmitting ↔ r.copy = .transmitting := by
  unfold Record.advance
  cases hc : r.copy with
  | idle =>
    dsimp only
    split_ifs <;> simp
  | _ => simp [hc]

theorem scheduleDue_once_iff {schedule : Schedule} {now : Instant} :
    (scheduleDue schedule now).2 = .once ↔ schedule = .once := by
  cases schedule <;> simp [scheduleDue] <;> split_ifs <;> simp

theorem scheduleDue_over {schedule : Schedule} {now : Instant}
    (h : (scheduleDue schedule now).1 = some .over) : schedule.copies = 0 := by
  cases schedule with
  | once => simp [scheduleDue] at h
  | passiveAck key copies next =>
    simp only [scheduleDue] at h
    split_ifs at h with hnext hcopies <;> simp_all [Schedule.copies]
  | fixedInterval interval copies next =>
    simp only [scheduleDue] at h
    split_ifs at h with hnext hcopies <;> simp_all [Schedule.copies]

theorem handedOffVerdict_ok [FromSendFailure E] {schedule : Schedule}
    (h : schedule ≠ .once) : ∃ result, handedOffVerdict (E := E) schedule = .ok result := by
  cases schedule with
  | once => exact absurd rfl h
  | passiveAck | fixedInterval => exact ⟨_, rfl⟩

/-- The timer pass of a sound record does not panic. -/
theorem Record.verdict_total [FromSendFailure E] {tokens : List (InFlight F)}
    (h : BroadcastOk r tokens) (now : Instant) :
    ∃ o, (r.advance now).1.verdict now (r.advance now).2 = .ok o := by
  -- a handed-off record has a schedule of several copies
  have hschedule : r.handedOff = true → (r.advance now).1.schedule ≠ .once := by
    intro hoff honce
    have hsame : r.schedule = .once := by
      unfold Record.advance at honce
      cases hc : r.copy with
      | idle =>
        simp only [hc] at honce
        exact scheduleDue_once_iff.mp honce
      | _ => simpa [hc] using honce
    simp [(h.once hsame).1] at hoff
  have hlapse : ∃ o, (r.advance now).1.lapse now = .ok o := by
    unfold Record.lapse
    split_ifs with hdeadline hoff
    · obtain ⟨result, hresult⟩ := handedOffVerdict_ok (E := E) (hschedule (by simpa using hoff))
      exact ⟨some result, by rw [hresult]; rfl⟩
    · exact ⟨_, rfl⟩
    · exact ⟨_, rfl⟩
  unfold Record.verdict
  split_ifs with hcopy hover hoff
  · exact ⟨none, rfl⟩
  · obtain ⟨result, hresult⟩ := handedOffVerdict_ok (E := E) (hschedule (by simpa using hoff))
    exact ⟨some result, by rw [hresult]; rfl⟩
  · -- an idle record without copies has had a failed report
    have hidle : r.copy = .idle ∧ r.schedule.copies = 0 := by
      unfold Record.advance at hover
      cases hc : r.copy with
      | idle =>
        simp only [hc] at hover
        exact ⟨rfl, scheduleDue_over hover⟩
      | _ => simp [hc] at hover
    have herr := h.spent hidle.1 (by simpa using hoff) hidle.2
    obtain ⟨err, herr⟩ := Option.isSome_iff_exists.mp herr
    exact ⟨some (.error err), by simp [herr]⟩
  · exact hlapse

/-- The timer settles a handed-off record by its schedule, and any other with an
error. -/
theorem Record.result_of_verdict [FromSendFailure E] {now : Instant} {due : Option Due}
    {result : Except E Unit} (h : r.verdict now due = .ok (some result)) :
    r.handedOff = true ∧ handedOffVerdict r.schedule = .ok result ∨
      r.handedOff = false ∧ ∃ err, result = .error err := by
  have hmap : ∀ {x : Checked (Except E Unit)}, some <$> x = .ok (some result) → x = .ok result := by
    intro x hx
    cases x <;> cases hx
    rfl
  unfold Record.verdict at h
  split_ifs at h with hcopy hover hoff
  · cases h
  · exact Or.inl ⟨hoff, hmap h⟩
  · obtain ⟨err, -, h⟩ := Checked.bind_eq_ok.mp h
    cases h
    exact Or.inr ⟨by simpa using hoff, err, rfl⟩
  · unfold Record.lapse at h
    split_ifs at h with hdeadline hoff
    · exact Or.inl ⟨hoff, hmap h⟩
    · cases h
      exact Or.inr ⟨by simpa using hoff, _, rfl⟩
    · cases h

/-- The verdict of a record at the timer pass, with no verdict for a panic. -/
def Record.due [FromSendFailure E] (now : Instant) (r : Record F W E) :
    Option (Except E Unit) :=
  match (r.advance now).1.verdict now (r.advance now).2 with
  | .ok o => o
  | .error _ => none

theorem Record.verdict_eq_due [FromSendFailure E] {tokens : List (InFlight F)}
    (h : BroadcastOk r tokens) (now : Instant) :
    (r.advance now).1.verdict now (r.advance now).2 = .ok (r.due now) := by
  obtain ⟨o, ho⟩ := Record.verdict_total h now
  rw [Record.due, ho]

/-- The verdicts that the walk collects are those of the sound records. -/
theorem tickVerdicts_ok [FromSendFailure E] (now : Instant)
    (entries : List (SendId × Record F W E))
    (h : ∀ e ∈ entries, ∃ tokens, BroadcastOk e.2 tokens) :
    tickVerdicts now entries =
      .ok (entries.filterMap fun e => (e.2.due now).map fun result => (e.1, result)) := by
  induction entries with
  | nil => rfl
  | cons e entries ih =>
    obtain ⟨id, r⟩ := e
    obtain ⟨tokens, hr⟩ := h (id, r) (by simp)
    unfold tickVerdicts
    simp only [Record.verdict_eq_due hr now, ih (fun e he => h e (by simp [he])),
      Checked.ok_bind]
    cases hdue : r.due now <;> simp [hdue]

/-- What `settle` emits for a record that holds its frame. -/
def Record.emit (result : Except E Unit) (r : Record F W E) : Actions F W E :=
  match r.frame with
  | some frame => r.settlement result frame
  | none => []

theorem Record.emit_of_frame {frame : F} (hframe : r.frame = some frame)
    (result : Except E Unit) : r.emit result = r.settlement result frame := by
  simp [Record.emit, hframe]

theorem settle_drains (t : Broadcasts F W E) (v : SendId × Except E Unit)
    (actions : Actions F W E) (r : Record F W E) (hget : t.records.get v.1 = some r)
    (hframe : r.frame.isSome = true) :
    ∃ t', t.settle v.1 v.2 actions = .ok (t', actions ++ r.emit v.2) ∧
      ∀ k, t'.records.get k = if k = v.1 then none else t.records.get k := by
  obtain ⟨frame, hframe⟩ := Option.isSome_iff_exists.mp hframe
  refine ⟨⟨t.records.remove v.1⟩, ?_, by simp⟩
  rw [settle_ok hget hframe, Record.emit_of_frame hframe]

/-- A record with a verdict is not in the radio. -/
theorem Record.copy_of_due [FromSendFailure E] {now : Instant} {result : Except E Unit}
    (h : r.due now = some result) : r.copy ≠ .transmitting := by
  intro hcopy
  simp [Record.due, Record.advance_transmitting hcopy, Record.verdict, hcopy] at h

/-- The timer pass advances or settles each record by itself. -/
theorem tick_ok [FromSendFailure E] (hsound : t.Sound) (now : Instant) :
    ∃ (t' : Broadcasts F W E) (log : List (SendId × Action F W E)),
      t.tick now = .ok (t', log.map Prod.snd) ∧
      ∀ id,
        (t.records.get id = none → t'.records.get id = none ∧ project id log = []) ∧
        ∀ r, t.records.get id = some r →
          (r.due now = none →
            t'.records.get id = some (r.advance now).1 ∧ project id log = []) ∧
          ∀ result, r.due now = some result →
            t'.records.get id = none ∧ project id log = (r.advance now).1.emit result := by
  let t₁ : Broadcasts F W E := ⟨t.records.mapVal (fun _ record => (record.advance now).1)⟩
  have hget₁ : ∀ id, t₁.records.get id = (t.records.get id).map (·.advance now |>.1) := by
    simp [t₁]
  have htick : t.tick now = t₁.settleAll (t.records.answers (Record.due now)) := by
    unfold tick
    rw [tickVerdicts_ok now t.records.entries
      (fun e he => hsound e.1 e.2 (FlatMap.mem_entries.mp he)), Checked.ok_bind]
    rfl
  obtain ⟨t', log, hfold, hlog⟩ :=
    foldlM_drain_answers (fun t id => t.records.get id)
      (fun t v actions => t.settle v.1 v.2 actions) (fun result r => r.emit result)
      (fun r => r.frame.isSome = true) settle_drains (t.records.answers (Record.due now))
      (t.records.nodup_answers _) (fun id => (t.records.get id).bind (Record.due now))
      (fun id result => FlatMap.mem_answers) t₁
      (fun id result h => by
        obtain ⟨r, hr, hx⟩ := Option.bind_eq_some_iff.mp h
        obtain ⟨frame, hframe⟩ := hsound.held hr (Record.copy_of_due hx)
        exact ⟨(r.advance now).1, by simp [hget₁, hr], by simp [hframe]⟩)
  refine ⟨t', log, by rw [htick]; exact hfold, fun id => ⟨fun hnone => ?_, fun r hr => ?_⟩⟩
  · simpa [hget₁, hnone] using (hlog id).1 (by simp [hnone])
  · refine ⟨fun hx => ?_, fun result hx => ?_⟩
    · simpa [hget₁, hr] using (hlog id).1 (by simp [hr, hx])
    · exact (hlog id).2 result (r.advance now).1 (by simp [hr, hx]) (by simp [hget₁, hr])

end Ziggurat.Broadcasts
