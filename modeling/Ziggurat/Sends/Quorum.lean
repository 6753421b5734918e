import Ziggurat.Sends.Admission
import Ziggurat.Sends.Verdicts

/-!
# The verdict of a broadcast

Four fields of a broadcast record decide its verdict: whether a copy was handed
off, whether the quorum was heard, the last error, and what is left of the
schedule.  They change independently, and four places read them: the report of a
copy, the report of a quorum, the timer and a cancel.

`Broadcasts.Record.Past` says what the first two stand for in the events of the
run.  `handedOff` is that some copy was reported Ok, and `quorumHeard` is that a
quorum for the key of the record was matched to it.  `BroadcastVerdict` is the
verdict as a function of these two facts about the past.
-/

namespace Ziggurat

variable {F W E : Type}

/-- Some event reports a successful transmit of `id`. -/
def reportedOkIn (id : SendId) (es : List (Event F W E)) : Prop :=
  ∃ e ∈ es, e.reportsOk id = true

/-- The event reports the quorum for `key`, and it is matched to the live send `id`. -/
def Event.QuorumFor (id : SendId) (key : Nwk × UInt8) (e : Event F W E) : Prop :=
  e.op = .broadcastDelivered key ∧ e.quorumId = some id ∧ (e.before.life id).live = true

/-- The quorum for `key` was heard for `id`. -/
def quorumIn (id : SendId) (key : Nwk × UInt8) (es : List (Event F W E)) : Prop :=
  ∃ e ∈ es, e.QuorumFor id key

/-- The key that a schedule awaits a quorum for. -/
def Schedule.key : Schedule → Option (Nwk × UInt8)
  | .passiveAck key _ _ => some key
  | .once | .fixedInterval .. => none

/-- A schedule without the count and the instant that its copies use up. -/
def Schedule.fixedPart : Schedule → Schedule
  | .once => .once
  | .passiveAck key _ _ => .passiveAck key 0 0
  | .fixedInterval interval _ _ => .fixedInterval interval 0 0

theorem Schedule.key_fixedPart (s : Schedule) : s.fixedPart.key = s.key := by
  cases s <;> rfl

namespace Broadcasts

theorem fixedPart_rearm (schedule : Schedule) (now : Instant) (interval : Duration) :
    (rearm schedule now interval).fixedPart = schedule.fixedPart := by
  cases schedule <;> rfl

theorem fixedPart_scheduleDue (schedule : Schedule) (now : Instant) :
    (scheduleDue schedule now).2.fixedPart = schedule.fixedPart := by
  cases schedule <;> simp only [scheduleDue] <;> split_ifs <;> rfl

theorem fixedPart_advance (r : Record F W E) (now : Instant) :
    (r.advance now).1.schedule.fixedPart = r.schedule.fixedPart := by
  unfold Record.advance
  cases r.copy with
  | idle => exact fixedPart_scheduleDue r.schedule now
  | _ => rfl

@[simp] theorem Record.quorumHeard_advance (r : Record F W E) (now : Instant) :
    (r.advance now).1.quorumHeard = r.quorumHeard := by
  unfold Record.advance
  split <;> rfl

/-! ## The past of a record -/

/-- What the fields of a live record say about the run so far. -/
structure Record.Past (id : SendId) (es : List (Event F W E)) (r : Record F W E) : Prop where
  admitted : ∃ e ∈ es, ∃ broadcast now tunables, e.out.admitted = some id ∧
    e.op = .enqueueBroadcast broadcast now tunables ∧
    r.schedule.fixedPart = broadcast.schedule.fixedPart
  handed : r.handedOff = true ↔ reportedOkIn id es
  quorum : ∀ key, r.schedule.key = some key → (r.quorumHeard = true ↔ quorumIn id key es)

theorem reportedOkIn_append {id : SendId} {es : List (Event F W E)} {e : Event F W E} :
    reportedOkIn id (es ++ [e]) ↔ reportedOkIn id es ∨ e.reportsOk id = true := by
  simp [reportedOkIn, or_and_right, exists_or]

theorem quorumIn_append {id : SendId} {key : Nwk × UInt8} {es : List (Event F W E)}
    {e : Event F W E} : quorumIn id key (es ++ [e]) ↔ quorumIn id key es ∨ e.QuorumFor id key := by
  simp [quorumIn, or_and_right, exists_or]

/-- One event later. -/
theorem Record.Past.extend {id : SendId} {es : List (Event F W E)} {e : Event F W E}
    {r r' : Record F W E} (h : r.Past id es)
    (hschedule : r'.schedule.fixedPart = r.schedule.fixedPart)
    (hhanded : r'.handedOff = true ↔ r.handedOff = true ∨ e.reportsOk id = true)
    (hquorum : ∀ key, r.schedule.key = some key →
      (r'.quorumHeard = true ↔ r.quorumHeard = true ∨ e.QuorumFor id key)) :
    r'.Past id (es ++ [e]) := by
  have hkey : r'.schedule.key = r.schedule.key := by
    rw [← Schedule.key_fixedPart, hschedule, Schedule.key_fixedPart]
  constructor
  · obtain ⟨e₀, he₀, broadcast, now, tunables, hadmitted, hop, hfixed⟩ := h.admitted
    exact ⟨e₀, by simp [he₀], broadcast, now, tunables, hadmitted, hop, hschedule.trans hfixed⟩
  · rw [reportedOkIn_append, hhanded, h.handed]
  · intro key hr'
    rw [hkey] at hr'
    rw [quorumIn_append, hquorum key hr', h.quorum key hr']

end Broadcasts

theorem Event.reportedId_of_reportsOk {e : Event F W E} {id : SendId}
    (h : e.reportsOk id = true) : e.reportedId = some id := by
  unfold Event.reportsOk at h
  unfold Event.reportedId
  split at h
  · rename_i hop
    simpa [hop] using h
  · simp at h

/-- An event that does not name the send adds nothing to its past. -/
theorem Event.Untouched.adds_nothing {e : Event F W E} {id : SendId}
    (hreported : e.reportedId ≠ some id) (hquorum : e.quorumId ≠ some id) :
    e.reportsOk id = false ∧ ∀ key, ¬ e.QuorumFor id key := by
  refine ⟨?_, fun key h => hquorum h.2.1⟩
  by_contra h
  exact hreported (Event.reportedId_of_reportsOk (by simpa using h))

/-- A step of a broadcast keeps its fields true to the past. -/
theorem Life.Step.broadcastPast [FromSendFailure E] {id : SendId} {e : Event F W E}
    {l l' : Life F W E} {actions : Actions F W E} (h : Life.Step id e l actions l')
    (hreturned : step e.before e.op = .ok (e.after, e.out)) (hbefore : e.before.life id = l)
    {es : List (Event F W E)}
    (hunborn : e.out.admitted = some id → ∀ e' ∈ es, e'.Untouched id)
    (hpast : ∀ r, l.broadcast = some r → r.Past id es) {r' : Broadcasts.Record F W E}
    (hl' : l'.broadcast = some r') : r'.Past id (es ++ [e]) := by
  have hkept : ∀ {r : Broadcasts.Record F W E}, r.Past id es →
      r'.schedule.fixedPart = r.schedule.fixedPart → r'.handedOff = r.handedOff →
      r'.quorumHeard = r.quorumHeard → e.reportedId ≠ some id → e.quorumId ≠ some id →
      r'.Past id (es ++ [e]) := by
    intro r hr hschedule hhanded hquorum hreported hq
    obtain ⟨hno, hnot⟩ := Event.Untouched.adds_nothing hreported hq
    exact hr.extend hschedule (by simp [hhanded, hno]) (by simp [hquorum, hnot])
  cases h with
  | idle quiet => exact hkept (hpast r' hl') rfl rfl rfl quiet.reported quiet.quorum
  | tickIdle op =>
    have huntouched := Event.untouched_of_sweeps id hreturned (by rw [op]; rfl)
    exact hkept (hpast r' hl') rfl rfl rfl huntouched.reported huntouched.quorum
  | admitBroadcast admitted op =>
    cases hl'
    have hnothing := fun e' he' => Event.Untouched.adds_nothing
      (hunborn admitted e' he').reported (hunborn admitted e' he').quorum
    have hnotReported : ¬ reportedOkIn id es := by
      rintro ⟨e', he', hok⟩
      simp [(hnothing e' he').1] at hok
    refine ⟨⟨e, by simp, _, _, _, admitted, op, rfl⟩, ?_, fun key _ => ?_⟩
    · simp [Broadcasts.reportedOkIn_append, hnotReported, Broadcasts.newRecord,
        Event.reportsOk, op]
    · have hnotQuorum : ¬ quorumIn id key es := by
        rintro ⟨e', he', hq⟩
        exact (hnothing e' he').2 key hq
      simp [Broadcasts.quorumIn_append, hnotQuorum, Broadcasts.newRecord, Event.QuorumFor, op]
  | lendBroadcast op =>
    cases hl'
    exact hkept (hpast _ rfl) rfl rfl rfl (by simp [Event.reportedId, op])
      (by simp [Event.quorumId, op])
  | @reportBroadcast r token inFlight result now _ interval op tokenId =>
    obtain ⟨-, rfl, -⟩ := Life.report_eq_some hl'
    refine (hpast r rfl).extend (Broadcasts.fixedPart_rearm ..) ?_ ?_
    · cases result <;>
        simp [Broadcasts.Record.reported, Event.reportsOk, op, tokenId, Except.isOk, Except.toBool]
    · simp [Broadcasts.Record.reported, Event.QuorumFor, op]
  | @quorumNoted r key _ op quorum awaits =>
    cases hl'
    refine (hpast r rfl).extend rfl (by simp [Event.reportsOk, op]) ?_
    intro key' hkey'
    have hkey : key' = key := by
      unfold Broadcasts.Record.awaits at awaits
      cases hs : r.schedule <;> simp_all [Schedule.key]
    simp [Event.QuorumFor, op, quorum, hbefore, hkey, Life.live]
  | tickBroadcast op =>
    cases hl'
    have huntouched := Event.untouched_of_sweeps id hreturned (by rw [op]; rfl)
    exact hkept (hpast _ rfl) (Broadcasts.fixedPart_advance ..) (by simp) (by simp)
      huntouched.reported huntouched.quorum
  | _ => simp [absent] at hl'

/-- Along every run, the fields of a live broadcast are true to the past. -/
theorem Life.Run.broadcastPast [FromSendFailure E] {id : SendId} {es : List (Event F W E)}
    {batches : List (Actions F W E)} {l : Life F W E} (h : Life.Run id es batches l)
    {r : Broadcasts.Record F W E} (hl : l.broadcast = some r) : r.Past id es := by
  induction h generalizing r with
  | start => simp [Life.absent] at hl
  | step hrun hbefore _ hreturned honce hstep ih =>
    exact hstep.broadcastPast hreturned hbefore
      (fun hadmitted => (hrun.unborn (honce hadmitted)).2) (fun r hr => ih hr) hl

/-! ## The verdict -/

/-- The verdict of a broadcast, given the key it awaits a quorum for, if any, and the
events up to the verdict. -/
structure BroadcastVerdict [FromSendFailure E] (id : SendId) (awaited : Option (Nwk × UInt8))
    (past : List (Event F W E)) (cancelled : Prop) (result : Except E Unit) : Prop where
  /-- Success needs a copy that was sent. -/
  sent : result = .ok () → reportedOkIn id past
  /-- Success needs the quorum, where there is one. -/
  heard : result = .ok () → ∀ key, awaited = some key → quorumIn id key past
  /-- A copy that was sent and a quorum are enough, in any order. -/
  reached : reportedOkIn id past → ∀ key, awaited = some key → quorumIn id key past →
    result = .ok ()
  missed : reportedOkIn id past → ¬ cancelled → ∀ key, awaited = some key →
    ¬ quorumIn id key past → result = .error (ofFailure .broadcastQuorumNotReached)
  repeated : reportedOkIn id past → ¬ cancelled → awaited = none → result = .ok ()

theorem Broadcasts.Record.result_of_mem {r : Broadcasts.Record F W E}
    {result result' : Except E Unit} {frame frame' : F} {waiter : W} {failedHop : Option Nwk}
    (h : .settled waiter result' frame' failedHop ∈ r.settlement result frame) :
    result' = result := by
  rcases r.settlement_cases result frame with ⟨heq, -⟩ | heq <;> simp [heq] at h <;> exact h.2.1

section Verdict

variable [FromSendFailure E] {id : SendId} {es : List (Event F W E)} {e : Event F W E}
  {r : Broadcasts.Record F W E} {result : Except E Unit}

/-- The verdict in terms of the record and the event that settles it. -/
theorem BroadcastVerdict.of_record {cancelled : Prop} (hpast : r.Past id es)
    (sent : result = .ok () → r.handedOff = true ∨ e.reportsOk id = true)
    (heard : result = .ok () → ∀ key, r.schedule.key = some key →
      r.quorumHeard = true ∨ e.QuorumFor id key)
    (reached : (r.handedOff = true ∨ e.reportsOk id = true) → ∀ key,
      r.schedule.key = some key → (r.quorumHeard = true ∨ e.QuorumFor id key) →
      result = .ok ())
    (missed : (r.handedOff = true ∨ e.reportsOk id = true) → ¬ cancelled → ∀ key,
      r.schedule.key = some key → ¬ (r.quorumHeard = true ∨ e.QuorumFor id key) →
      result = .error (ofFailure .broadcastQuorumNotReached))
    (repeated : (r.handedOff = true ∨ e.reportsOk id = true) → ¬ cancelled →
      r.schedule.key = none → result = .ok ()) :
    BroadcastVerdict id r.schedule.key (es ++ [e]) cancelled result := by
  have hsent : reportedOkIn id (es ++ [e]) ↔ r.handedOff = true ∨ e.reportsOk id = true := by
    rw [Broadcasts.reportedOkIn_append, hpast.handed]
  have hheard : ∀ key, r.schedule.key = some key →
      (quorumIn id key (es ++ [e]) ↔ r.quorumHeard = true ∨ e.QuorumFor id key) := by
    intro key hkey
    rw [Broadcasts.quorumIn_append, hpast.quorum key hkey]
  constructor
  · exact fun h => hsent.mpr (sent h)
  · exact fun h key hkey => (hheard key hkey).mpr (heard h key hkey)
  · exact fun h key hkey hq => reached (hsent.mp h) key hkey ((hheard key hkey).mp hq)
  · exact fun h hc key hkey hq =>
      missed (hsent.mp h) hc key hkey (fun hr => hq ((hheard key hkey).mpr hr))
  · exact fun h hc hkey => repeated (hsent.mp h) hc hkey

/-- The report of the last copy, or of one that the quorum waited for. -/
private theorem verdict_report {token : InFlight F} {result' : Except E Unit} {now : Instant}
    {retryDelay interval : Duration} {frame : F} {failedHop : Option Nwk} {waiter : W}
    {tokens : List (InFlight F)} (hpast : r.Past id es) (hok : Life.BroadcastOk r tokens)
    (op : e.op = .transmitted token result' now retryDelay interval) (tokenId : token.id = id)
    (hsettled : .settled waiter result frame failedHop ∈
      (r.report token.frame result' now interval).2) :
    BroadcastVerdict id r.schedule.key (es ++ [e]) (e.op = .cancel id) result := by
  have hreports : e.reportsOk id = true ↔ result' = .ok () := by
    cases result' <;> simp [Event.reportsOk, op, tokenId]
  have hquorum : ∀ key, ¬ e.QuorumFor id key := by simp [Event.QuorumFor, op]
  unfold Broadcasts.Record.report at hsettled
  split at hsettled
  · rename_i honce
    obtain rfl := Broadcasts.Record.result_of_mem hsettled
    have hoff := (hok.once honce).1
    have hkey : r.schedule.key = none := by simp [honce, Schedule.key]
    apply BroadcastVerdict.of_record hpast
    · exact fun h => Or.inr (hreports.mpr h)
    · simp [hkey]
    · simp [hkey]
    · simp [hkey]
    · intro hsent _ _
      exact hreports.mp (hsent.resolve_left (by simp [hoff]))
  · dsimp only at hsettled
    split at hsettled
    · rename_i hboth
      simp only [Broadcasts.Record.reported, Bool.and_eq_true, Bool.or_eq_true] at hboth
      obtain rfl := Broadcasts.Record.result_of_mem hsettled
      have hresult : result'.isOk = true → result' = .ok () := by
        cases result' <;> simp [Except.isOk, Except.toBool]
      apply BroadcastVerdict.of_record hpast
      · exact fun _ => hboth.2.imp_right (fun h => hreports.mpr (hresult h))
      · exact fun _ _ _ => Or.inl hboth.1
      · exact fun _ _ _ _ => rfl
      · exact fun _ _ _ _ hnot => absurd (Or.inl hboth.1) hnot
      · exact fun _ _ _ => rfl
    · split at hsettled <;> simp at hsettled

/-- A handed-off broadcast fails for want of a quorum exactly if it awaits one. -/
theorem Broadcasts.handedOffVerdict_key {schedule : Schedule}
    (h : Broadcasts.handedOffVerdict schedule = .ok result) :
    (∀ key, schedule.key = some key → result = .error (ofFailure .broadcastQuorumNotReached)) ∧
      (schedule.key = none → result = .ok ()) := by
  cases schedule with
  | once => simp [Broadcasts.handedOffVerdict] at h
  | passiveAck | fixedInterval =>
    cases h
    simp [Schedule.key]

/-- The timer settles a broadcast by what its record says. -/
private theorem verdict_tick {now : Instant} {tokens : List (InFlight F)}
    (hpast : r.Past id es) (hok : Life.BroadcastOk r tokens) (op : e.op = .tick now)
    (verdict : (r.advance now).1.verdict now (r.advance now).2 = .ok (some result)) :
    BroadcastVerdict id r.schedule.key (es ++ [e]) (e.op = .cancel id) result := by
  have hreports : e.reportsOk id = false := by simp [Event.reportsOk, op]
  have hquorum : ∀ key, ¬ e.QuorumFor id key := by simp [Event.QuorumFor, op]
  -- a record with both facts is in the radio, where the timer leaves it alone
  have hnotBoth : r.handedOff = true → r.quorumHeard = false := by
    intro hoff
    by_contra hq
    have hcopy := hok.quorum (by simpa using hq) hoff
    rw [Broadcasts.Record.verdict,
      if_pos (Broadcasts.Record.copy_advance_transmitting.mpr hcopy)] at verdict
    simp at verdict
  have hkey : (r.advance now).1.schedule.key = r.schedule.key := by
    rw [← Schedule.key_fixedPart, Broadcasts.fixedPart_advance, Schedule.key_fixedPart]
  rcases Broadcasts.Record.result_of_verdict verdict with ⟨hoff, hverdict⟩ | ⟨hoff, err, rfl⟩
  · simp only [Broadcasts.Record.handedOff_advance] at hoff
    obtain ⟨hmissed, hrepeated⟩ := Broadcasts.handedOffVerdict_key hverdict
    rw [hkey] at hmissed hrepeated
    apply BroadcastVerdict.of_record hpast
    · exact fun _ => Or.inl hoff
    · exact fun hr key hkey => by simp [hmissed key hkey] at hr
    · exact fun _ key hkey hq => by simp [hnotBoth hoff, hquorum] at hq
    · exact fun _ _ key hkey _ => hmissed key hkey
    · exact fun _ _ hkey => hrepeated hkey
  · simp only [Broadcasts.Record.handedOff_advance] at hoff
    apply BroadcastVerdict.of_record hpast <;> simp [hoff, hreports]

/-- What the waiter of a broadcast is told, whoever settles it. -/
theorem Life.Step.broadcastVerdict {l l' : Life F W E} {actions : Actions F W E}
    (h : Life.Step id e l actions l') (hl : l.Ok) (hbefore : e.before.life id = l)
    (hr : l.broadcast = some r) (hpast : r.Past id es) {waiter : W} {frame : F}
    {failedHop : Option Nwk} (hsettled : .settled waiter result frame failedHop ∈ actions) :
    BroadcastVerdict id r.schedule.key (es ++ [e]) (e.op = .cancel id) result := by
  have hok := hl.broadcast r hr
  cases h with
  | reportBroadcast op tokenId =>
    cases hr
    exact verdict_report hpast hok op tokenId hsettled
  | @quorumSettle _ key _ op quorum awaits _ handedOff =>
    cases hr
    obtain rfl := Broadcasts.Record.result_of_mem hsettled
    have hkey : ∀ key', r.schedule.key = some key' → e.QuorumFor id key' := by
      intro key' hkey'
      have : key' = key := by
        unfold Broadcasts.Record.awaits at awaits
        cases hs : r.schedule <;> simp_all [Schedule.key]
      simp [Event.QuorumFor, op, quorum, hbefore, this, Life.live]
    apply BroadcastVerdict.of_record hpast
    · exact fun _ => Or.inl handedOff
    · exact fun _ key' hkey' => Or.inr (hkey key' hkey')
    · exact fun _ _ _ _ => rfl
    · exact fun _ _ key' hkey' hnot => absurd (Or.inr (hkey key' hkey')) hnot
    · exact fun _ _ _ => rfl
  | cancelBroadcast op copy =>
    cases hr
    obtain rfl := Broadcasts.Record.result_of_mem hsettled
    have hnotBoth : r.handedOff = true → r.quorumHeard = false := by
      intro hoff
      by_contra hq
      exact copy (hok.quorum (by simpa using hq) hoff)
    apply BroadcastVerdict.of_record hpast <;> simp [op, Event.reportsOk, Event.QuorumFor]
    intro hoff
    simp [hnotBoth hoff]
  | lapseBroadcast op verdict =>
    cases hr
    obtain rfl := Broadcasts.Record.result_of_mem hsettled
    exact verdict_tick hpast hok op verdict
  | idle | tickIdle | abandoned | lendBroadcast | quorumNoted | tickBroadcast => simp at hsettled
  | _ => simp [absent] at hr

theorem Life.Step.live_of_mem {l l' : Life F W E} {actions : Actions F W E}
    (h : Life.Step id e l actions l') {action : Action F W E} (hmem : action ∈ actions) :
    l.live = true := by
  cases h <;> first | rfl | simp at hmem

end Verdict

/-- In every run, the verdict of a broadcast is decided by what was heard of it: that
a copy was sent, and its quorum. -/
theorem broadcast_verdict_sound [FromSendFailure E] {w : World F W E}
    {es : List (Event F W E)} (hrun : Run w es) {id : SendId} {waiter : W}
    (hown : Owns es id waiter) {admission : Event F W E} (hmem : admission ∈ es)
    (hadmitted : admission.out.admitted = some id) {broadcast : Broadcast F W} {now : Instant}
    {tunables : Tunables} (hop : admission.op = .enqueueBroadcast broadcast now tunables)
    {pre post : List (Event F W E)} {e : Event F W E} (hsplit : es = pre ++ e :: post)
    {result : Except E Unit} {frame : F} {failedHop : Option Nwk}
    (hsettled : .settled waiter result frame failedHop ∈ e.out.actions) :
    BroadcastVerdict id broadcast.schedule.key (pre ++ [e]) (e.op = .cancel id) result := by
  obtain ⟨batches, actions, hlife, hstep, hactions⟩ := hown.event hrun hsplit
  obtain ⟨_, hwhole⟩ := hrun.life id
  have honly : ∀ e₀ ∈ pre, e₀.out.admitted = some id → e₀ = admission := fun e₀ he₀ h₀ =>
    hwhole.admitted_unique (by simp [hsplit, he₀]) hmem h₀ hadmitted
  have hverdict := (hactions _).mpr ⟨hsettled, rfl⟩
  -- the record is a broadcast because the admission was one
  obtain ⟨e₀, he₀, h₀, hkind⟩ := hlife.kind (hstep.live_of_mem hverdict)
  rw [honly e₀ he₀ h₀, hop] at hkind
  obtain ⟨r, hr⟩ := Option.isSome_iff_exists.mp hkind.symm
  have hpast := hlife.broadcastPast hr
  obtain ⟨e₁, he₁, broadcast₁, now₁, tunables₁, h₁, hop₁, hfixed⟩ := hpast.admitted
  rw [honly e₁ he₁ h₁, hop] at hop₁
  cases hop₁
  rw [← Schedule.key_fixedPart, ← hfixed, Schedule.key_fixedPart]
  exact hstep.broadcastVerdict hlife.ok rfl hr hpast hverdict

/-- A broadcast whose quorum is heard while its first copy is in the radio. -/
def quorumCalls : List (Op Nat Nat SendFailure) :=
  let broadcast : Broadcast Nat Nat :=
    { frame := 7, priority := .userNormal, waiter := 100,
      schedule := .passiveAck (3, 9) 2 0 }
  [.enqueueBroadcast broadcast 0 {}, .tick 1, .dequeue 1, .broadcastDelivered (3, 9),
    .transmitted ⟨0, 7, .broadcast⟩ (.ok ()) 2 10 10]

theorem quorumCalls_return : (replay World.empty quorumCalls).isSome = true := by
  decide +kernel

theorem broadcast_verdict_sound_quorum :
    ∃ (w : World Nat Nat SendFailure) (es pre post : List (Event Nat Nat SendFailure))
      (e : Event Nat Nat SendFailure), Run w es ∧ es = pre ++ e :: post ∧
        .settled 100 (.ok ()) 7 none ∈ e.out.actions ∧ reportedOkIn 0 (pre ++ [e]) ∧
        quorumIn 0 (3, 9) (pre ++ [e]) := by
  have hrun := run_outcome quorumCalls quorumCalls_return
  have hown : Owns (outcome quorumCalls quorumCalls_return).2 0 100 :=
    ⟨by decide +kernel, by decide +kernel⟩
  have hsettled : ∃ e ∈ (outcome quorumCalls quorumCalls_return).2,
      .settled 100 (.ok ()) 7 none ∈ e.out.actions := by
    decide +kernel
  obtain ⟨e, he, hsettled⟩ := hsettled
  obtain ⟨pre, post, hsplit⟩ := List.append_of_mem he
  obtain ⟨admission, hmem, hadmitted, hop⟩ :
      ∃ admission ∈ (outcome quorumCalls quorumCalls_return).2,
        admission.out.admitted = some 0 ∧ admission.op = .enqueueBroadcast
          { frame := 7, priority := .userNormal, waiter := 100,
            schedule := .passiveAck (3, 9) 2 0 } 0 {} :=
    ⟨(outcome quorumCalls quorumCalls_return).2.get ⟨0, by decide +kernel⟩,
      List.get_mem _ _, rfl, rfl⟩
  have hverdict := broadcast_verdict_sound hrun hown hmem hadmitted hop hsplit hsettled
  exact ⟨_, _, pre, post, e, hrun, hsplit, hsettled, hverdict.sent rfl,
    hverdict.heard rfl (3, 9) rfl⟩

end Ziggurat
