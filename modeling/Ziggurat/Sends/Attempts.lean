import Ziggurat.Sends.Admission

/-!
# How often a frame is lent

A unicast that is sent directly counts its retries down in `transmitted`, a
broadcast its copies in `tick`, and a frame held for a sleepy device counts
nothing: each poll of the device is worth one transmission.

The bounds are accounts.  A record has a `budget`, the loans it can still ask for,
and every step pays for the loan it makes: the loans so far and the budget never
exceed what the record entered its table with.  For held frames the account is
kept with the polls, one id at a time, and then summed over the ids.
-/

namespace Ziggurat

variable {F W E : Type}

/-- The loans of the frame of `id`. -/
def loans (id : SendId) (es : List (Event F W E)) : Nat :=
  es.countP (fun e => e.lentId = some id)

theorem loans_append (id : SendId) (es : List (Event F W E)) (e : Event F W E) :
    loans id (es ++ [e]) = loans id es + if e.lentId = some id then 1 else 0 := by
  simp [loans, List.countP_append, List.countP_singleton]

theorem loans_eq_zero {id : SendId} {es : List (Event F W E)}
    (h : ∀ e ∈ es, e.Untouched id) : loans id es = 0 := by
  rw [loans, List.countP_eq_zero]
  intro e he
  simpa using (h e he).lent

/-- The event puts `id` into the table of unicasts, as the record `r`. -/
def Event.Enters (id : SendId) (e : Event F W E) (r : Unicasts.Record F W) : Prop :=
  (e.before.life id).unicast = none ∧ (e.after.life id).unicast = some r

/-- The tunables that an operation reads. -/
def Op.tunables : Op F W E → Option Tunables
  | .enqueueUnicast _ _ tunables | .enqueueBroadcastCopy _ _ _ tunables
  | .enqueueUnroutedUnicast _ _ tunables | .enqueueBroadcast _ _ tunables
  | .routeUnicasts _ _ tunables _ => some tunables
  | _ => none

/-! ## Entering the table of unicasts -/

section Entry

variable [FromSendFailure E] {id : SendId} {es : List (Event F W E)}
  {batches : List (Actions F W E)} {l l' : Life F W E} {e : Event F W E}
  {actions : Actions F W E}

/-- A send enters the table on its admission, or from the unrouted ones. -/
theorem Life.Step.admitted_or_unrouted (h : Life.Step id e l actions l')
    (hl : l.unicast = none) (hl' : l'.unicast.isSome = true) :
    e.out.admitted = some id ∨ l.unrouted.isSome = true := by
  cases h with
  | idle | tickIdle => simp [hl] at hl'
  | admitUnicast admitted => exact Or.inl admitted
  | routed => exact Or.inr rfl
  | lendUnicast | reportUnicast | pollUnicast | ackTransmitting | tickUnicast => simp at hl
  | _ => simp [absent] at hl'

/-- An unrouted send was admitted so, or it was unrouted before. -/
theorem Life.Step.unrouted (h : Life.Step id e l actions l')
    (hreturned : step e.before e.op = .ok (e.after, e.out))
    (hl' : l'.unrouted.isSome = true) :
    e.lentId ≠ some id ∧ (e.out.admitted = some id ∨ l.unrouted.isSome = true) ∧
      (l'.unicast = none ∨ l' = l) := by
  cases h with
  | idle quiet => exact ⟨quiet.lent, Or.inr hl', Or.inr rfl⟩
  | tickIdle op | tickUnrouted op =>
    exact ⟨Event.lentId_of_op id hreturned (by simp [op]), Or.inr hl', Or.inr rfl⟩
  | admitUnrouted admitted op =>
    exact ⟨Event.lentId_of_op id hreturned (by simp [op]), Or.inl admitted, Or.inl rfl⟩
  | _ => simp [absent] at hl'

/-- An unrouted send was never lent, and never in the table of unicasts. -/
theorem Life.Run.unrouted (h : Life.Run id es batches l) (hl : l.unrouted.isSome = true) :
    loans id es = 0 ∧ ∀ e ∈ es, ∀ r, ¬ e.Enters id r := by
  induction h with
  | start => simp [Life.absent] at hl
  | @step es _ l l' e _ hrun hbefore hafter hreturned honce hstep ih =>
    obtain ⟨hlent, hcame, hunicast⟩ := hstep.unrouted hreturned hl
    have hes : loans id es = 0 ∧ ∀ e ∈ es, ∀ r, ¬ e.Enters id r := by
      rcases hcame with hadmitted | hbefore
      · refine ⟨loans_eq_zero (hrun.unborn (honce hadmitted)).2, fun e' he' r henters => ?_⟩
        have habsent := hrun.unborn_after (honce hadmitted) e' he'
        simp [Event.Enters, habsent, Life.absent] at henters
      · exact ih hbefore
    refine ⟨by simp [loans_append, hes.1, hlent], fun e' he' r henters => ?_⟩
    rcases List.mem_append.mp he' with hin | hlast
    · exact hes.2 e' hin r henters
    · rw [List.mem_singleton.mp hlast, Event.Enters, hbefore, hafter] at henters
      rcases hunicast with hnone | rfl
      · simp [hnone] at henters
      · simp [henters.1] at henters

/-- A send enters the table of unicasts once. -/
theorem Life.Run.enters_unique (h : Life.Run id es batches l) {e e' : Event F W E}
    {r r' : Unicasts.Record F W} (he : e ∈ es) (he' : e' ∈ es) (henters : e.Enters id r)
    (henters' : e'.Enters id r') : e = e' := by
  induction h with
  | start => simp at he
  | @step es _ l l' last _ hrun hbefore hafter _ honce hstep ih =>
    -- once the last event enters the table, no earlier one did
    have hfirst : ∀ r, last.Enters id r → ∀ e ∈ es, ∀ r, ¬ e.Enters id r := by
      intro r hlast e he r' henters
      rw [Event.Enters, hbefore, hafter] at hlast
      rcases hstep.admitted_or_unrouted hlast.1 (by simp [hlast.2]) with hadmitted | hunrouted
      · have habsent := hrun.unborn_after (honce hadmitted) e he
        simp [Event.Enters, habsent, Life.absent] at henters
      · exact (hrun.unrouted hunrouted).2 e he r' henters
    rcases List.mem_append.mp he with hin | hlast <;>
      rcases List.mem_append.mp he' with hin' | hlast'
    · exact ih hin hin'
    · rw [List.mem_singleton.mp hlast'] at henters'
      exact absurd henters (hfirst r' henters' e hin r)
    · rw [List.mem_singleton.mp hlast] at henters
      exact absurd henters' (hfirst r henters e' hin' r')
    · rw [List.mem_singleton.mp hlast, List.mem_singleton.mp hlast']

end Entry

/-! ## Unicasts that are sent directly -/

namespace Unicasts.Record

/-- The loans that a record without a poll address can still ask for. -/
def budget (r : Record F W) : Nat :=
  match r.stage with
  | .queued | .retrying _ => r.attemptsRemaining + 1
  | .transmitting _ => r.attemptsRemaining
  | .awaitingPoll | .awaitingApsAck => 0

theorem budget_lend {r : Record F W} (hstage : r.stage = .queued) :
    1 + r.lend.budget = r.budget := by
  simp [budget, lend, hstage, Nat.add_comm]

theorem budget_requeue (r : Record F W) (now : Instant) : (r.requeue now).budget = r.budget := by
  unfold requeue
  cases hs : r.stage with
  | retrying due =>
    dsimp only
    split
    · simp [budget, hs]
    · rfl
  | _ => rfl

theorem pollAddress_requeue (r : Record F W) (now : Instant) :
    (r.requeue now).pollAddress = r.pollAddress := by
  unfold requeue
  split
  · split <;> rfl
  · rfl

/-- A report leaves the poll address, and never more attempts than there were. -/
theorem report_budget {r r' : Record F W} {acked : Bool} {frame : F} {result : Except E Unit}
    {now : Instant} {retryDelay : Duration}
    (h : (r.report acked frame result now retryDelay).1 = some r') :
    r'.pollAddress = r.pollAddress ∧
      (r.pollAddress = none → r'.budget ≤ r.attemptsRemaining) := by
  rcases Life.unicast_report_eq_some h with
    ⟨ack, wait, -, -, rfl⟩ | ⟨hpoll, -, rfl⟩ | ⟨-, hattempts, rfl⟩
  · simp [budget]
  · exact ⟨rfl, fun _ => by simp [budget]⟩
  · refine ⟨rfl, fun _ => ?_⟩
    simp only [budget]
    omega

end Unicasts.Record

/-- The account of a unicast: its entry into the table, and what was used up since. -/
def Unicasts.Record.Account (id : SendId) (es : List (Event F W E)) (r : Unicasts.Record F W) :
    Prop :=
  ∃ e ∈ es, ∃ r₀ tunables, e.Enters id r₀ ∧ e.op.tunables = some tunables ∧
    r.pollAddress = r₀.pollAddress ∧
    (r.pollAddress = none → loans id es + r.budget ≤ tunables.unicastRetries + 1)

section Unicasts

variable [FromSendFailure E] {id : SendId} {es : List (Event F W E)}
  {batches : List (Actions F W E)} {l l' : Life F W E} {e : Event F W E}
  {actions : Actions F W E}

omit [FromSendFailure E] in
/-- An event that makes no loan without paying for it. -/
theorem Unicasts.Record.Account.extend {r r' : Unicasts.Record F W} (h : r.Account id es)
    (hpoll : r'.pollAddress = r.pollAddress)
    (hbudget : r.pollAddress = none →
      (if e.lentId = some id then 1 else 0) + r'.budget ≤ r.budget) :
    r'.Account id (es ++ [e]) := by
  obtain ⟨e₀, he₀, r₀, tunables, henters, htunables, hsame, hbound⟩ := h
  refine ⟨e₀, by simp [he₀], r₀, tunables, henters, htunables, hpoll.trans hsame, ?_⟩
  intro hnone
  rw [hpoll] at hnone
  have hpaid := hbudget hnone
  have hsofar := hbound hnone
  rw [loans_append]
  omega

omit [FromSendFailure E] in
/-- The account of a send that enters the table. -/
theorem Unicasts.Record.Account.enter {unicast : Unicast F W} {now : Instant}
    {deadline : Option Instant} {copyOf : Option SendId} {tunables : Tunables}
    (hloans : loans id es = 0) (hlent : e.lentId ≠ some id)
    (htunables : e.op.tunables = some tunables)
    (henters : e.Enters id (Unicasts.newRecord unicast now deadline copyOf tunables)) :
    (Unicasts.newRecord unicast now deadline copyOf tunables).Account id (es ++ [e]) := by
  refine ⟨e, by simp, _, tunables, henters, htunables, rfl, fun hnone => ?_⟩
  rw [loans_append, hloans, if_neg hlent]
  have hstage : (Unicasts.newRecord unicast now deadline copyOf tunables).stage = .queued := by
    rw [Unicasts.stage_newRecord]
    simp [show unicast.pollAddress = none from hnone]
  simp only [Unicasts.Record.budget, hstage, Nat.zero_add]
  exact le_rfl

/-- Every step of a unicast pays for its loan. -/
theorem Life.Step.unicastAccount (h : Life.Step id e l actions l')
    (hreturned : step e.before e.op = .ok (e.after, e.out)) (hbefore : e.before.life id = l)
    (hafter : e.after.life id = l')
    (hunborn : e.out.admitted = some id → loans id es = 0)
    (hunrouted : l.unrouted.isSome = true → loans id es = 0)
    (haccount : ∀ r, l.unicast = some r → r.Account id es) {r' : Unicasts.Record F W}
    (hl' : l'.unicast = some r') : r'.Account id (es ++ [e]) := by
  have hlent : (∀ now, e.op ≠ .dequeue now) → e.lentId ≠ some id :=
    Event.lentId_of_op id hreturned
  cases h with
  | idle quiet => exact (haccount r' hl').extend rfl (by simp [quiet.lent])
  | tickIdle op => exact (haccount r' hl').extend rfl (by simp [hlent (by simp [op])])
  | admitUnicast admitted _ _ op =>
    cases hl'
    have hnot : ∀ now, e.op ≠ .dequeue now := by rcases op with ⟨op, -⟩ | ⟨b, op, -⟩ <;> simp [op]
    refine .enter (hunborn admitted) (hlent hnot) ?_ ⟨by rw [hbefore]; rfl, by rw [hafter]⟩
    rcases op with ⟨op, -⟩ | ⟨b, op, -⟩ <;> rw [op] <;> rfl
  | @lendUnicast r _ token op lent tokenId ready =>
    cases hl'
    simp only [Unicasts.Record.ready, decide_eq_true_eq] at ready
    refine (haccount r rfl).extend rfl (fun _ => ?_)
    rw [if_pos (by simp [Event.lentId, lent, tokenId]), Unicasts.Record.budget_lend ready.1]
  | @reportUnicast r acked token inFlight result now retryDelay _ op _ _ stage =>
    obtain ⟨hpoll, hbudget⟩ := Unicasts.Record.report_budget hl'
    refine (haccount r rfl).extend hpoll (fun hnone => ?_)
    have hless := hbudget hnone
    simpa [hlent (by simp [op]), Unicasts.Record.budget, stage] using hless
  | @pollUnicast r _ _ _ op _ _ pollable =>
    cases hl'
    refine (haccount r rfl).extend rfl (fun hnone => ?_)
    simp [Unicasts.Record.pollable, hnone] at pollable
  | @ackTransmitting r _ _ op _ _ stage =>
    cases hl'
    refine (haccount r rfl).extend rfl (fun _ => ?_)
    cases hs : r.stage <;>
      simp_all [Unicasts.Record.budget, Unicasts.Stage.isTransmitting]
  | tickUnicast op =>
    cases hl'
    refine (haccount _ rfl).extend (Unicasts.Record.pollAddress_requeue ..) (fun _ => ?_)
    simp [hlent (by simp [op]), Unicasts.Record.budget_requeue]
  | routed op =>
    cases hl'
    refine .enter (hunrouted rfl) (hlent (by simp [op])) (by rw [op]; rfl)
      ⟨by rw [hbefore], by rw [hafter]⟩
  | _ => simp [absent] at hl'

/-- Along every run, a live unicast has its account. -/
theorem Life.Run.unicastAccount (h : Life.Run id es batches l) {r : Unicasts.Record F W}
    (hl : l.unicast = some r) : r.Account id es := by
  induction h generalizing r with
  | start => simp [Life.absent] at hl
  | step hrun hbefore hafter hreturned honce hstep ih =>
    exact hstep.unicastAccount hreturned hbefore hafter
      (fun hadmitted => loans_eq_zero (hrun.unborn (honce hadmitted)).2)
      (fun hunrouted => (hrun.unrouted hunrouted).1) (fun r hr => ih hr) hl

end Unicasts

/-! ## Broadcasts -/

namespace Broadcasts.Record

/-- The loans that a broadcast can still ask for. -/
def budget (r : Record F W E) : Nat :=
  (if r.schedule = .once then 0 else r.schedule.copies) + if r.copy = .queued then 1 else 0

theorem budget_newRecord (broadcast : Broadcast F W) (now : Instant) (tunables : Tunables) :
    (newRecord broadcast now tunables : Record F W E).budget = broadcast.schedule.copies := by
  cases hs : broadcast.schedule <;> simp [budget, newRecord, hs, Schedule.copies]

theorem budget_lend {r : Record F W E} (hcopy : r.copy = .queued) :
    1 + r.lend.budget = r.budget := by
  cases hs : r.schedule <;> simp [budget, lend, hcopy, hs, Nat.add_comm]

/-- A copy that is due moves from the schedule to the queue. -/
theorem budget_advance (r : Record F W E) (now : Instant) :
    (r.advance now).1.budget ≤ r.budget := by
  unfold advance
  cases hc : r.copy with
  | idle =>
    cases hs : r.schedule <;> simp only [scheduleDue] <;> split_ifs <;>
      simp_all [budget, Schedule.copies] <;> omega
  | _ => exact le_rfl

theorem budget_reported {r : Record F W E} (hcopy : r.copy = .transmitting)
    (honce : r.schedule ≠ .once) (frame : F) (result : Except E Unit) (now : Instant)
    (interval : Duration) : (r.reported frame result now interval).budget = r.budget := by
  cases hs : r.schedule <;>
    simp_all [budget, reported, rearm, Schedule.copies]

end Broadcasts.Record

/-- The account of a broadcast: its admission, and what was used up since. -/
def Broadcasts.Record.Account (id : SendId) (es : List (Event F W E))
    (r : Broadcasts.Record F W E) : Prop :=
  ∃ e ∈ es, ∃ broadcast now tunables, e.out.admitted = some id ∧
    e.op = .enqueueBroadcast broadcast now tunables ∧
    loans id es + r.budget ≤ broadcast.schedule.copies

section Broadcasts

variable [FromSendFailure E] {id : SendId} {es : List (Event F W E)}
  {batches : List (Actions F W E)} {l l' : Life F W E} {e : Event F W E}
  {actions : Actions F W E}

omit [FromSendFailure E] in
theorem Broadcasts.Record.Account.extend {r r' : Broadcasts.Record F W E}
    (h : r.Account id es)
    (hbudget : (if e.lentId = some id then 1 else 0) + r'.budget ≤ r.budget) :
    r'.Account id (es ++ [e]) := by
  obtain ⟨e₀, he₀, broadcast, now, tunables, hadmitted, hop, hbound⟩ := h
  refine ⟨e₀, by simp [he₀], broadcast, now, tunables, hadmitted, hop, ?_⟩
  rw [loans_append]
  omega

/-- Every step of a broadcast pays for its loan. -/
theorem Life.Step.broadcastAccount (h : Life.Step id e l actions l')
    (hreturned : step e.before e.op = .ok (e.after, e.out))
    (hunborn : e.out.admitted = some id → loans id es = 0)
    (haccount : ∀ r, l.broadcast = some r → r.Account id es) {r' : Broadcasts.Record F W E}
    (hl' : l'.broadcast = some r') : r'.Account id (es ++ [e]) := by
  have hlent : (∀ now, e.op ≠ .dequeue now) → e.lentId ≠ some id :=
    Event.lentId_of_op id hreturned
  cases h with
  | idle quiet => exact (haccount r' hl').extend (by simp [quiet.lent])
  | tickIdle op => exact (haccount r' hl').extend (by simp [hlent (by simp [op])])
  | admitBroadcast admitted op =>
    cases hl'
    refine ⟨e, by simp, _, _, _, admitted, op, ?_⟩
    rw [loans_append, hunborn admitted, if_neg (hlent (by simp [op])),
      Broadcasts.Record.budget_newRecord]
    omega
  | @lendBroadcast r _ token op lent tokenId ready =>
    cases hl'
    simp only [Broadcasts.Record.ready, decide_eq_true_eq] at ready
    refine (haccount r rfl).extend ?_
    rw [if_pos (by simp [Event.lentId, lent, tokenId]), Broadcasts.Record.budget_lend ready.1]
  | @reportBroadcast r token inFlight result now _ interval op _ _ copy =>
    obtain ⟨honce, rfl, -⟩ := Life.report_eq_some hl'
    refine (haccount r rfl).extend ?_
    rw [if_neg (hlent (by simp [op])), Broadcasts.Record.budget_reported copy honce]
    omega
  | quorumNoted op =>
    cases hl'
    exact (haccount _ rfl).extend (by simp [hlent (by simp [op]), Broadcasts.Record.budget])
  | tickBroadcast op =>
    cases hl'
    refine (haccount _ rfl).extend ?_
    rw [if_neg (hlent (by simp [op])), Nat.zero_add]
    exact Broadcasts.Record.budget_advance ..
  | _ => simp [absent] at hl'

/-- Along every run, a live broadcast has its account. -/
theorem Life.Run.broadcastAccount (h : Life.Run id es batches l)
    {r : Broadcasts.Record F W E} (hl : l.broadcast = some r) : r.Account id es := by
  induction h generalizing r with
  | start => simp [Life.absent] at hl
  | step hrun _ _ hreturned honce hstep ih =>
    exact hstep.broadcastAccount hreturned
      (fun hadmitted => loans_eq_zero (hrun.unborn (honce hadmitted)).2) (fun r hr => ih hr) hl

end Broadcasts

/-! ## Frames held for a poll -/

/-- The send whose frame the event lends, if it is held for a poll address. -/
def Event.heldLoan (e : Event F W E) : Option SendId :=
  e.lentId.filter (fun id => (e.before.life id).unicast.any (·.pollAddress.isSome))

/-- The event is a poll that was answered with true. -/
def Event.answersPoll (e : Event F W E) : Bool :=
  match e.op with
  | .poll .. => e.out.answer
  | _ => false

/-- The send that an answered poll queued. -/
def Event.answeredId (e : Event F W E) : Option SendId :=
  if e.answersPoll then e.polledId else none

/-- The loan that a poll has paid for and the radio has not yet asked for. -/
def Life.waiting (l : Life F W E) : Nat :=
  if l.unicast.any (fun r => r.pollAddress.isSome && r.stage = .queued) then 1 else 0

section Held

variable [FromSendFailure E] {id : SendId} {es : List (Event F W E)}
  {batches : List (Actions F W E)} {l l' : Life F W E} {e : Event F W E}
  {actions : Actions F W E}

omit [FromSendFailure E] in
theorem Event.heldLoan_ne (h : e.lentId ≠ some id) : e.heldLoan ≠ some id := by
  intro heq
  exact h (Option.mem_filter_iff.mp heq).1

omit [FromSendFailure E] in
theorem Life.waiting_eq_zero
    (h : ∀ r, l.unicast = some r → r.pollAddress.isSome = true → r.stage ≠ .queued) :
    l.waiting = 0 := by
  unfold Life.waiting
  rw [if_neg]
  cases hl : l.unicast with
  | none => simp
  | some r => simpa using h r hl

omit [FromSendFailure E] in
theorem Life.waiting_unicast {r : Unicasts.Record F W} {tokens : List (InFlight F)} :
    ({ unicast := some r, tokens } : Life F W E).waiting =
      if r.pollAddress.isSome = true ∧ r.stage = .queued then 1 else 0 := by
  simp [Life.waiting]

omit [FromSendFailure E] in
/-- A held frame enters the table waiting for a poll. -/
theorem Unicasts.waiting_newRecord (unicast : Unicast F W) (now : Instant)
    (deadline : Option Instant) (copyOf : Option SendId) (tunables : Tunables) :
    ({ unicast := some (Unicasts.newRecord unicast now deadline copyOf tunables) } :
      Life F W E).waiting = 0 := by
  refine Life.waiting_eq_zero (fun r hr hpoll => ?_)
  cases hr
  rw [Unicasts.stage_newRecord]
  simp [show unicast.pollAddress ≠ none from Option.isSome_iff_ne_none.mp hpoll]

/-- Every step of a held frame pays for its loan with a poll. -/
theorem Life.Step.waiting (h : Life.Step id e l actions l') (hl : l.Ok)
    (hreturned : step e.before e.op = .ok (e.after, e.out)) (hbefore : e.before.life id = l) :
    (if e.heldLoan = some id then 1 else 0) + l'.waiting ≤
      l.waiting + if e.answeredId = some id then 1 else 0 := by
  have hlent : (∀ now, e.op ≠ .dequeue now) → e.heldLoan ≠ some id := fun hop =>
    Event.heldLoan_ne (Event.lentId_of_op id hreturned hop)
  cases h with
  | idle quiet => simp [Event.heldLoan_ne quiet.lent]
  | tickIdle op => simp [hlent (by simp [op])]
  | admitUnicast _ _ _ op =>
    have hop : ∀ now, e.op ≠ .dequeue now := by rcases op with ⟨op, -⟩ | ⟨b, op, -⟩ <;> simp [op]
    simp [hlent hop, Unicasts.waiting_newRecord]
  | routed op => simp [hlent (by simp [op]), Unicasts.waiting_newRecord]
  | @lendUnicast r _ token op lent tokenId ready =>
    simp only [Unicasts.Record.ready, decide_eq_true_eq] at ready
    have hheld : e.heldLoan = some id → r.pollAddress.isSome = true := by
      intro heq
      simpa [hbefore] using (Option.mem_filter_iff.mp heq).2
    have hafter : ({ unicast := some r.lend, tokens := [token] } : Life F W E).waiting = 0 :=
      Life.waiting_eq_zero (by rintro r' ⟨⟩ -; simp [Unicasts.Record.lend])
    rw [hafter, Life.waiting_unicast]
    by_cases hloan : e.heldLoan = some id
    · simp [hloan, hheld hloan, ready.1]
    · simp [hloan]
  | lendBroadcast op lent tokenId =>
    have hnot : e.heldLoan ≠ some id := fun heq => by
      simpa [hbefore] using (Option.mem_filter_iff.mp heq).2
    simp [hnot, Life.waiting]
  | @reportUnicast r acked token inFlight result now retryDelay _ op =>
    have hafter : ({ unicast := (r.report acked inFlight.frame result now retryDelay).1 } :
        Life F W E).waiting = 0 := by
      refine Life.waiting_eq_zero (fun r' hr' _ => ?_)
      rcases Life.unicast_report_eq_some hr' with
        ⟨ack, wait, -, -, rfl⟩ | ⟨-, -, rfl⟩ | ⟨-, -, rfl⟩ <;> simp
    simp [hlent (by simp [op]), hafter]
  | @pollUnicast r _ _ _ op answer polled =>
    have hanswered : e.answeredId = some id := by
      simp [Event.answeredId, Event.answersPoll, op, answer, polled]
    rw [if_neg (hlent (by simp [op])), if_pos hanswered, Life.waiting_unicast]
    split <;> omega
  | ackTransmitting op =>
    simp [hlent (by simp [op]), Life.waiting_unicast]
  | @tickUnicast r now op =>
    have hr := (Life.ok_unicast_iff.mp hl).polls
    have hsame : r.pollAddress.isSome = true → (r.requeue now).stage = r.stage := by
      intro hpoll
      unfold Unicasts.Record.requeue
      split
      · rename_i due hstage
        exact absurd hstage (hr hpoll due)
      · rfl
    rw [if_neg (hlent (by simp [op])), Life.waiting_unicast, Life.waiting_unicast,
      Unicasts.Record.pollAddress_requeue]
    by_cases hpoll : r.pollAddress.isSome = true
    · simp [hpoll, hsame hpoll]
    · simp [hpoll]
  | abandoned op | ackSettle op | dropUnicast op | cancelUnicast op | lapseUnicast op
  | admitUnrouted _ op | routeFailed op | tickUnrouted op | failUnrouted op | cancelUnrouted op
  | admitBroadcast _ op | reportBroadcast op | quorumNoted op | quorumSettle op
  | cancelBroadcast op | tickBroadcast op | lapseBroadcast op =>
    simp [hlent (by simp [op]), Life.waiting, absent]
  | lapseUnrouted op =>
    have hop : ∀ now, e.op ≠ .dequeue now := by rcases op with op | ⟨_, _, _, op⟩ <;> simp [op]
    simp [hlent hop, Life.waiting, absent]

/-- Along every run, the loans of a held frame are paid for by polls. -/
theorem Life.Run.heldLoans_le (h : Life.Run id es batches l) :
    es.countP (fun e => e.heldLoan = some id) + l.waiting ≤
      es.countP (fun e => e.answeredId = some id) := by
  induction h with
  | start => simp [Life.waiting, Life.absent]
  | step hrun hbefore _ hreturned _ hstep ih =>
    have hpaid := hstep.waiting hrun.ok hreturned hbefore
    simp only [List.countP_append, List.countP_singleton, decide_eq_true_eq]
    omega

/-- The loans of held frames, all together, are at most the polls that were answered. -/
theorem Run.heldLoans_le {w : World F W E} (hrun : Run w es) :
    es.countP (fun e => e.heldLoan.isSome) ≤ es.countP Event.answersPoll := by
  calc es.countP (fun e => e.heldLoan.isSome)
      ≤ es.countP (fun e => e.answeredId.isSome) := by
        refine Lib.TagLog.countP_isSome_le _ _ _ (fun id => ?_)
        obtain ⟨_, hlife⟩ := hrun.life id
        exact le_of_add_le_left hlife.heldLoans_le
    _ ≤ es.countP Event.answersPoll := by
        refine List.countP_mono_left (fun e _ hsome => ?_)
        unfold Event.answeredId at hsome
        split at hsome
        · assumption
        · simp at hsome

end Held

/-! ## Whole runs -/

/-- The last loan of a frame that was lent. -/
theorem exists_last_loan {id : SendId} {es : List (Event F W E)} (h : loans id es ≠ 0) :
    ∃ pre e post, es = pre ++ e :: post ∧ e.lentId = some id ∧
      loans id es = loans id (pre ++ [e]) := by
  induction es using List.reverseRecOn with
  | nil => simp [loans] at h
  | append_singleton es e ih =>
    by_cases hlent : e.lentId = some id
    · exact ⟨es, e, [], rfl, hlent, rfl⟩
    · have hsame : loans id (es ++ [e]) = loans id es := by simp [loans_append, hlent]
      obtain ⟨pre, e', post, rfl, hlent', hloans⟩ := ih (hsame ▸ h)
      exact ⟨pre, e', post ++ [e], by simp, hlent', hsame.trans hloans⟩

section Runs

variable [FromSendFailure E] {w : World F W E} {es : List (Event F W E)} {id : SendId}
  {e : Event F W E}

omit [FromSendFailure E] in
theorem mem_of_upTo {pre post : List (Event F W E)} {e' : Event F W E}
    (hsplit : es = pre ++ e :: post) (h : e' ∈ pre ++ [e]) : e' ∈ es := by
  rw [hsplit, List.append_cons]
  exact List.mem_append_left _ h

/-- A send that enters the table of unicasts was not admitted as a broadcast. -/
theorem Run.isBroadcast_of_enters (hrun : Run w es) (he : e ∈ es) {r : Unicasts.Record F W}
    (henters : e.Enters id r) :
    ∃ e₀ ∈ es, e₀.out.admitted = some id ∧ e₀.op.isBroadcast = false := by
  obtain ⟨pre, post, hsplit⟩ := List.append_of_mem he
  obtain ⟨_, _, -, hlives⟩ := hrun.event hsplit
  have hlife := (hlives id).1
  have hnone := (hlife.ok.unicast r henters.2).2.1
  obtain ⟨e₀, he₀, hadmitted, hkind⟩ := hlife.kind (by simp [Life.live, henters.2])
  exact ⟨e₀, mem_of_upTo hsplit he₀, hadmitted, by rw [hkind, hnone]; rfl⟩

/-- A unicast without a poll address is lent once for each attempt it has. -/
theorem Run.loans_unicast (hrun : Run w es) (he : e ∈ es) {r : Unicasts.Record F W}
    (henters : e.Enters id r) (hpoll : r.pollAddress = none) :
    ∃ tunables, e.op.tunables = some tunables ∧ loans id es ≤ tunables.unicastRetries + 1 := by
  obtain ⟨_, hwhole⟩ := hrun.life id
  -- the account of a record after any event is opened by `e`
  have haccount : ∀ pre e' post r', es = pre ++ e' :: post →
      (e'.after.life id).unicast = some r' → ∃ tunables, e.op.tunables = some tunables ∧
        loans id (pre ++ [e']) ≤ tunables.unicastRetries + 1 := by
    intro pre e' post r' hsplit hr'
    obtain ⟨_, _, -, hlives⟩ := hrun.event hsplit
    obtain ⟨e₀, he₀, r₀, tunables, henters₀, htunables, hsame, hbound⟩ :=
      (hlives id).1.unicastAccount hr'
    obtain rfl := hwhole.enters_unique (mem_of_upTo hsplit he₀) he henters₀ henters
    obtain rfl := Option.some.inj (henters.2.symm.trans henters₀.2)
    exact ⟨tunables, htunables, le_of_add_le_left (hbound (hsame.trans hpoll))⟩
  by_cases hloans : loans id es = 0
  · obtain ⟨pre, post, hsplit⟩ := List.append_of_mem he
    obtain ⟨tunables, htunables, -⟩ := haccount pre e post r hsplit henters.2
    exact ⟨tunables, htunables, by omega⟩
  · obtain ⟨pre, last, post, hsplit, hlent, hsame⟩ := exists_last_loan hloans
    obtain ⟨_, _, -, hlives⟩ := hrun.event hsplit
    have hlast : last ∈ es := by simp [hsplit]
    obtain ⟨now, -, ⟨r', -, -, hr'⟩ | ⟨b, -, -, hb⟩⟩ :=
      (hlives id).2.2.of_lent (hrun.returned last hlast) hlent
    · rw [hsame]
      exact haccount pre last post _ hsplit hr'
    · -- a broadcast never enters the table of unicasts
      obtain ⟨e₁, he₁, hadmitted₁, hkind₁⟩ := hrun.isBroadcast_of_enters he henters
      obtain ⟨e₂, he₂, hadmitted₂, hkind₂⟩ :=
        (hlives id).1.kind (by simp [Life.live, hb])
      rw [hwhole.admitted_unique (mem_of_upTo hsplit he₂) he₁ hadmitted₂ hadmitted₁, hkind₁,
        hb] at hkind₂
      simp at hkind₂

/-- A broadcast is lent once for each copy of its schedule. -/
theorem Run.loans_broadcast (hrun : Run w es) (he : e ∈ es)
    (hadmitted : e.out.admitted = some id) {broadcast : Broadcast F W} {now : Instant}
    {tunables : Tunables} (hop : e.op = .enqueueBroadcast broadcast now tunables) :
    loans id es ≤ broadcast.schedule.copies := by
  obtain ⟨_, hwhole⟩ := hrun.life id
  by_cases hloans : loans id es = 0
  · omega
  · obtain ⟨pre, last, post, hsplit, hlent, hsame⟩ := exists_last_loan hloans
    obtain ⟨_, _, -, hlives⟩ := hrun.event hsplit
    have hlast : last ∈ es := by simp [hsplit]
    obtain ⟨_, -, ⟨r, -, -, hr⟩ | ⟨b, -, -, hb⟩⟩ :=
      (hlives id).2.2.of_lent (hrun.returned last hlast) hlent
    · -- a unicast was not admitted as a broadcast
      have hnone := ((hlives id).1.ok.unicast _ hr).2.1
      obtain ⟨e₁, he₁, hadmitted₁, hkind₁⟩ := (hlives id).1.kind (by simp [Life.live, hr])
      rw [hwhole.admitted_unique (mem_of_upTo hsplit he₁) he hadmitted₁ hadmitted, hop,
        hnone] at hkind₁
      simp [Op.isBroadcast] at hkind₁
    · obtain ⟨e₁, he₁, _, _, _, hadmitted₁, hop₁, hbound⟩ := (hlives id).1.broadcastAccount hb
      rw [hwhole.admitted_unique (mem_of_upTo hsplit he₁) he hadmitted₁ hadmitted, hop] at hop₁
      cases hop₁
      rw [hsame]
      exact le_of_add_le_left hbound

end Runs

/-! ## What a poll queues -/

/-- The frame waits for a device that goes by one of the two addresses, and has not
expired. -/
def Unicasts.Record.HeldFor (eui64 : Option Eui64) (nwk : Option Nwk) (now : Instant)
    (r : Unicasts.Record F W) : Prop :=
  r.stage = .awaitingPoll ∧ now < r.deadline ∧
    ((∃ address, r.pollAddress = some (.eui64 address) ∧ eui64 = some address) ∨
      ∃ address, r.pollAddress = some (.nwk address) ∧ nwk = some address)

theorem Unicasts.Record.pollable_iff {eui64 : Option Eui64} {nwk : Option Nwk}
    {now : Instant} {r : Unicasts.Record F W} :
    r.pollable eui64 nwk now = true ↔ r.HeldFor eui64 nwk now := by
  unfold Unicasts.Record.pollable Unicasts.Record.HeldFor
  cases hp : r.pollAddress with
  | none => simp
  | some address => cases hs : r.stage <;> cases address <;> simp [Unicasts.pollMatches, and_comm]

/-- The poll moved the oldest frame held for the device to the queue, and no other
record. -/
def QueuesOldest (eui64 : Option Eui64) (nwk : Option Nwk) (now : Instant)
    (before after : Unicasts F W) : Prop :=
  ∃ id r, before.records.get id = some r ∧ r.HeldFor eui64 nwk now ∧
    (∀ other r', before.records.get other = some r' → r'.HeldFor eui64 nwk now → id ≤ other) ∧
    after.records.get id = some { r with priority := .stackCritical, stage := .queued } ∧
    ∀ other, other ≠ id → after.records.get other = before.records.get other

/-- A poll is answered with true exactly if it queues a frame. -/
theorem queuesOldest_of_poll [FromSendFailure E] {e : Event F W E} {eui64 : Option Eui64}
    {nwk : Option Nwk} {now : Instant}
    (hreturned : step e.before e.op = .ok (e.after, e.out)) (hop : e.op = .poll eui64 nwk now)
    (hanswer : e.out.answer = true) :
    QueuesOldest eui64 nwk now e.before.sends.unicasts e.after.sends.unicasts := by
  rw [hop] at hreturned
  rcases Unicasts.poll_ok e.before.sends.unicasts eui64 nwk now with
    ⟨-, hpoll⟩ | ⟨id, r, hfind, hget, hpollable, hpoll⟩
  · simp only [step, Sends.poll, hpoll, Checked.ok_bind, Checked.pure_eq_ok,
      Except.ok.injEq, Prod.mk.injEq] at hreturned
    simp [← hreturned.2] at hanswer
  · simp only [step, Sends.poll, hpoll, Checked.ok_bind, Checked.pure_eq_ok,
      Except.ok.injEq, Prod.mk.injEq] at hreturned
    rw [← hreturned.1]
    refine ⟨id, r, hget, Unicasts.Record.pollable_iff.mp hpollable, ?_, ?_, ?_⟩
    · intro other r' hget' hheld
      exact e.before.sends.unicasts.records.sorted.find?_lowest hfind (other, r')
        (FlatMap.mem_entries.mpr hget') (by simpa using Unicasts.Record.pollable_iff.mpr hheld)
    · simp [FlatMap.get_set, Unicasts.Record.polled]
    · intro other hne
      simp [FlatMap.get_set, hne]

/-- In every run: a unicast without a poll address is lent at most once more than its
retries, a broadcast at most once for each copy, and the frames held for a poll address
at most once for each answered poll, which queues the oldest of them. -/
theorem transmissions_bounded [FromSendFailure E] {w : World F W E}
    {es : List (Event F W E)} (hrun : Run w es) :
    (∀ id, ∀ e ∈ es, ∀ r, e.Enters id r → r.pollAddress = none →
      ∃ tunables, e.op.tunables = some tunables ∧
        loans id es ≤ tunables.unicastRetries + 1) ∧
    (∀ id, ∀ e ∈ es, ∀ broadcast now tunables, e.out.admitted = some id →
      e.op = .enqueueBroadcast broadcast now tunables →
        loans id es ≤ broadcast.schedule.copies) ∧
    es.countP (fun e => e.heldLoan.isSome) ≤ es.countP Event.answersPoll ∧
    ∀ e ∈ es, ∀ eui64 nwk now, e.op = .poll eui64 nwk now → e.out.answer = true →
      QueuesOldest eui64 nwk now e.before.sends.unicasts e.after.sends.unicasts :=
  ⟨fun _ _ he _ henters hpoll => hrun.loans_unicast he henters hpoll,
    fun _ _ he _ _ _ hadmitted hop => hrun.loans_broadcast he hadmitted hop,
    hrun.heldLoans_le,
    fun e he _ _ _ hop hanswer => queuesOldest_of_poll (hrun.returned e he) hop hanswer⟩

/-- A held frame that its device polls for twice, and a direct one. -/
def polledCalls : List (Op Nat Nat SendFailure) :=
  let held : Unicast Nat Nat :=
    { frame := 7, priority := .userNormal, waiter := 100, confirm := .onHandoff,
      nextHop := 1, pollAddress := some (.nwk 1) }
  let direct : Unicast Nat Nat :=
    { frame := 8, priority := .userNormal, waiter := 101, confirm := .onHandoff,
      nextHop := 2, pollAddress := none }
  [.enqueueUnicast held 0 {}, .enqueueUnicast direct 0 {}, .poll none (some 1) 1, .dequeue 2,
    .transmitted ⟨0, 7, .unicast 1 false⟩ (.error .cancelled) 3 10 10, .poll none (some 1) 4,
    .dequeue 5, .dequeue 5]

theorem polledCalls_return : (replay World.empty polledCalls).isSome = true := by
  decide +kernel

theorem transmissions_bounded_polled :
    ∃ (w : World Nat Nat SendFailure) (es : List (Event Nat Nat SendFailure)), Run w es ∧
      es.countP (fun e => e.heldLoan.isSome) = 2 ∧ 2 ≤ es.countP Event.answersPoll ∧
      loans 1 es = 1 ∧ loans 1 es ≤ 3 + 1 := by
  have hrun := run_outcome polledCalls polledCalls_return
  obtain ⟨hunicast, -, hheld, -⟩ := transmissions_bounded hrun
  have htwo : (outcome polledCalls polledCalls_return).2.countP
      (fun e => e.heldLoan.isSome) = 2 := by decide +kernel
  refine ⟨_, _, hrun, htwo, htwo ▸ hheld, by decide +kernel, ?_⟩
  obtain ⟨tunables, htunables, hbound⟩ := hunicast 1
    ((outcome polledCalls polledCalls_return).2.get ⟨1, by decide +kernel⟩)
    (List.get_mem _ _) _ ⟨rfl, rfl⟩ rfl
  cases htunables
  exact hbound

end Ziggurat
