import Ziggurat.Sends.Attempts
import Ziggurat.Sends.History

/-!
# Deadlines

A send gets its deadline on admission, from the handoff timeout or, for a frame
held for a sleepy device, from the persistence time.  A route that is found moves
an unrouted send with the deadline it has, or an earlier one.  The only step that
sets a later deadline is the radio's report that the frame was sent, for a send
that then waits for its APS ack, and such a send is never lent again.

So `dequeue` and `route_unicasts`, which compare the current deadline with the
clock, never act on a send past the deadline it was admitted with.
-/

namespace Ziggurat

variable {F W E : Type}

/-- The deadline of a live send. -/
def Life.deadline (l : Life F W E) : Option Instant :=
  match l.unicast, l.unrouted, l.broadcast with
  | some r, _, _ => some r.deadline
  | none, some r, _ => some r.deadline
  | none, none, some r => some r.deadline
  | none, none, none => none

/-- The send was handed off and waits for its ack, under a deadline of its own. -/
def Life.awaitsAck (l : Life F W E) : Bool :=
  l.unicast.any (fun r => r.stage = .awaitingApsAck)

namespace Life

@[simp] theorem deadline_absent : (absent : Life F W E).deadline = none := rfl

@[simp] theorem deadline_unicast (r : Unicasts.Record F W) (tokens : List (InFlight F)) :
    ({ unicast := some r, tokens } : Life F W E).deadline = some r.deadline := rfl

@[simp] theorem deadline_unrouted (r : UnroutedUnicasts.Record F W) :
    ({ unrouted := some r } : Life F W E).deadline = some r.deadline := rfl

@[simp] theorem deadline_broadcast (r : Broadcasts.Record F W E) (tokens : List (InFlight F)) :
    ({ broadcast := some r, tokens } : Life F W E).deadline = some r.deadline := rfl

end Life

/-! ## What sets a deadline -/

theorem Unicasts.Record.deadline_requeue (r : Unicasts.Record F W) (now : Instant) :
    (r.requeue now).deadline = r.deadline := by
  unfold Unicasts.Record.requeue
  split
  · split <;> rfl
  · rfl

theorem Broadcasts.Record.deadline_advance (r : Broadcasts.Record F W E) (now : Instant) :
    (r.advance now).1.deadline = r.deadline := by
  unfold Broadcasts.Record.advance
  split <;> rfl

/-- A deadline from an earlier admission is kept, or capped. -/
theorem Unicasts.deadline_newRecord_le (unicast : Unicast F W) (now deadline : Instant)
    (copyOf : Option SendId) (tunables : Tunables) :
    (Unicasts.newRecord unicast now (some deadline) copyOf tunables).deadline ≤ deadline := by
  unfold Unicasts.newRecord Unicasts.admission
  cases unicast.pollAddress with
  | none => exact le_rfl
  | some address => exact min_le_right _ _

section Steps

variable [FromSendFailure E] {id : SendId} {e : Event F W E} {l l' : Life F W E}
  {actions : Actions F W E}

/-- No step moves a deadline later, but a report that the frame was sent. -/
theorem Life.Step.deadline_le (h : Life.Step id e l actions l') {d d' : Instant}
    (hd : l.deadline = some d) (hd' : l'.deadline = some d') :
    d' ≤ d ∨ e.reportsOk id = true ∧ l'.awaitsAck = true := by
  cases h with
  | idle | tickIdle => exact Or.inl (le_of_eq (Option.some.inj (hd'.symm.trans hd)))
  | lendUnicast | pollUnicast | ackTransmitting | tickUnrouted | lendBroadcast
  | quorumNoted =>
    cases hd
    cases hd'
    exact Or.inl le_rfl
  | @reportUnicast r acked token inFlight result now retryDelay _ op tokenId =>
    cases hd
    cases hr : (r.report acked inFlight.frame result now retryDelay).1 with
    | none => simp [hr, Life.deadline] at hd'
    | some r' =>
      rw [hr] at hd'
      cases hd'
      rcases Life.unicast_report_eq_some hr with
        ⟨ack, wait, -, rfl, rfl⟩ | ⟨-, -, rfl⟩ | ⟨-, -, rfl⟩
      · exact Or.inr ⟨by simp [Event.reportsOk, op, tokenId], by simp [Life.awaitsAck]⟩
      · exact Or.inl le_rfl
      · exact Or.inl le_rfl
  | @reportBroadcast r token inFlight result now _ interval =>
    cases hd
    cases hr : (r.report inFlight.frame result now interval).1 with
    | none => simp [hr, Life.deadline] at hd'
    | some r' =>
      rw [hr] at hd'
      cases hd'
      obtain ⟨-, rfl, -⟩ := Life.report_eq_some hr
      exact Or.inl le_rfl
  | tickUnicast =>
    cases hd
    cases hd'
    exact Or.inl (le_of_eq (Unicasts.Record.deadline_requeue ..))
  | tickBroadcast =>
    cases hd
    cases hd'
    exact Or.inl (le_of_eq (Broadcasts.Record.deadline_advance ..))
  | routed =>
    cases hd
    cases hd'
    exact Or.inl (Unicasts.deadline_newRecord_le ..)
  | _ => simp at hd hd'

/-- A send that waits for its ack was reported sent, and stays so. -/
theorem Life.Step.awaitsAck (h : Life.Step id e l actions l') (hl' : l'.live = true) :
    (l.awaitsAck = true → l'.awaitsAck = true) ∧
      (l'.awaitsAck = true → l.awaitsAck = true ∨ e.reportsOk id = true) := by
  cases h with
  | idle | tickIdle => exact ⟨fun h => h, Or.inl⟩
  | admitUnicast | routed =>
    refine ⟨by simp [Life.awaitsAck, absent], fun h => ?_⟩
    simp only [Life.awaitsAck, Option.any_some, Unicasts.stage_newRecord] at h
    split at h <;> simp at h
  | lendUnicast _ _ _ ready =>
    simp only [Unicasts.Record.ready, decide_eq_true_eq] at ready
    simp [Life.awaitsAck, Unicasts.Record.lend, ready.1]
  | @reportUnicast r acked token inFlight result now retryDelay _ op tokenId _ stage =>
    refine ⟨by simp [Life.awaitsAck, stage], fun h => ?_⟩
    cases hr : (r.report acked inFlight.frame result now retryDelay).1 with
    | none => simp [hr, Life.awaitsAck] at h
    | some r' =>
      rcases Life.unicast_report_eq_some hr with
        ⟨ack, wait, -, rfl, -⟩ | ⟨-, -, rfl⟩ | ⟨-, -, rfl⟩
      · exact Or.inr (by simp [Event.reportsOk, op, tokenId])
      · simp [hr, Life.awaitsAck] at h
      · simp [hr, Life.awaitsAck] at h
  | pollUnicast _ _ _ pollable =>
    simp [Life.awaitsAck, Unicasts.Record.polled,
      Unicasts.Record.stage_of_pollable pollable]
  | @ackTransmitting r _ _ _ _ _ stage =>
    have : r.stage ≠ .awaitingApsAck := by
      intro hs
      simp [hs, Unicasts.Stage.isTransmitting] at stage
    simp [Life.awaitsAck, this]
  | @tickUnicast r now =>
    have hsame : ({ unicast := some (r.requeue now) } : Life F W E).awaitsAck =
        ({ unicast := some r } : Life F W E).awaitsAck := by
      simp [Life.awaitsAck, Unicasts.Record.stage_requeue_awaiting]
    rw [hsame]
    exact ⟨fun h => h, Or.inl⟩
  | admitUnrouted | tickUnrouted | admitBroadcast | lendBroadcast | reportBroadcast
  | quorumNoted | tickBroadcast => simp [Life.awaitsAck, absent]
  | _ => simp [Life.live, absent] at hl'

end Steps

/-! ## Whole runs -/

section Runs

variable [FromSendFailure E] {id : SendId} {es : List (Event F W E)}
  {batches : List (Actions F W E)} {l : Life F W E}

omit [FromSendFailure E] in
theorem Life.live_eq_isSome_deadline (l : Life F W E) : l.live = l.deadline.isSome := by
  unfold live deadline
  cases l.unicast <;> cases l.unrouted <;> cases l.broadcast <;> rfl

theorem Life.Run.reportedOk_of_awaitsAck (h : Life.Run id es batches l)
    (hl : l.awaitsAck = true) : ∃ e ∈ es, e.reportsOk id = true := by
  induction h with
  | start => simp [Life.awaitsAck, absent] at hl
  | @step es _ l l' e _ hrun _ _ _ _ hstep ih =>
    have hlive : l'.live = true := by
      unfold Life.awaitsAck at hl
      cases hu : l'.unicast <;> simp_all [Life.live]
    rcases (hstep.awaitsAck hlive).2 hl with hbefore | hreport
    · obtain ⟨e', he', hreport⟩ := ih hbefore
      exact ⟨e', by simp [he'], hreport⟩
    · exact ⟨e, by simp, hreport⟩

/-- Until it waits for its ack, a send is under the deadline it was admitted with. -/
theorem Life.Run.deadline_le (h : Life.Run id es batches l) {d : Instant}
    (hd : l.deadline = some d) :
    ∃ e ∈ es, ∃ d₀, e.out.admitted = some id ∧ (e.after.life id).deadline = some d₀ ∧
      (l.awaitsAck = false → d ≤ d₀) := by
  induction h generalizing d with
  | start => simp at hd
  | @step es _ l l' e _ hrun hbefore hafter _ _ hstep ih =>
    have hlive : l'.live = true := by rw [Life.live_eq_isSome_deadline, hd]; rfl
    rcases hstep.kind hlive with ⟨hold, -⟩ | ⟨hadmitted, -⟩
    · rw [Life.live_eq_isSome_deadline] at hold
      obtain ⟨d₁, hd₁⟩ := Option.isSome_iff_exists.mp hold
      obtain ⟨e₀, he₀, d₀, hadmitted, hd₀, hle⟩ := ih hd₁
      refine ⟨e₀, by simp [he₀], d₀, hadmitted, hd₀, fun hacks => ?_⟩
      have hacks₁ : l.awaitsAck = false := by
        by_contra hnot
        have := (hstep.awaitsAck hlive).1 (by simpa using hnot)
        simp [hacks] at this
      rcases hstep.deadline_le hd₁ hd with hle₁ | ⟨-, hawaits⟩
      · exact le_trans hle₁ (hle hacks₁)
      · simp [hacks] at hawaits
    · exact ⟨e, by simp, d, hadmitted, hafter ▸ hd, fun _ => le_rfl⟩

theorem Life.Step.live_of_admitted {l' : Life F W E} {e : Event F W E}
    {actions : Actions F W E} (h : Life.Step id e l actions l')
    (hreturned : step e.before e.op = .ok (e.after, e.out))
    (hadmitted : e.out.admitted = some id) : l'.live = true := by
  rw [Life.live_eq_isSome_waiter]
  cases h.outcome (step_admitted hreturned) with
  | admitted _ _ _ waiter known => rw [waiter, known]
  | quiet hnot | handedOff hnot | settled hnot | abandoned hnot => exact absurd hadmitted hnot

/-- A loan is made before the current deadline, to a send that waits for no ack. -/
theorem Life.Step.lt_deadline_of_lent {l' : Life F W E} {e : Event F W E}
    {actions : Actions F W E} (h : Life.Step id e l actions l') (hl : l.Ok)
    (hreturned : step e.before e.op = .ok (e.after, e.out)) (hlent : e.lentId = some id)
    {now : Instant} (hop : e.op = .dequeue now) :
    ∃ d, l.deadline = some d ∧ l.awaitsAck = false ∧ now < d := by
  obtain ⟨now', hop', ⟨r, hr, hready, -⟩ | ⟨r, hr, hready, -⟩⟩ := h.of_lent hreturned hlent
  · cases hop.symm.trans hop'
    simp only [Unicasts.Record.ready, decide_eq_true_eq] at hready
    exact ⟨r.deadline, by simp [Life.deadline, hr], by simp [Life.awaitsAck, hr, hready.1],
      hready.2⟩
  · cases hop.symm.trans hop'
    simp only [Broadcasts.Record.ready, decide_eq_true_eq] at hready
    rw [hl.eq_broadcast hr]
    exact ⟨r.deadline, rfl, rfl, hready.2⟩

/-- A route moves a send before its deadline. -/
theorem Life.Step.lt_deadline_of_routed {l' : Life F W E} {e : Event F W E}
    {actions : Actions F W E} (h : Life.Step id e l actions l') {destination : Nwk}
    {now : Instant} {tunables : Tunables} {resolve : Resolve F E}
    (hop : e.op = .routeUnicasts destination now tunables resolve) (hl : l.unicast = none)
    (hl' : l'.unicast.isSome = true) :
    ∃ d, l.deadline = some d ∧ l.awaitsAck = false ∧ now < d := by
  cases h with
  | @routed r _ _ _ _ _ _ _ op deadline =>
    cases hop.symm.trans op
    exact ⟨r.deadline, rfl, rfl, deadline⟩
  | idle => simp [hl] at hl'
  | admitUnicast _ _ _ op => rcases op with ⟨op, -⟩ | ⟨b, op, -⟩ <;> simp [op] at hop
  | _ => simp_all [absent]

end Runs

/-- In every run and for every send: no event but an Ok report of its frame moves its
deadline later, so until then it is under the deadline it was admitted with, and neither
a loan nor a move to the unicasts happens at or past that deadline. -/
theorem deadline_never_extended [FromSendFailure E] {w : World F W E}
    {es : List (Event F W E)} (hrun : Run w es) {id : SendId} {admission : Event F W E}
    (hmem : admission ∈ es) (hadmitted : admission.out.admitted = some id) :
    ∃ d₀, (admission.after.life id).deadline = some d₀ ∧
      (∀ e ∈ es, e.reportsOk id = false → ∀ d d', (e.before.life id).deadline = some d →
        (e.after.life id).deadline = some d' → d' ≤ d) ∧
      (∀ pre e post, es = pre ++ e :: post → (∀ e' ∈ pre ++ [e], e'.reportsOk id = false) →
        ∀ d, (e.after.life id).deadline = some d → d ≤ d₀) ∧
      (∀ e ∈ es, ∀ now, e.op = .dequeue now → e.lentId = some id → now < d₀) ∧
      ∀ e ∈ es, ∀ destination now tunables resolve r,
        e.op = .routeUnicasts destination now tunables resolve → e.Enters id r → now < d₀ := by
  obtain ⟨_, hwhole⟩ := hrun.life id
  -- the admission puts a record into a table
  obtain ⟨d₀, hd₀⟩ : ∃ d₀, (admission.after.life id).deadline = some d₀ := by
    obtain ⟨pre, post, hsplit⟩ := List.append_of_mem hmem
    obtain ⟨_, _, -, hlives⟩ := hrun.event hsplit
    have hlive := (hlives id).2.2.live_of_admitted (hrun.returned admission hmem) hadmitted
    rw [Life.live_eq_isSome_deadline] at hlive
    exact Option.isSome_iff_exists.mp hlive
  -- a deadline found in a run is bounded by the one of the admission
  have hbound : ∀ {pre : List (Event F W E)} {batches l d}, Life.Run id pre batches l →
      (∀ e ∈ pre, e ∈ es) → l.deadline = some d → l.awaitsAck = false → d ≤ d₀ := by
    intro pre batches l d hlife hsub hd hacks
    obtain ⟨e₀, he₀, d₁, hadmitted₀, hd₁, hle⟩ := hlife.deadline_le hd
    rw [hwhole.admitted_unique (hsub e₀ he₀) hmem hadmitted₀ hadmitted, hd₀] at hd₁
    exact Option.some.inj hd₁ ▸ hle hacks
  refine ⟨d₀, hd₀, ?_, ?_, ?_, ?_⟩
  · intro e he hreport d d' hd hd'
    obtain ⟨pre, post, hsplit⟩ := List.append_of_mem he
    obtain ⟨_, _, -, hlives⟩ := hrun.event hsplit
    rcases (hlives id).2.2.deadline_le hd hd' with hle | ⟨hnot, -⟩
    · exact hle
    · simp [hreport] at hnot
  · intro pre e post hsplit hreports d hd
    obtain ⟨_, _, -, hlives⟩ := hrun.event hsplit
    refine hbound (hlives id).1 (fun e' he' => mem_of_upTo hsplit he') hd ?_
    by_contra hacks
    obtain ⟨e', he', hreport⟩ := (hlives id).1.reportedOk_of_awaitsAck (by simpa using hacks)
    simp [hreports e' he'] at hreport
  · intro e he now hop hlent
    obtain ⟨pre, post, hsplit⟩ := List.append_of_mem he
    obtain ⟨_, _, -, hlives⟩ := hrun.event hsplit
    obtain ⟨d, hd, hacks, hlt⟩ := (hlives id).2.2.lt_deadline_of_lent (hlives id).2.1.ok
      (hrun.returned e he) hlent hop
    exact lt_of_lt_of_le hlt (hbound (hlives id).2.1 (by simp +contextual [hsplit]) hd hacks)
  · intro e he destination now tunables resolve r hop henters
    obtain ⟨pre, post, hsplit⟩ := List.append_of_mem he
    obtain ⟨_, _, -, hlives⟩ := hrun.event hsplit
    obtain ⟨d, hd, hacks, hlt⟩ := (hlives id).2.2.lt_deadline_of_routed hop henters.1
      (by simp [henters.2])
    exact lt_of_lt_of_le hlt (hbound (hlives id).2.1 (by simp +contextual [hsplit]) hd hacks)

/-- An unrouted send whose route is found, and which then fails once and is retried. -/
def routedCalls : List (Op Nat Nat SendFailure) :=
  let unrouted : UnroutedUnicast Nat Nat :=
    { frame := 8, priority := .userNormal, waiter := 101, confirm := .onHandoff,
      destination := 2 }
  [.enqueueUnroutedUnicast unrouted 0 {},
    .routeUnicasts 2 5 {} (fun _ frame => (frame, .ok (3, none))), .dequeue 6,
    .transmitted ⟨0, 8, .unicast 3 false⟩ (.error .cancelled) 7 10 10, .tick 20, .dequeue 21]

theorem routedCalls_return : (replay World.empty routedCalls).isSome = true := by
  decide +kernel

theorem deadline_never_extended_routed :
    ∃ (w : World Nat Nat SendFailure) (es : List (Event Nat Nat SendFailure)), Run w es ∧
      loans 0 es = 2 ∧ ∀ e ∈ es, ∀ now, e.op = .dequeue now → e.lentId = some 0 →
        now < 30000000 := by
  have hrun := run_outcome routedCalls routedCalls_return
  obtain ⟨d₀, hd₀, -, -, hlent, -⟩ := deadline_never_extended hrun
    (List.get_mem (outcome routedCalls routedCalls_return).2 ⟨0, by decide +kernel⟩)
    (show _ = some 0 from rfl)
  obtain rfl : 30000000 = d₀ := Option.some.inj hd₀
  exact ⟨_, _, hrun, by decide +kernel, hlent⟩

end Ziggurat
