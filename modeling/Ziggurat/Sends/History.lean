import Ziggurat.Sends.Refinement.Runs

/-!
# What a waiter hears

A send says at most three things to its waiter: that it was handed off, that it
was handed off once more just before the verdict, and the verdict.  `Outcome`
classifies the steps of a life by what the waiter hears, and `Phase` is the
state of that conversation after a run.  `Life.Run.phase` is the run lemma.

The batches matter, not only the concatenation: the driver runs each batch on its
own, so `Phase` says which actions came in one batch.
-/

namespace Ziggurat

variable {F W E : Type}

namespace Life

/-- The waiter of a live send. -/
def waiter (l : Life F W E) : Option W :=
  match l.unicast, l.unrouted, l.broadcast with
  | some r, _, _ => some r.waiter
  | none, some r, _ => some r.waiter
  | none, none, some r => some r.waiter
  | none, none, none => none

/-- The send was handed off and is still live. -/
def handed (l : Life F W E) : Bool :=
  l.unicast.any (fun r => r.stage = .awaitingApsAck) || l.broadcast.any (·.handedOff)

@[simp] theorem waiter_absent : (absent : Life F W E).waiter = none := rfl

@[simp] theorem handed_absent : (absent : Life F W E).handed = false := rfl

@[simp] theorem waiter_unicast (r : Unicasts.Record F W) (tokens : List (InFlight F)) :
    ({ unicast := some r, tokens } : Life F W E).waiter = some r.waiter := rfl

@[simp] theorem waiter_unrouted (r : UnroutedUnicasts.Record F W) :
    ({ unrouted := some r } : Life F W E).waiter = some r.waiter := rfl

@[simp] theorem waiter_broadcast (r : Broadcasts.Record F W E) (tokens : List (InFlight F)) :
    ({ broadcast := some r, tokens } : Life F W E).waiter = some r.waiter := rfl

@[simp] theorem handed_unicast (r : Unicasts.Record F W) (tokens : List (InFlight F)) :
    ({ unicast := some r, tokens } : Life F W E).handed =
      decide (r.stage = .awaitingApsAck) := by
  simp [handed]

@[simp] theorem handed_unrouted (r : UnroutedUnicasts.Record F W) :
    ({ unrouted := some r } : Life F W E).handed = false := rfl

@[simp] theorem handed_broadcast (r : Broadcasts.Record F W E) (tokens : List (InFlight F)) :
    ({ broadcast := some r, tokens } : Life F W E).handed = r.handedOff := by
  simp [handed]

theorem handed_of_waiter_eq_none {l : Life F W E} (h : l.waiter = none) :
    l.handed = false := by
  unfold waiter at h
  cases hu : l.unicast <;> cases hr : l.unrouted <;> cases hb : l.broadcast <;>
    simp_all [handed]

theorem live_eq_isSome_waiter (l : Life F W E) : l.live = l.waiter.isSome := by
  unfold live waiter
  cases l.unicast <;> cases l.unrouted <;> cases l.broadcast <;> rfl

end Life

/-- The call is `abandon`. -/
def Op.isAbandon : Op F W E → Bool
  | .abandon => true
  | _ => false

/-! ## One step -/

/-- A step of a life by what its waiter hears. -/
inductive Life.Outcome (id : SendId) (e : Event F W E) (l : Life F W E)
    (actions : Actions F W E) (l' : Life F W E) : Prop where
  | quiet (admitted : e.out.admitted ≠ some id) (silent : actions = [])
      (waiter : l'.waiter = l.waiter) (handed : l'.handed = l.handed)
      (kept : e.op.isAbandon = true → l.waiter = none)
  | admitted (admitted : e.out.admitted = some id) (silent : actions = [])
      (before : l.waiter = none) (waiter : l'.waiter = e.op.waiter)
      (known : e.op.waiter.isSome = true) (handed : l'.handed = false)
  | handedOff {waiter : W} (admitted : e.out.admitted ≠ some id)
      (said : actions = [.handedOff waiter]) (before : l.waiter = some waiter)
      (after : l'.waiter = some waiter) (first : l.handed = false) (handed : l'.handed = true)
      (kept : e.op.isAbandon = false)
  /-- The verdict repeats the handoff if there was one, and may come with the
  first one. -/
  | settled {waiter : W} {result : Except E Unit} {frame : F} {failedHop : Option Nwk}
      (admitted : e.out.admitted ≠ some id)
      (said : actions = [.settled waiter result frame failedHop] ∧ l.handed = false ∨
        actions = [.handedOff waiter, .settled waiter result frame failedHop])
      (before : l.waiter = some waiter) (after : l' = .absent)
      (kept : e.op.isAbandon = false)
  | abandoned {waiter : W} (admitted : e.out.admitted ≠ some id) (silent : actions = [])
      (before : l.waiter = some waiter) (after : l' = .absent)
      (op : e.op.isAbandon = true)

/-- The verdict of a unicast repeats the handoff exactly after one. -/
theorem Unicasts.Record.verdict_cases (r : Unicasts.Record F W) (result : Except E Unit)
    (frame : F) (failedHop : Option Nwk) :
    r.verdict result frame failedHop = [.settled r.waiter result frame failedHop] ∧
        decide (r.stage = .awaitingApsAck) = false ∨
      r.verdict result frame failedHop =
        [.handedOff r.waiter, .settled r.waiter result frame failedHop] := by
  unfold Unicasts.Record.verdict
  split_ifs with hstage
  · exact Or.inr rfl
  · exact Or.inl ⟨rfl, by simpa using hstage⟩

/-- The verdict of a broadcast repeats the handoff exactly after one. -/
theorem Broadcasts.Record.settlement_cases (r : Broadcasts.Record F W E)
    (result : Except E Unit) (frame : F) :
    r.settlement result frame = [.settled r.waiter result frame none] ∧ r.handedOff = false ∨
      r.settlement result frame =
        [.handedOff r.waiter, .settled r.waiter result frame none] := by
  unfold Broadcasts.Record.settlement
  split_ifs with hoff
  · exact Or.inr rfl
  · exact Or.inl ⟨rfl, by simpa using hoff⟩

theorem Unicasts.Record.stage_requeue_awaiting {r : Unicasts.Record F W} {now : Instant} :
    (r.requeue now).stage = .awaitingApsAck ↔ r.stage = .awaitingApsAck := by
  unfold Unicasts.Record.requeue
  split
  · rename_i hs
    split <;> simp [hs]
  · rfl

@[simp] theorem Unicasts.Record.waiter_requeue (r : Unicasts.Record F W) (now : Instant) :
    (r.requeue now).waiter = r.waiter := by
  unfold Unicasts.Record.requeue
  split
  · split <;> rfl
  · rfl

/-- A retry that is due does not change the verdict. -/
theorem Unicasts.Record.verdict_requeue (r : Unicasts.Record F W) (now : Instant)
    (result : Except E Unit) (frame : F) (failedHop : Option Nwk) :
    (r.requeue now).verdict result frame failedHop = r.verdict result frame failedHop := by
  simp [Unicasts.Record.verdict, Unicasts.Record.stage_requeue_awaiting]

@[simp] theorem Broadcasts.Record.waiter_advance (r : Broadcasts.Record F W E)
    (now : Instant) : (r.advance now).1.waiter = r.waiter := by
  unfold Broadcasts.Record.advance
  split <;> rfl

/-- A copy that is due does not change how a verdict is told. -/
theorem Broadcasts.Record.settlement_advance (r : Broadcasts.Record F W E) (now : Instant)
    (result : Except E Unit) (frame : F) :
    (r.advance now).1.settlement result frame = r.settlement result frame := by
  simp [Broadcasts.Record.settlement]

/-- A unicast that is settled in place. -/
private theorem outcome_verdict {id : SendId} {e : Event F W E} {r : Unicasts.Record F W}
    {tokens : List (InFlight F)} (result : Except E Unit) (frame : F) (failedHop : Option Nwk)
    (hadmitted : e.out.admitted ≠ some id) (hop : e.op.isAbandon = false) :
    Life.Outcome id e { unicast := some r, tokens } (r.verdict result frame failedHop)
      .absent := by
  have hsaid := r.verdict_cases result frame failedHop
  rw [← Life.handed_unicast (E := E) r tokens] at hsaid
  exact .settled hadmitted hsaid rfl rfl hop

/-- A broadcast that is settled in place. -/
private theorem outcome_settlement {id : SendId} {e : Event F W E}
    {r : Broadcasts.Record F W E} {tokens : List (InFlight F)} (result : Except E Unit)
    (frame : F) (hadmitted : e.out.admitted ≠ some id) (hop : e.op.isAbandon = false) :
    Life.Outcome id e { broadcast := some r, tokens } (r.settlement result frame) .absent := by
  have hsaid := r.settlement_cases result frame
  rw [← Life.handed_broadcast r tokens] at hsaid
  exact .settled hadmitted hsaid rfl rfl hop

/-- A report on a unicast, by what its waiter hears. -/
private theorem outcome_reportUnicast {id : SendId} {e : Event F W E}
    {r : Unicasts.Record F W} {tokens : List (InFlight F)} {acked : Bool} {frame : F}
    {result : Except E Unit} {now : Instant} {retryDelay : Duration}
    (hadmitted : e.out.admitted ≠ some id) (hop : e.op.isAbandon = false)
    (hstage : r.stage = .transmitting acked) :
    Life.Outcome id e { unicast := some r, tokens }
      (r.report acked frame result now retryDelay).2
      { unicast := (r.report acked frame result now retryDelay (E := E)).1 } := by
  have hhanded : ({ unicast := some r, tokens } : Life F W E).handed = false := by
    simp [hstage]
  have haccept : ∀ acked, Life.Outcome id e { unicast := some r, tokens }
      (r.accept frame now acked).2 { unicast := (r.accept frame now acked (E := E)).1 } := by
    intro acked
    unfold Unicasts.Record.accept
    split
    · exact .handedOff hadmitted rfl rfl rfl hhanded (by simp) hop
    · exact .settled hadmitted (Or.inl ⟨rfl, hhanded⟩) rfl rfl hop
  unfold Unicasts.Record.report
  cases result with
  | ok => exact haccept acked
  | error err =>
    dsimp only
    split
    · exact haccept acked
    · unfold Unicasts.Record.reject
      split <;> split
      · exact .quiet hadmitted rfl rfl (by simp [hstage]) (by simp [hop])
      · exact .settled hadmitted (Or.inl ⟨rfl, hhanded⟩) rfl rfl hop
      · exact .settled hadmitted (Or.inl ⟨rfl, hhanded⟩) rfl rfl hop
      · exact .quiet hadmitted rfl rfl (by simp [hstage]) (by simp [hop])

/-- A report on a broadcast, by what its waiter hears. -/
private theorem outcome_reportBroadcast {id : SendId} {e : Event F W E}
    {r : Broadcasts.Record F W E} {tokens : List (InFlight F)} {frame : F}
    {result : Except E Unit} {now : Instant} {interval : Duration}
    (hadmitted : e.out.admitted ≠ some id) (hop : e.op.isAbandon = false) :
    Life.Outcome id e { broadcast := some r, tokens }
      (r.report frame result now interval).2
      { broadcast := (r.report frame result now interval).1 } := by
  unfold Broadcasts.Record.report
  split
  · exact outcome_settlement result frame hadmitted hop
  · dsimp only
    split
    · rename_i hquorum
      have hoff : (r.reported frame result now interval).handedOff = true := by
        simp only [Bool.and_eq_true] at hquorum
        exact hquorum.2
      rcases (r.reported frame result now interval).settlement_cases (.ok ()) frame with
        ⟨-, hnot⟩ | hsaid
      · simp [hnot] at hoff
      · exact .settled hadmitted (Or.inr hsaid) rfl rfl hop
    · split
      · rename_i hfirst
        simp only [Bool.and_eq_true, Bool.not_eq_true'] at hfirst
        exact .handedOff hadmitted rfl rfl rfl (by simpa using hfirst.2)
          (by simp [Broadcasts.Record.reported, hfirst.1]) hop
      · rename_i hfirst
        refine .quiet hadmitted rfl rfl ?_ (by simp [hop])
        cases result <;> simp_all [Broadcasts.Record.reported, Except.isOk, Except.toBool]

/-- Every step of a sound life is one of the outcomes. -/
theorem Life.Step.outcome [FromSendFailure E] {id : SendId} {e : Event F W E}
    {l l' : Life F W E} {actions : Actions F W E} (h : Life.Step id e l actions l')
    (hadmits : e.out.admitted.isSome = e.op.waiter.isSome) :
    Life.Outcome id e l actions l' := by
  -- only an admission returns an id
  have hno : ∀ {op : Op F W E}, e.op = op → op.waiter = none → e.out.admitted ≠ some id := by
    intro op hop hwaiter hsome
    simp [hop, hwaiter, hsome] at hadmits
  cases h with
  | idle quiet =>
    refine .quiet quiet.admitted rfl rfl rfl (fun habandon => ?_)
    have := quiet.sweeps
    cases hop : e.op <;> simp_all [Op.isAbandon, Op.sweeps]
  | tickIdle op => exact .quiet (hno op rfl) rfl rfl rfl (by simp [op, Op.isAbandon])
  | abandoned op =>
    cases hw : l.waiter with
    | none =>
      exact .quiet (hno op rfl) rfl hw.symm (Life.handed_of_waiter_eq_none hw).symm
        (fun _ => hw)
    | some waiter => exact .abandoned (hno op rfl) rfl hw rfl (by simp [op, Op.isAbandon])
  | admitUnicast admitted waiter =>
    refine .admitted admitted rfl rfl waiter.symm (by simp [waiter]) ?_
    rw [handed_unicast, Unicasts.stage_newRecord]
    split <;> rfl
  | admitUnrouted admitted op =>
    exact .admitted admitted rfl rfl (by rw [op]; rfl) (by rw [op]; rfl) rfl
  | admitBroadcast admitted op =>
    exact .admitted admitted rfl rfl (by rw [op]; rfl) (by rw [op]; rfl)
      (by simp [Broadcasts.newRecord])
  | lendUnicast op _ _ ready =>
    simp only [Unicasts.Record.ready, decide_eq_true_eq] at ready
    exact .quiet (hno op rfl) rfl rfl (by simp [Unicasts.Record.lend, ready.1])
      (by simp [op, Op.isAbandon])
  | reportUnicast op _ _ stage =>
    exact outcome_reportUnicast (hno op rfl) (by rw [op]; rfl) stage
  | pollUnicast op _ _ pollable =>
    exact .quiet (hno op rfl) rfl rfl
      (by simp [Unicasts.Record.polled, Unicasts.Record.stage_of_pollable pollable])
      (by simp [op, Op.isAbandon])
  | @ackTransmitting r _ _ op _ _ stage =>
    refine .quiet (hno op rfl) rfl rfl ?_ (by simp [op, Op.isAbandon])
    cases hs : r.stage <;> simp_all [Unicasts.Stage.isTransmitting]
  | ackSettle op | dropUnicast op | cancelUnicast op =>
    exact outcome_verdict _ _ _ (hno op rfl) (by rw [op]; rfl)
  | tickUnicast op =>
    exact .quiet (hno op rfl) rfl (by simp)
      (by simp [Unicasts.Record.stage_requeue_awaiting]) (by simp [op, Op.isAbandon])
  | lapseUnicast op =>
    rw [Unicasts.Record.verdict_requeue]
    exact outcome_verdict _ _ _ (hno op rfl) (by rw [op]; rfl)
  | @routed r now tunables resolve k frame nextHop pollAddress op =>
    refine .quiet (hno op rfl) rfl rfl ?_ (by simp [op, Op.isAbandon])
    rw [handed_unicast, Unicasts.stage_newRecord]
    split <;> rfl
  | routeFailed op | failUnrouted op | cancelUnrouted op =>
    exact .settled (hno op rfl) (Or.inl ⟨rfl, rfl⟩) rfl rfl (by rw [op]; rfl)
  | lapseUnrouted op =>
    rcases op with op | ⟨destination, tunables, resolve, op⟩ <;>
      exact .settled (hno op rfl) (Or.inl ⟨rfl, rfl⟩) rfl rfl (by rw [op]; rfl)
  | tickUnrouted op => exact .quiet (hno op rfl) rfl rfl rfl (by simp [op, Op.isAbandon])
  | lendBroadcast op =>
    exact .quiet (hno op rfl) rfl rfl (by simp [Broadcasts.Record.lend])
      (by simp [op, Op.isAbandon])
  | reportBroadcast op => exact outcome_reportBroadcast (hno op rfl) (by rw [op]; rfl)
  | quorumNoted op =>
    exact .quiet (hno op rfl) rfl rfl (by simp) (by simp [op, Op.isAbandon])
  | quorumSettle op | cancelBroadcast op =>
    exact outcome_settlement _ _ (hno op rfl) (by rw [op]; rfl)
  | tickBroadcast op =>
    exact .quiet (hno op rfl) rfl (by simp) (by simp) (by simp [op, Op.isAbandon])
  | lapseBroadcast op =>
    rw [Broadcasts.Record.settlement_advance]
    exact outcome_settlement _ _ (hno op rfl) (by rw [op]; rfl)

/-! ## Whole runs -/

/-- The waiter of `id`, if the event admits it. -/
def Event.admittedWaiter (id : SendId) (e : Event F W E) : Option W :=
  if e.out.admitted = some id then e.op.waiter else none

/-- The waiters that `id` was admitted with. -/
def admittedWaiters (id : SendId) (es : List (Event F W E)) : List W :=
  es.filterMap (Event.admittedWaiter id)

/-- How often `id` was live when the tables were emptied. -/
def abandonments (id : SendId) (es : List (Event F W E)) : Nat :=
  es.countP (fun e => e.op.isAbandon && (e.before.life id).live)

/-- The batches that say something. -/
def spoken (batches : List (Actions F W E)) : List (Actions F W E) :=
  batches.filter (fun batch => !batch.isEmpty)

/-- Where the conversation of a send with its waiter is after a run. -/
inductive Phase (id : SendId) (es : List (Event F W E)) (said : List (Actions F W E))
    (l : Life F W E) : Prop where
  | unborn (waiters : admittedWaiters id es = []) (said : said = []) (ended : l.waiter = none)
      (kept : abandonments id es = 0)
  | waiting {waiter : W} (waiters : admittedWaiters id es = [waiter]) (said : said = [])
      (live : l.waiter = some waiter) (handed : l.handed = false)
      (kept : abandonments id es = 0)
  | handed {waiter : W} (waiters : admittedWaiters id es = [waiter])
      (said : said = [[.handedOff waiter]]) (live : l.waiter = some waiter)
      (handed : l.handed = true) (kept : abandonments id es = 0)
  | settled {waiter : W} {result : Except E Unit} {frame : F} {failedHop : Option Nwk}
      (waiters : admittedWaiters id es = [waiter])
      (said : said = [[.settled waiter result frame failedHop]] ∨
        said = [[.handedOff waiter, .settled waiter result frame failedHop]] ∨
        said = [[.handedOff waiter],
          [.handedOff waiter, .settled waiter result frame failedHop]])
      (ended : l.waiter = none) (kept : abandonments id es = 0)
  | abandoned {waiter : W} (waiters : admittedWaiters id es = [waiter])
      (said : said = [] ∨ said = [[.handedOff waiter]]) (ended : l.waiter = none)
      (left : abandonments id es = 1)

theorem spoken_append (batches : List (Actions F W E)) (actions : Actions F W E) :
    spoken (batches ++ [actions]) =
      spoken batches ++ if actions.isEmpty then [] else [actions] := by
  cases actions <;> simp [spoken]

theorem flatten_spoken (batches : List (Actions F W E)) :
    (spoken batches).flatten = batches.flatten := by
  induction batches with
  | nil => rfl
  | cons b batches ih => cases b <;> simp [spoken] at ih ⊢ <;> exact ih

theorem admittedWaiters_append (id : SendId) (es : List (Event F W E)) (e : Event F W E) :
    admittedWaiters id (es ++ [e]) =
      admittedWaiters id es ++ (e.admittedWaiter id).toList := by
  simp only [admittedWaiters, List.filterMap_append]
  cases h : e.admittedWaiter id <;> simp [h]

theorem admittedWaiter_of_ne {id : SendId} {e : Event F W E} (h : e.out.admitted ≠ some id) :
    e.admittedWaiter id = none :=
  if_neg h

theorem abandonments_append (id : SendId) (es : List (Event F W E)) (e : Event F W E) :
    abandonments id (es ++ [e]) =
      abandonments id es + if e.op.isAbandon && (e.before.life id).live then 1 else 0 := by
  simp [abandonments, List.countP_append, List.countP_singleton]

/-- A known waiter was admitted by some event. -/
theorem exists_of_mem_admittedWaiters {id : SendId} {es : List (Event F W E)} {waiter : W}
    (h : waiter ∈ admittedWaiters id es) :
    ∃ e ∈ es, e.out.admitted = some id ∧ e.op.waiter = some waiter := by
  obtain ⟨e, he, hwaiter⟩ := List.mem_filterMap.mp h
  unfold Event.admittedWaiter at hwaiter
  split_ifs at hwaiter with hadmitted
  exact ⟨e, he, hadmitted, hwaiter⟩

/-- One more event moves the conversation on. -/
theorem Phase.step {id : SendId} {es : List (Event F W E)} {said : List (Actions F W E)}
    {l l' : Life F W E} {e : Event F W E} {actions : Actions F W E} (h : Phase id es said l)
    (hbefore : e.before.life id = l)
    (honce : e.out.admitted = some id → ∀ e' ∈ es, e'.out.admitted ≠ some id)
    (houtcome : Life.Outcome id e l actions l') :
    Phase id (es ++ [e]) (said ++ if actions.isEmpty then [] else [actions]) l' := by
  have hlive : (e.before.life id).live = l.waiter.isSome := by
    rw [hbefore, Life.live_eq_isSome_waiter]
  cases houtcome with
  | quiet hadmitted hsilent hwaiter hhanded hkept =>
    have hwaiters : admittedWaiters id (es ++ [e]) = admittedWaiters id es := by
      simp [admittedWaiters_append, admittedWaiter_of_ne hadmitted]
    have habandon : abandonments id (es ++ [e]) = abandonments id es := by
      rw [abandonments_append, hlive]
      cases hop : e.op.isAbandon with
      | false => rfl
      | true => simp [hkept hop]
    subst hsilent
    simp only [List.isEmpty_nil, if_true, List.append_nil]
    cases h with
    | unborn h1 h2 h3 h4 =>
      exact .unborn (hwaiters.trans h1) h2 (hwaiter.trans h3) (habandon.trans h4)
    | waiting h1 h2 h3 h4 h5 =>
      exact .waiting (hwaiters.trans h1) h2 (hwaiter.trans h3) (hhanded.trans h4)
        (habandon.trans h5)
    | handed h1 h2 h3 h4 h5 =>
      exact .handed (hwaiters.trans h1) h2 (hwaiter.trans h3) (hhanded.trans h4)
        (habandon.trans h5)
    | settled h1 h2 h3 h4 =>
      exact .settled (hwaiters.trans h1) h2 (hwaiter.trans h3) (habandon.trans h4)
    | abandoned h1 h2 h3 h4 =>
      exact .abandoned (hwaiters.trans h1) h2 (hwaiter.trans h3) (habandon.trans h4)
  | admitted hadmitted hsilent hbefore' hwaiter hknown hhanded =>
    obtain ⟨waiter, hop⟩ := Option.isSome_iff_exists.mp hknown
    have hnew : ∀ waiter, admittedWaiters id es ≠ [waiter] := by
      intro waiter heq
      have hmem : waiter ∈ admittedWaiters id es := by simp [heq]
      obtain ⟨e', he', hsame, -⟩ := exists_of_mem_admittedWaiters hmem
      exact honce hadmitted e' he' hsame
    have hkept : abandonments id (es ++ [e]) = abandonments id es := by
      simp [abandonments_append, hlive, hbefore']
    subst hsilent
    simp only [List.isEmpty_nil, if_true, List.append_nil]
    cases h with
    | unborn h1 h2 h3 h4 =>
      have hwaiters : admittedWaiters id (es ++ [e]) = [waiter] := by
        simp [admittedWaiters_append, h1, Event.admittedWaiter, hadmitted, hop]
      exact .waiting hwaiters h2 (hwaiter.trans hop) hhanded (hkept.trans h4)
    | waiting h1 | handed h1 | settled h1 | abandoned h1 => exact absurd h1 (hnew _)
  | handedOff hadmitted hsaid hbefore' hafter hfirst hhanded hkept =>
    have hwaiters : admittedWaiters id (es ++ [e]) = admittedWaiters id es := by
      simp [admittedWaiters_append, admittedWaiter_of_ne hadmitted]
    have habandon : abandonments id (es ++ [e]) = abandonments id es := by
      simp [abandonments_append, hkept]
    cases h with
    | unborn _ _ h3 | settled _ _ h3 | abandoned _ _ h3 =>
      exact absurd (h3.symm.trans hbefore') (by simp)
    | waiting h1 h2 h3 h4 h5 =>
      obtain rfl := Option.some.inj (h3.symm.trans hbefore')
      exact .handed (hwaiters.trans h1) (by simp [h2, hsaid]) hafter hhanded (habandon.trans h5)
    | handed _ _ _ h4 => simp [hfirst] at h4
  | settled hadmitted hsaid hbefore' hafter hkept =>
    have hwaiters : admittedWaiters id (es ++ [e]) = admittedWaiters id es := by
      simp [admittedWaiters_append, admittedWaiter_of_ne hadmitted]
    have habandon : abandonments id (es ++ [e]) = abandonments id es := by
      simp [abandonments_append, hkept]
    subst hafter
    cases h with
    | unborn _ _ h3 | settled _ _ h3 | abandoned _ _ h3 =>
      exact absurd (h3.symm.trans hbefore') (by simp)
    | waiting h1 h2 h3 h4 h5 =>
      obtain rfl := Option.some.inj (h3.symm.trans hbefore')
      subst h2
      rcases hsaid with ⟨rfl, -⟩ | rfl
      · exact .settled (hwaiters.trans h1) (Or.inl rfl) rfl (habandon.trans h5)
      · exact .settled (hwaiters.trans h1) (Or.inr (Or.inl rfl)) rfl (habandon.trans h5)
    | handed h1 h2 h3 h4 h5 =>
      obtain rfl := Option.some.inj (h3.symm.trans hbefore')
      subst h2
      rcases hsaid with ⟨-, hfirst⟩ | rfl
      · simp [hfirst] at h4
      · exact .settled (hwaiters.trans h1) (Or.inr (Or.inr rfl)) rfl (habandon.trans h5)
  | abandoned hadmitted hsilent hbefore' hafter hop =>
    have hwaiters : admittedWaiters id (es ++ [e]) = admittedWaiters id es := by
      simp [admittedWaiters_append, admittedWaiter_of_ne hadmitted]
    have habandon : abandonments id (es ++ [e]) = abandonments id es + 1 := by
      simp [abandonments_append, hop, hlive, hbefore']
    subst hafter hsilent
    simp only [List.isEmpty_nil, if_true, List.append_nil]
    cases h with
    | unborn _ _ h3 | settled _ _ h3 | abandoned _ _ h3 =>
      exact absurd (h3.symm.trans hbefore') (by simp)
    | waiting h1 h2 _ _ h5 =>
      exact .abandoned (hwaiters.trans h1) (Or.inl h2) rfl (by rw [habandon, h5])
    | handed h1 h2 _ _ h5 =>
      exact .abandoned (hwaiters.trans h1) (Or.inr h2) rfl (by rw [habandon, h5])

/-- The conversation of every send after every run. -/
theorem Life.Run.phase [FromSendFailure E] {id : SendId} {es : List (Event F W E)}
    {batches : List (Actions F W E)} {l : Life F W E} (h : Life.Run id es batches l) :
    Phase id es (spoken batches) l := by
  induction h with
  | start => exact .unborn rfl rfl rfl rfl
  | step _ hbefore _ hreturned honce hstep ih =>
    rw [spoken_append]
    exact ih.step hbefore honce (hstep.outcome (step_admitted hreturned))

end Ziggurat
