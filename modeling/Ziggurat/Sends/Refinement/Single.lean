import Ziggurat.Sends.UnicastsSpec
import Ziggurat.Sends.BroadcastsSpec
import Ziggurat.Sends.UnroutedSpec

/-!
# Calls that touch one send

The link between the two layers.  From a world in which every life keeps its
invariant, a legal call returns, and what it does is, for every id at once, one
step of `Life.Step`; this is `Refines`.  The actions of the call are a log tagged
with ids, so that what a step emits for one id is the projection of that log.

This module has the verbs that touch at most one send, and those of a discovery.
For every other id the step is `idle` and the life is unchanged.
-/

namespace Ziggurat

open Lib.TagLog

variable {F W E : Type}

/-! ## Reading a life off its invariant -/

namespace Life

variable {l : Life F W E}

theorem Ok.eq_unicast (h : l.Ok) {r : Unicasts.Record F W} (hr : l.unicast = some r) :
    l = { unicast := some r, tokens := l.tokens } := by
  obtain ⟨hunrouted, hbroadcast, -⟩ := h.unicast r hr
  exact Life.ext hr hunrouted hbroadcast rfl

theorem Ok.eq_unicast_held (h : l.Ok) {r : Unicasts.Record F W} (hr : l.unicast = some r)
    (hstage : r.stage.isTransmitting = false) : l = { unicast := some r } := by
  obtain ⟨hunrouted, hbroadcast, hok⟩ := h.unicast r hr
  exact Life.ext hr hunrouted hbroadcast (hok.held hstage).2

theorem Ok.eq_unrouted (h : l.Ok) {r : UnroutedUnicasts.Record F W}
    (hr : l.unrouted = some r) : l = { unrouted := some r } := by
  obtain ⟨hbroadcast, htokens⟩ := h.unrouted r hr
  have hunicast : l.unicast = none := by
    by_contra hsome
    obtain ⟨u, hu⟩ := Option.ne_none_iff_exists'.mp hsome
    simp [(h.unicast u hu).1] at hr
  exact Life.ext hunicast hr hbroadcast htokens

theorem Ok.eq_broadcast (h : l.Ok) {r : Broadcasts.Record F W E} (hr : l.broadcast = some r) :
    l = { broadcast := some r, tokens := l.tokens } := by
  have hunicast : l.unicast = none := by
    by_contra hsome
    obtain ⟨u, hu⟩ := Option.ne_none_iff_exists'.mp hsome
    simp [(h.unicast u hu).2.1] at hr
  have hunrouted : l.unrouted = none := by
    by_contra hsome
    obtain ⟨u, hu⟩ := Option.ne_none_iff_exists'.mp hsome
    simp [(h.unrouted u hu).1] at hr
  exact Life.ext hunicast hunrouted hr rfl

theorem Ok.eq_broadcast_held (h : l.Ok) {r : Broadcasts.Record F W E}
    (hr : l.broadcast = some r) (hcopy : r.copy ≠ .transmitting) :
    l = { broadcast := some r } := by
  have hl := h.eq_broadcast hr
  rwa [((h.broadcast r hr).held hcopy).2] at hl

/-- A token is out for a record in the radio, in the table its way of sending
names. -/
theorem Ok.of_token (h : l.Ok) {token : InFlight F} (htoken : token ∈ l.tokens) :
    (∃ r acked, l = { unicast := some r, tokens := [token] } ∧
      r.stage = .transmitting acked ∧ token.transmit ≠ .broadcast) ∨
    ∃ r, l = { broadcast := some r, tokens := [token] } ∧ r.copy = .transmitting ∧
      token.transmit = .broadcast := by
  cases hu : l.unicast with
  | some r =>
    obtain ⟨-, -, hr⟩ := h.unicast r hu
    have hl := h.eq_unicast hu
    cases hs : r.stage with
    | transmitting acked =>
      obtain ⟨-, token', htokens, hway⟩ := hr.lent (by rw [hs]; rfl)
      obtain rfl : token = token' := by simpa [htokens] using htoken
      exact Or.inl ⟨r, acked, by rw [hl, htokens], hs, hway⟩
    | _ =>
      have htokens := (hr.held (by rw [hs]; rfl)).2
      simp [htokens] at htoken
  | none =>
    cases hb : l.broadcast with
    | some r =>
      have hr := h.broadcast r hb
      have hl := h.eq_broadcast hb
      by_cases hcopy : r.copy = .transmitting
      · obtain ⟨-, token', htokens, hway⟩ := hr.lent hcopy
        obtain rfl : token = token' := by simpa [htokens] using htoken
        exact Or.inr ⟨r, by rw [hl, htokens], hcopy, hway⟩
      · simp [(hr.held hcopy).2] at htoken
    | none => simp [h.tokens hu hb] at htoken

end Life

theorem World.life_eq_absent_iff {w : World F W E} {i : SendId} :
    w.life i = .absent ↔ w.sends.unicasts.records.get i = none ∧
      w.sends.unroutedUnicasts.records.get i = none ∧
      w.sends.broadcasts.records.get i = none ∧
      w.inFlight.filter (fun token => token.id = i) = [] := by
  simp only [World.life, Life.absent, Life.mk.injEq]

/-- The invariant of a world: every life is sound, and ids at or past the counter
are unused. -/
structure World.Ok (w : World F W E) : Prop where
  lives : ∀ i, (w.life i).Ok
  fresh : ∀ i, w.sends.nextId ≤ i → w.life i = .absent

theorem World.ok_empty : (World.empty : World F W E).Ok :=
  ⟨fun _ => Life.ok_absent, fun _ _ => rfl⟩

namespace World.Ok

variable {w : World F W E}

theorem held (h : w.Ok) : w.sends.unicasts.Held :=
  fun id r hr hstage => (((h.lives id).unicast r hr).2.2.held hstage).1

theorem sound (h : w.Ok) : w.sends.broadcasts.Sound :=
  fun id r hr => ⟨_, (h.lives id).broadcast r hr⟩

end World.Ok

/-! ## One lemma for each verb -/

/-- A call returned and did, for every id, one step of its life. -/
structure Refines [FromSendFailure E] (w : World F W E) (op : Op F W E) (w' : World F W E)
    (out : Output F W E) (log : List (SendId × Action F W E)) : Prop where
  returned : step w op = .ok (w', out)
  actions : out.actions = log.map Prod.snd
  steps : ∀ i, Life.Step i ⟨w, op, out, w'⟩ (w.life i) (project i log) (w'.life i)
  counter : out.admitted = none ∧ w'.sends.nextId = w.sends.nextId ∨
    out.admitted = some w.sends.nextId ∧ w'.sends.nextId = w.sends.nextId + 1

section

variable [FromSendFailure E] {w w' : World F W E} {op : Op F W E} {out : Output F W E}
  {log : List (SendId × Action F W E)}

theorem Refines.nextId_le (h : Refines w op w' out log) : w.sends.nextId ≤ w'.sends.nextId := by
  obtain ⟨-, heq⟩ | ⟨-, heq⟩ := h.counter
  · exact heq.ge
  · rw [heq]
    exact Nat.le_succ _

/-- What a call admits is the next id. -/
theorem Refines.admitted_eq (h : Refines w op w' out log) {i : SendId}
    (hi : out.admitted = some i) : i = w.sends.nextId ∧ w'.sends.nextId = i + 1 := by
  obtain ⟨hnone, -⟩ | ⟨hsome, heq⟩ := h.counter
  · cases hnone.symm.trans hi
  · cases hsome.symm.trans hi
    exact ⟨rfl, heq⟩

end

namespace Refinement

variable [FromSendFailure E] {w : World F W E}

/-- A call that touches one send: the others are idle. -/
theorem steps_single {op : Op F W E} {w' : World F W E} {out : Output F W E} (j : SendId)
    {batch : Actions F W E}
    (hself : Life.Step j ⟨w, op, out, w'⟩ (w.life j) batch (w'.life j))
    (hother : ∀ i, i ≠ j → w'.life i = w.life i)
    (hquiet : ∀ i, i ≠ j → Event.Quiet ⟨w, op, out, w'⟩ i) (i : SendId) :
    Life.Step i ⟨w, op, out, w'⟩ (w.life i) (project i (tagAll j batch)) (w'.life i) := by
  by_cases hi : i = j
  · subst hi
    rwa [project_tagAll_self]
  · rw [project_tagAll_ne (Ne.symm hi), hother i hi]
    exact .idle (hquiet i hi)

/-! ### Admissions -/

omit [FromSendFailure E] in
theorem allocate_ok {s : Sends F W E} (hroom : s.nextId + 1 < 2 ^ 32) :
    s.allocate = .ok (s.nextId, { s with nextId := s.nextId + 1 }) := by
  rw [Sends.allocate, Checked.ensure_of _ hroom]
  rfl

omit [FromSendFailure E] in
theorem allocate_full {s : Sends F W E} (hfull : ¬ s.nextId + 1 < 2 ^ 32) :
    s.allocate = .error .overflow := by
  rw [Sends.allocate, Checked.ensure, if_neg hfull]
  rfl

omit [FromSendFailure E] in
/-- An admission concerns no other send. -/
private theorem quiet_admission {e : Event F W E} {i : SendId} {j : SendId}
    (hsweeps : e.op.sweeps = false) (hout : e.out = { admitted := some j })
    (hreported : e.reportedId = none)
    (hpicked : (e.polledId, e.ackedId, e.quorumId) = (none, none, none)) (hi : j ≠ i) :
    e.Quiet i := by
  simp only [Prod.mk.injEq] at hpicked
  obtain ⟨hpolled, hacked, hquorum⟩ := hpicked
  exact ⟨hsweeps, by simpa [hout] using hi, by simp [Event.lentId, hout], by simp [hreported],
    by simp [hpolled], by simp [hacked], by simp [hquorum]⟩

/-- An admission under the next id, which gives the send its record. -/
theorem admission {op : Op F W E} (w' : World F W E) (record : Life F W E → Life F W E)
    (hreturned : step w op = .ok (w', { admitted := some w.sends.nextId }))
    (hcounter : w'.sends.nextId = w.sends.nextId + 1)
    (hlife : ∀ i, w'.life i = if i = w.sends.nextId then record (w.life i) else w.life i)
    (hself : Life.Step w.sends.nextId
      ⟨w, op, { admitted := some w.sends.nextId }, w'⟩ .absent [] (record .absent)) (hok : w.Ok)
    (hquiet : ∀ i, i ≠ w.sends.nextId →
      Event.Quiet ⟨w, op, { admitted := some w.sends.nextId }, w'⟩ i) :
    ∃ w' out log, Refines w op w' out log := by
  refine ⟨w', _, tagAll w.sends.nextId [], hreturned, rfl, steps_single w.sends.nextId ?_ ?_ hquiet,
    Or.inr ⟨rfl, hcounter⟩⟩
  · rw [hlife, if_pos rfl, hok.fresh w.sends.nextId le_rfl]
    exact hself
  · intro i hi
    rw [hlife, if_neg hi]

theorem enqueueUnicast (hok : w.Ok) (hroom : w.sends.nextId + 1 < 2 ^ 32)
    (unicast : Unicast F W) (now : Instant) (tunables : Tunables) :
    ∃ w' out log, Refines w (.enqueueUnicast unicast now tunables) w' out log := by
  let w' : World F W E := { w with sends := { w.sends with
    nextId := w.sends.nextId + 1
    unicasts := w.sends.unicasts.enqueue w.sends.nextId unicast now none none tunables } }
  refine admission w' (fun l => { l with
      unicast := some (Unicasts.newRecord unicast now none none tunables) })
    ?_ rfl (fun i => ?_) (.admitUnicast rfl rfl rfl (Or.inl ⟨rfl, rfl⟩)) hok
    fun i hi => quiet_admission rfl rfl rfl rfl (Ne.symm hi)
  · simp [step, Sends.enqueueUnicast, allocate_ok hroom, w']
  · by_cases hi : i = w.sends.nextId <;> simp [World.life, Unicasts.enqueue, hi, w']

theorem enqueueBroadcastCopy (hok : w.Ok) (hroom : w.sends.nextId + 1 < 2 ^ 32)
    (broadcast : SendId) (unicast : Unicast F W) (now : Instant) (tunables : Tunables) :
    ∃ w' out log, Refines w (.enqueueBroadcastCopy broadcast unicast now tunables) w' out log := by
  let w' : World F W E := { w with sends := { w.sends with
    nextId := w.sends.nextId + 1
    unicasts := w.sends.unicasts.enqueue w.sends.nextId unicast now none (some broadcast)
      tunables } }
  refine admission w' (fun l => { l with
      unicast := some (Unicasts.newRecord unicast now none (some broadcast) tunables) })
    ?_ rfl (fun i => ?_) (.admitUnicast rfl rfl rfl (Or.inr ⟨broadcast, rfl, rfl⟩)) hok
    fun i hi => quiet_admission rfl rfl rfl rfl (Ne.symm hi)
  · simp [step, Sends.enqueueBroadcastCopy, allocate_ok hroom, w']
  · by_cases hi : i = w.sends.nextId <;> simp [World.life, Unicasts.enqueue, hi, w']

theorem enqueueUnroutedUnicast (hok : w.Ok) (hroom : w.sends.nextId + 1 < 2 ^ 32)
    (send : UnroutedUnicast F W) (now : Instant) (tunables : Tunables) :
    ∃ w' out log, Refines w (.enqueueUnroutedUnicast send now tunables) w' out log := by
  let w' : World F W E := { w with sends := { w.sends with
    nextId := w.sends.nextId + 1
    unroutedUnicasts := w.sends.unroutedUnicasts.enqueue w.sends.nextId send now tunables } }
  refine admission w' (fun l => { l with
      unrouted := some (UnroutedUnicasts.newRecord send now tunables) })
    ?_ rfl (fun i => ?_) (.admitUnrouted rfl rfl) hok
    fun i hi => quiet_admission rfl rfl rfl rfl (Ne.symm hi)
  · simp [step, Sends.enqueueUnroutedUnicast, allocate_ok hroom, w']
  · by_cases hi : i = w.sends.nextId <;> simp [World.life, UnroutedUnicasts.enqueue, hi, w']

theorem enqueueBroadcast (hok : w.Ok) (hroom : w.sends.nextId + 1 < 2 ^ 32)
    (broadcast : Broadcast F W) (hcopies : 1 ≤ broadcast.schedule.copies) (now : Instant)
    (tunables : Tunables) :
    ∃ w' out log, Refines w (.enqueueBroadcast broadcast now tunables) w' out log := by
  let w' : World F W E := { w with sends := { w.sends with
    nextId := w.sends.nextId + 1
    broadcasts := w.sends.broadcasts.enqueue w.sends.nextId broadcast now tunables } }
  refine admission w' (fun l => { l with
      broadcast := some (Broadcasts.newRecord broadcast now tunables) })
    ?_ rfl (fun i => ?_) (.admitBroadcast rfl rfl hcopies) hok
    fun i hi => quiet_admission rfl rfl rfl rfl (Ne.symm hi)
  · simp [step, Sends.enqueueBroadcast, allocate_ok hroom, w']
  · by_cases hi : i = w.sends.nextId <;> simp [World.life, Broadcasts.enqueue, hi, w']

/-! ### Loans and reports -/

omit [FromSendFailure E] in
theorem nextQueued_unicast {s : Sends F W E} {now : Instant} {id : SendId}
    {priority : TxPriority} (h : s.nextQueued now = some (id, priority, true)) :
    s.unicasts.bestQueued now = some (id, priority) := by
  have hmem := maxByKey_mem h
  simpa using hmem

omit [FromSendFailure E] in
theorem nextQueued_broadcast {s : Sends F W E} {now : Instant} {id : SendId}
    {priority : TxPriority} (h : s.nextQueued now = some (id, priority, false)) :
    s.broadcasts.bestQueued now = some (id, priority) := by
  have hmem := maxByKey_mem h
  simpa using hmem

omit [FromSendFailure E] in
/-- A loan concerns only the send it lends. -/
private theorem quiet_dequeue {w w' : World F W E} {now : Instant}
    {lent : Option (InFlight F)} {i : SendId} (h : lent.map (·.id) ≠ some i) :
    Event.Quiet ⟨w, .dequeue now, { lent }, w'⟩ i :=
  ⟨rfl, by simp, h, by simp [Event.reportedId], by simp [Event.polledId],
    by simp [Event.ackedId], by simp [Event.quorumId]⟩

private theorem filter_append_token {tokens : List (InFlight F)} (token : InFlight F)
    {i : SendId} (h : token.id ≠ i) :
    (tokens ++ [token]).filter (fun t => t.id = i) = tokens.filter (fun t => t.id = i) := by
  simp [h]

theorem dequeue (hok : w.Ok) (now : Instant) :
    ∃ w' out log, Refines w (.dequeue now) w' out log := by
  rcases hnext : w.sends.nextQueued now with _ | ⟨id, priority, _ | _⟩
  · refine ⟨w, {}, [], ?_, rfl, fun i => .idle (quiet_dequeue (by simp)), Or.inl ⟨rfl, rfl⟩⟩
    simp [step, Sends.dequeue, hnext]
  · obtain ⟨r, hget, hready⟩ := Broadcasts.bestQueued_ready (nextQueued_broadcast hnext)
    have hcopy : r.copy = .queued := by
      simp only [Broadcasts.Record.ready, decide_eq_true_eq] at hready
      exact hready.1
    have hlife := (hok.lives id).eq_broadcast_held hget (by simp [hcopy])
    obtain ⟨frame, hframe⟩ := hok.sound.held hget (by simp [hcopy])
    let token : InFlight F := ⟨id, frame, .broadcast⟩
    let w' : World F W E := ⟨{ w.sends with
      broadcasts := ⟨w.sends.broadcasts.records.set id r.lend⟩ }, w.inFlight ++ [token]⟩
    obtain ⟨hunicast, hunrouted, -, htokens⟩ := Life.ext_iff.mp hlife
    have hlife' : w'.life id = { broadcast := some r.lend, tokens := [token] } :=
      Life.ext hunicast hunrouted (by simp [w', World.life])
        (by simpa [w', World.life, token] using htokens)
    refine ⟨w', { lent := some token }, tagAll id [], ?_, rfl,
      steps_single id ?_ ?_ ?_, Or.inl ⟨rfl, rfl⟩⟩
    · simp [step, Sends.dequeue, hnext, Broadcasts.dequeue_ok hget hcopy hframe, w', token]
    · rw [hlife, hlife']
      exact .lendBroadcast rfl rfl rfl hready hframe rfl
    · intro i hi
      simp only [World.life, w', FlatMap.get_set, hi, if_false,
        filter_append_token token (Ne.symm hi)]
    · exact fun i hi => quiet_dequeue (by simpa [token] using Ne.symm hi)
  · obtain ⟨r, hget, hready⟩ := Unicasts.bestQueued_ready (nextQueued_unicast hnext)
    have hstage : r.stage = .queued := by
      simp only [Unicasts.Record.ready, decide_eq_true_eq] at hready
      exact hready.1
    have hheld : r.stage.isTransmitting = false := by rw [hstage]; rfl
    have hlife := (hok.lives id).eq_unicast_held hget hheld
    obtain ⟨frame, hframe⟩ := Option.isSome_iff_exists.mp (hok.held id r hget hheld)
    have hdequeue := Unicasts.dequeue_ok hget hstage hframe
    let token : InFlight F :=
      ⟨id, frame, .unicast r.nextHop (w.sends.unicasts.framePending id r)⟩
    let w' : World F W E := ⟨{ w.sends with
      unicasts := ⟨w.sends.unicasts.records.set id r.lend⟩ }, w.inFlight ++ [token]⟩
    obtain ⟨-, hunrouted, hbroadcast, htokens⟩ := Life.ext_iff.mp hlife
    have hlife' : w'.life id = { unicast := some r.lend, tokens := [token] } :=
      Life.ext (by simp [w', World.life]) hunrouted hbroadcast
        (by simpa [w', World.life, token] using htokens)
    refine ⟨w', { lent := some token }, tagAll id [], ?_, rfl,
      steps_single id ?_ ?_ ?_, Or.inl ⟨rfl, rfl⟩⟩
    · simp [step, Sends.dequeue, hnext, hdequeue, w', token]
    · rw [hlife, hlife']
      exact .lendUnicast rfl rfl rfl hready hframe (by simp [token])
    · intro i hi
      simp only [World.life, w', FlatMap.get_set, hi, if_false,
        filter_append_token token (Ne.symm hi)]
    · exact fun i hi => quiet_dequeue (by simpa [token] using Ne.symm hi)

private theorem filter_eraseP_self {α : Type} (p : α → Bool) (l : List α) :
    (l.eraseP p).filter p = (l.filter p).tail := by
  induction l with
  | nil => rfl
  | cons a l ih => cases ha : p a <;> simp [ha, ih]

private theorem filter_eraseP_ne {α : Type} {p q : α → Bool} (h : ∀ a, p a = true → q a = false)
    (l : List α) : (l.eraseP p).filter q = l.filter q := by
  induction l with
  | nil => rfl
  | cons a l ih =>
    cases ha : p a with
    | true => simp [ha, h a ha]
    | false => simp [ha, List.filter_cons, ih]

omit [FromSendFailure E] in
/-- A report concerns only the send it reports on. -/
private theorem quiet_transmitted {w w' : World F W E} {inFlight : InFlight F}
    {result : Except E Unit} {now : Instant} {retryDelay interval : Duration}
    {actions : Actions F W E} {i : SendId} (h : inFlight.id ≠ i) :
    Event.Quiet ⟨w, .transmitted inFlight result now retryDelay interval, { actions }, w'⟩ i :=
  ⟨rfl, by simp, by simp [Event.lentId], by simpa [Event.reportedId] using h,
    by simp [Event.polledId], by simp [Event.ackedId], by simp [Event.quorumId]⟩

theorem transmitted (hok : w.Ok) {inFlight : InFlight F} {result : Except E Unit}
    {now : Instant} {retryDelay interval : Duration}
    (hlegal : Op.Legal w (.transmitted inFlight result now retryDelay interval)) :
    ∃ w' out log,
      Refines w (.transmitted inFlight result now retryDelay interval) w' out log := by
  obtain ⟨token, hmem, hid, hway⟩ := hlegal
  have htoken : token ∈ (w.life inFlight.id).tokens := by
    simp [World.life, hmem, hid]
  have herase : ∀ {l : Life F W E}, w.life inFlight.id = l → l.tokens = [token] →
      (w.inFlight.eraseP (fun t => t.id = inFlight.id)).filter
        (fun t => t.id = inFlight.id) = [] := by
    intro l hl htokens
    have : w.inFlight.filter (fun t => t.id = inFlight.id) = [token] :=
      (congrArg Life.tokens hl).trans htokens
    rw [filter_eraseP_self, this]
    rfl
  have hkept : ∀ i, i ≠ inFlight.id →
      (w.inFlight.eraseP (fun t => t.id = inFlight.id)).filter (fun t => t.id = i) =
        w.inFlight.filter (fun t => t.id = i) := by
    intro i hi
    refine filter_eraseP_ne (fun t ht => ?_) _
    have : t.id = inFlight.id := by simpa using ht
    simp [this, Ne.symm hi]
  rcases (hok.lives inFlight.id).of_token htoken with
    ⟨r, acked, hlife, hstage, htransmit⟩ | ⟨r, hlife, hcopy, htransmit⟩
  · obtain ⟨hget, hunrouted, hbroadcast, -⟩ := Life.ext_iff.mp hlife
    obtain ⟨t', hreturned, hget'⟩ :=
      Unicasts.transmitted_ok hget hstage inFlight.frame result now retryDelay
    let w' : World F W E := ⟨{ w.sends with unicasts := t' },
      w.inFlight.eraseP (fun t => t.id = inFlight.id)⟩
    have hlife' : w'.life inFlight.id =
        { unicast := (r.report acked inFlight.frame result now retryDelay).1 } :=
      Life.ext (by simp [w', World.life, hget']) hunrouted hbroadcast (herase hlife rfl)
    obtain ⟨nextHop, framePending, hunicast⟩ :
        ∃ nextHop framePending, inFlight.transmit = .unicast nextHop framePending := by
      rw [← hway]
      cases hc : token.transmit with
      | unicast nextHop framePending => exact ⟨nextHop, framePending, rfl⟩
      | broadcast => exact absurd hc htransmit
    refine ⟨w', { actions := (r.report acked inFlight.frame result now retryDelay).2 },
      tagAll inFlight.id _, ?_, (map_snd_tagAll _ _).symm,
      steps_single inFlight.id ?_ ?_ ?_, Or.inl ⟨rfl, rfl⟩⟩
    · simp [step, Sends.transmitted, hunicast, hreturned, w']
    · rw [hlife, hlife']
      exact .reportUnicast rfl rfl hmem hstage
    · intro i hi
      simp only [World.life, w', hget', hi, if_false, hkept i hi]
    · exact fun i hi => quiet_transmitted (Ne.symm hi)
  · obtain ⟨hunicast, hunrouted, hget, -⟩ := Life.ext_iff.mp hlife
    obtain ⟨t', hreturned, hget'⟩ :=
      Broadcasts.transmitted_ok hget hcopy inFlight.frame result now interval
    let w' : World F W E := ⟨{ w.sends with broadcasts := t' },
      w.inFlight.eraseP (fun t => t.id = inFlight.id)⟩
    have hlife' : w'.life inFlight.id =
        { broadcast := (r.report inFlight.frame result now interval).1 } :=
      Life.ext hunicast hunrouted (by simp [w', World.life, hget']) (herase hlife rfl)
    refine ⟨w', { actions := (r.report inFlight.frame result now interval).2 },
      tagAll inFlight.id _, ?_, (map_snd_tagAll _ _).symm,
      steps_single inFlight.id ?_ ?_ ?_, Or.inl ⟨rfl, rfl⟩⟩
    · simp [step, Sends.transmitted, hway ▸ htransmit, hreturned, w']
    · rw [hlife, hlife']
      exact .reportBroadcast rfl rfl hmem hcopy
    · intro i hi
      simp only [World.life, w', hget', hi, if_false, hkept i hi]
    · exact fun i hi => quiet_transmitted (Ne.symm hi)

/-! ### Polls and acks -/

omit [FromSendFailure E] in
/-- A call that returns only actions or an answer concerns the sends it picks. -/
theorem quiet_pick {e : Event F W E} {i : SendId} (hsweeps : e.op.sweeps = false)
    (hout : (e.out.admitted, e.out.lent) = (none, none)) (hreported : e.reportedId = none)
    (hpolled : e.polledId ≠ some i) (hacked : e.ackedId ≠ some i)
    (hquorum : e.quorumId ≠ some i) : e.Quiet i := by
  obtain ⟨hadmitted, hlent⟩ := Prod.mk.inj hout
  exact ⟨hsweeps, by simp [hadmitted], by simp [Event.lentId, hlent], by simp [hreported],
    hpolled, hacked, hquorum⟩

theorem poll (hok : w.Ok) (eui64 : Option Eui64) (nwk : Option Nwk) (now : Instant) :
    ∃ w' out log, Refines w (.poll eui64 nwk now) w' out log := by
  rcases Unicasts.poll_ok w.sends.unicasts eui64 nwk now with
    ⟨hfind, hreturned⟩ | ⟨id, r, hfind, hget, hpollable, hreturned⟩
  · refine ⟨w, {}, [], by simp [step, Sends.poll, hreturned], rfl, fun i => .idle ?_,
      Or.inl ⟨rfl, rfl⟩⟩
    exact quiet_pick rfl rfl rfl (by simp [Event.polledId, hfind]) (by simp [Event.ackedId])
      (by simp [Event.quorumId])
  · have hheld : r.stage.isTransmitting = false := by
      rw [Unicasts.Record.stage_of_pollable hpollable]
      rfl
    have hlife := (hok.lives id).eq_unicast_held hget hheld
    obtain ⟨-, hunrouted, hbroadcast, htokens⟩ := Life.ext_iff.mp hlife
    let w' : World F W E := { w with sends := { w.sends with
      unicasts := ⟨w.sends.unicasts.records.set id r.polled⟩ } }
    have hlife' : w'.life id = { unicast := some r.polled } :=
      Life.ext (by simp [w', World.life]) hunrouted hbroadcast htokens
    have hpolled : Event.polledId ⟨w, .poll eui64 nwk now, { answer := true }, w'⟩ =
        some id := by
      simp [Event.polledId, hfind]
    refine ⟨w', { answer := true }, tagAll id [], ?_, rfl, steps_single id ?_ ?_ ?_,
      Or.inl ⟨rfl, rfl⟩⟩
    · simp [step, Sends.poll, hreturned, w']
    · rw [hlife, hlife']
      exact .pollUnicast rfl rfl hpolled hpollable
    · intro i hi
      simp only [World.life, w', FlatMap.get_set, hi, if_false]
    · intro i hi
      exact quiet_pick rfl rfl rfl (by simpa [hpolled] using Ne.symm hi)
        (by simp [Event.ackedId]) (by simp [Event.quorumId])

theorem apsAckReceived (hok : w.Ok) (ack : ApsAckData) :
    ∃ w' out log, Refines w (.apsAckReceived ack) w' out log := by
  rcases Unicasts.ackReceived_ok (E := E) hok.held ack with
    ⟨hfind, hreturned⟩ | ⟨id, r, hfind, hget, hexpects, hcase⟩
  · refine ⟨w, {}, [], by simp [step, Sends.apsAckReceived, hreturned], rfl, fun i => .idle ?_,
      Or.inl ⟨rfl, rfl⟩⟩
    exact quiet_pick rfl rfl rfl (by simp [Event.polledId]) (by simp [Event.ackedId, hfind])
      (by simp [Event.quorumId])
  · have hacked : ∀ (out : Output F W E) (w' : World F W E),
        Event.ackedId ⟨w, .apsAckReceived ack, out, w'⟩ = some id := by
      simp [Event.ackedId, hfind]
    have hquiet : ∀ {actions : Actions F W E} {w' : World F W E} (i : SendId), i ≠ id →
        Event.Quiet ⟨w, .apsAckReceived ack, { actions }, w'⟩ i := fun i hi =>
      quiet_pick rfl rfl rfl (by simp [Event.polledId]) (by simpa [hacked] using Ne.symm hi)
        (by simp [Event.quorumId])
    rcases hcase with ⟨hstage, hreturned⟩ | ⟨hstage, frame, hframe, hreturned⟩
    · let acked : Unicasts.Record F W := { r with stage := .transmitting true }
      let w' : World F W E := { w with sends := { w.sends with
        unicasts := ⟨w.sends.unicasts.records.set id acked⟩ } }
      have hlife := (hok.lives id).eq_unicast hget
      obtain ⟨-, hunrouted, hbroadcast, -⟩ := Life.ext_iff.mp hlife
      have hlife' : w'.life id = { unicast := some acked, tokens := (w.life id).tokens } :=
        Life.ext (by simp [w', World.life]) hunrouted hbroadcast rfl
      refine ⟨w', {}, tagAll id [], ?_, rfl, steps_single id ?_ ?_ hquiet,
        Or.inl ⟨rfl, rfl⟩⟩
      · simp [step, Sends.apsAckReceived, hreturned, w', acked]
      · rw [hlife, hlife']
        exact .ackTransmitting rfl (hacked _ _) hexpects hstage
      · intro i hi
        simp only [World.life, w', FlatMap.get_set, hi, if_false]
    · let w' : World F W E := { w with sends := { w.sends with
        unicasts := ⟨w.sends.unicasts.records.remove id⟩ } }
      have hlife := (hok.lives id).eq_unicast_held hget hstage
      obtain ⟨-, hunrouted, hbroadcast, htokens⟩ := Life.ext_iff.mp hlife
      have hlife' : w'.life id = .absent :=
        Life.ext (by simp [w', World.life, Life.absent]) hunrouted hbroadcast htokens
      refine ⟨w', { actions := r.verdict (.ok ()) frame none }, tagAll id _, ?_,
        (map_snd_tagAll _ _).symm, steps_single id ?_ ?_ hquiet, Or.inl ⟨rfl, rfl⟩⟩
      · simp [step, Sends.apsAckReceived, hreturned, w']
      · rw [hlife, hlife']
        exact .ackSettle rfl (hacked _ _) hexpects hstage hframe
      · intro i hi
        simp only [World.life, w', FlatMap.get_remove, hi, if_false]

/-! ### Discoveries -/

theorem retryDiscovery {destination : Nwk} (hlegal : destination ∈ w.sends.unroutedDestinations) :
    ∃ w' out log, Refines w (.retryDiscovery destination) w' out log := by
  obtain ⟨answer, t', hreturned, hrecords⟩ :=
    w.sends.unroutedUnicasts.retryDiscovery_ok hlegal
  let w' : World F W E := { w with sends := { w.sends with unroutedUnicasts := t' } }
  have hlife : ∀ i, w'.life i = w.life i := by
    simp [World.life, w', hrecords]
  refine ⟨w', { answer }, [], by simp [step, Sends.retryDiscovery, hreturned, w'], rfl,
    fun i => ?_, Or.inl ⟨rfl, rfl⟩⟩
  rw [hlife]
  exact .idle (quiet_pick rfl rfl rfl (by simp [Event.polledId]) (by simp [Event.ackedId])
    (by simp [Event.quorumId]))

theorem failUnrouted (hok : w.Ok) (destination : Nwk) :
    ∃ w' out log, Refines w (.failUnrouted destination) w' out log := by
  obtain ⟨t', log, hreturned, hget', hlog⟩ :=
    w.sends.unroutedUnicasts.fail_ok (E := E) destination
  let w' : World F W E := { w with sends := { w.sends with unroutedUnicasts := t' } }
  refine ⟨w', { actions := log.map Prod.snd }, log,
    by simp [step, Sends.failUnrouted, hreturned, w'], rfl, fun i => ?_, Or.inl ⟨rfl, rfl⟩⟩
  have hkept : (w.sends.unroutedUnicasts.records.get i).filter
        (fun r => decide (r.destination = destination)) = none →
      Life.Step i ⟨w, .failUnrouted destination, { actions := log.map Prod.snd }, w'⟩
        (w.life i) (project i log) (w'.life i) := by
    intro hnone
    have hlife : w'.life i = w.life i := by
      refine Life.ext rfl ?_ rfl rfl
      simp only [World.life, w', hget']
      cases hr : w.sends.unroutedUnicasts.records.get i with
      | none => rfl
      | some r =>
        have : r.destination ≠ destination := by simpa [hr, Option.filter] using hnone
        simp [Option.filter, this]
    rw [hlife, hlog, hnone]
    exact .idle (quiet_pick rfl rfl rfl (by simp [Event.polledId]) (by simp [Event.ackedId])
    (by simp [Event.quorumId]))
  cases hr : w.sends.unroutedUnicasts.records.get i with
  | none => exact hkept (by simp [hr])
  | some r =>
    by_cases hd : r.destination = destination
    · have hlife := (hok.lives i).eq_unrouted hr
      obtain ⟨hunicast, -, hbroadcast, htokens⟩ := Life.ext_iff.mp hlife
      have hlife' : w'.life i = .absent :=
        Life.ext hunicast (by simp [w', World.life, hget', hr, Option.filter, hd, Life.absent])
          hbroadcast htokens
      have htaken : (some r).filter (fun r => decide (r.destination = destination)) =
          some r := by simp [Option.filter, hd]
      rw [hlife, hlife', hlog, hr, htaken]
      subst hd
      exact .failUnrouted rfl
    · exact hkept (by simp [hr, Option.filter, hd])

end Refinement

end Ziggurat
