import Ziggurat.Sends.Refinement.Runs

/-!
# Which frame the sender gets

`dequeue` picks the best frame of each table and then the better one of the two.
`Sends.Queued` is the set it picks from, the records of both tables that are queued
and before their deadline, and `Ahead` is the order.  `dequeue_in_order` says that
the frame lent is the first of all of them, and that nothing else changes.

A frame for a sleepy device says in its frame-pending bit whether more frames await
the device.  A poll finds them under either of the addresses of the device, and the
bit looks at one of them.  `frame_pending_iff` says when the two agree.
-/

namespace Ziggurat

variable {F W E : Type}

/-! ## The order -/

/-- A record that is queued and before its deadline, in either table. -/
inductive Sends.Queued (s : Sends F W E) (now : Instant) (id : SendId) (priority : TxPriority) :
    Prop where
  | unicast {r : Unicasts.Record F W} (get : s.unicasts.records.get id = some r)
      (stage : r.stage = .queued) (deadline : now < r.deadline)
      (hpriority : r.priority = priority)
  | broadcast {r : Broadcasts.Record F W E} (get : s.broadcasts.records.get id = some r)
      (copy : r.copy = .queued) (deadline : now < r.deadline)
      (hpriority : r.priority = priority)

/-- A higher priority goes first, and among equal ones the older send. -/
def Ahead (id : SendId) (priority : TxPriority) (id' : SendId) (priority' : TxPriority) : Prop :=
  priority'.rank < priority.rank ∨ priority'.rank = priority.rank ∧ id ≤ id'

theorem schedulingKey_le_iff {id id' : SendId} {priority priority' : TxPriority} :
    schedulingKey id' priority' ≤ schedulingKey id priority ↔ Ahead id priority id' priority' := by
  unfold schedulingKey Ahead
  rw [Prod.Lex.toLex_le_toLex]
  rfl

/-- The sends outside a set are as they were, in all three tables. -/
structure Sends.SameOutside (changed : SendId → Prop) (s s' : Sends F W E) : Prop where
  unicast : ∀ id, ¬changed id → s'.unicasts.records.get id = s.unicasts.records.get id
  unrouted : ∀ id, ¬changed id →
    s'.unroutedUnicasts.records.get id = s.unroutedUnicasts.records.get id
  broadcast : ∀ id, ¬changed id → s'.broadcasts.records.get id = s.broadcasts.records.get id
  nextId : s'.nextId = s.nextId

theorem Ahead.trans {id id' id'' : SendId} {priority priority' priority'' : TxPriority}
    (h : Ahead id priority id' priority') (h' : Ahead id' priority' id'' priority'') :
    Ahead id priority id'' priority'' := by
  rw [← schedulingKey_le_iff] at h h' ⊢
  exact le_trans h' h

/-! ## One table -/

section Best

variable {R : Type} {records : FlatMap SendId R} {priority : R → TxPriority} {ready : R → Bool}

/-- The candidate of a table is ahead of every record that it was picked from. -/
theorem ahead_of_best {best : SendId × TxPriority}
    (h : (maxByKey (fun e => schedulingKey e.1 (priority e.2))
      (records.entries.filter fun e => ready e.2)).map (fun e => (e.1, priority e.2)) = some best)
    {id : SendId} {r : R} (hget : records.get id = some r) (hready : ready r = true) :
    Ahead best.1 best.2 id (priority r) := by
  obtain ⟨entry, hmax, heq⟩ := Option.map_eq_some_iff.mp h
  have hmem : (id, r) ∈ records.entries.filter (fun e => ready e.2) :=
    List.mem_filter.mpr ⟨FlatMap.mem_entries.mpr hget, hready⟩
  have hle := maxByKey_max hmax (id, r) hmem
  cases heq
  exact schedulingKey_le_iff.mp hle

/-- A table with a record that is ready has a candidate. -/
theorem best_ne_none {id : SendId} {r : R} (hget : records.get id = some r)
    (hready : ready r = true) :
    (maxByKey (fun e => schedulingKey e.1 (priority e.2))
      (records.entries.filter fun e => ready e.2)).map (fun e => (e.1, priority e.2)) ≠ none := by
  rw [ne_eq, Option.map_eq_none_iff, maxByKey_eq_none]
  have hmem : (id, r) ∈ records.entries.filter (fun e => ready e.2) :=
    List.mem_filter.mpr ⟨FlatMap.mem_entries.mpr hget, hready⟩
  exact List.ne_nil_of_mem hmem

end Best

/-! ## Both tables -/

namespace Sends

variable {s : Sends F W E} {now : Instant} {id : SendId} {priority : TxPriority}

/-- Every record that is queued is behind a candidate of the two tables. -/
theorem Queued.exists_candidate (h : s.Queued now id priority) :
    ∃ id' priority', Ahead id' priority' id priority ∧ ∃ fromUnicasts,
      (id', priority', fromUnicasts) ∈
        ((s.unicasts.bestQueued now).map (fun (id, p) => (id, p, true))).toList ++
          ((s.broadcasts.bestQueued now).map (fun (id, p) => (id, p, false))).toList := by
  cases h with
  | @unicast r hget hstage hdeadline hpriority =>
    have hready : r.ready now = true := by simp [Unicasts.Record.ready, hstage, hdeadline]
    have hsome : s.unicasts.bestQueued now ≠ none := best_ne_none hget hready
    obtain ⟨best, hbest⟩ := Option.ne_none_iff_exists'.mp hsome
    have hahead : Ahead best.1 best.2 id r.priority := ahead_of_best hbest hget hready
    rw [hpriority] at hahead
    exact ⟨best.1, best.2, hahead, true, by simp [hbest]⟩
  | @broadcast r hget hcopy hdeadline hpriority =>
    have hready : r.ready now = true := by simp [Broadcasts.Record.ready, hcopy, hdeadline]
    have hsome : s.broadcasts.bestQueued now ≠ none := best_ne_none hget hready
    obtain ⟨best, hbest⟩ := Option.ne_none_iff_exists'.mp hsome
    have hahead : Ahead best.1 best.2 id r.priority := ahead_of_best hbest hget hready
    rw [hpriority] at hahead
    exact ⟨best.1, best.2, hahead, false, by simp [hbest]⟩

theorem not_queued_of_nextQueued (h : s.nextQueued now = none) : ¬s.Queued now id priority := by
  intro hqueued
  obtain ⟨id', priority', -, fromUnicasts, hmem⟩ := hqueued.exists_candidate
  rw [nextQueued, maxByKey_eq_none] at h
  rw [h] at hmem
  cases hmem

/-- The id that `dequeue` lends is ahead of everything that is queued. -/
theorem ahead_of_nextQueued {fromUnicasts : Bool} {best : SendId} {bestPriority : TxPriority}
    (h : s.nextQueued now = some (best, bestPriority, fromUnicasts))
    (hqueued : s.Queued now id priority) : Ahead best bestPriority id priority := by
  obtain ⟨id', priority', hahead, fromUnicasts', hmem⟩ := hqueued.exists_candidate
  have hle := maxByKey_max h (id', priority', fromUnicasts') hmem
  exact (schedulingKey_le_iff.mp hle).trans hahead

/-- A frame is lent: its record loses it to the token, and no other record changes. -/
inductive Lends (s : Sends F W E) (now : Instant) (token : InFlight F) (s' : Sends F W E) :
    Prop where
  | unicast {r : Unicasts.Record F W} (get : s.unicasts.records.get token.id = some r)
      (stage : r.stage = .queued) (deadline : now < r.deadline)
      (frame : r.frame = some token.frame)
      (transmit : token.transmit = .unicast r.nextHop (s.unicasts.framePending token.id r))
      (after : s' = { s with unicasts := ⟨s.unicasts.records.set token.id r.lend⟩ })
  | broadcast {r : Broadcasts.Record F W E} (get : s.broadcasts.records.get token.id = some r)
      (copy : r.copy = .queued) (deadline : now < r.deadline)
      (frame : r.frame = some token.frame) (transmit : token.transmit = .broadcast)
      (after : s' = { s with broadcasts := ⟨s.broadcasts.records.set token.id r.lend⟩ })

theorem Lends.sameOutside {token : InFlight F} {s' : Sends F W E} (h : s.Lends now token s') :
    s.SameOutside (· = token.id) s' := by
  cases h with
  | unicast _ _ _ _ _ hafter =>
    subst hafter
    exact ⟨fun i hi => by simp [hi], fun _ _ => rfl, fun _ _ => rfl, rfl⟩
  | broadcast _ _ _ _ _ hafter =>
    subst hafter
    exact ⟨fun _ _ => rfl, fun _ _ => rfl, fun i hi => by simp [hi], rfl⟩

end Sends

/-- `dequeue` returns nothing, or lends what `nextQueued` picked. -/
theorem World.Ok.dequeue_cases {w : World F W E} (hok : w.Ok) (now : Instant) :
    (w.sends.nextQueued now = none ∧ w.sends.dequeue now = .ok (none, w.sends)) ∨
    ∃ token s' priority fromUnicasts,
      w.sends.nextQueued now = some (token.id, priority, fromUnicasts) ∧
      w.sends.dequeue now = .ok (some token, s') ∧ w.sends.Lends now token s' ∧
      w.sends.Queued now token.id priority := by
  cases hnext : w.sends.nextQueued now with
  | none => exact .inl ⟨rfl, by rw [Sends.dequeue, hnext]⟩
  | some best =>
    obtain ⟨id, priority, fromUnicasts⟩ := best
    right
    cases fromUnicasts with
    | true =>
      obtain ⟨entry, hget, hready, heq⟩ :=
        FlatMap.get_of_maxByKey (Refinement.nextQueued_unicast hnext)
      cases heq
      simp only [Unicasts.Record.ready, decide_eq_true_eq] at hready
      have hheld := hok.held _ _ hget (by rw [hready.1]; rfl)
      obtain ⟨frame, hframe⟩ := Option.isSome_iff_exists.mp hheld
      refine ⟨⟨entry.1, frame, .unicast entry.2.nextHop
          (w.sends.unicasts.framePending entry.1 entry.2)⟩, _, _, true, rfl, ?_,
        .unicast hget hready.1 hready.2 hframe rfl rfl, .unicast hget hready.1 hready.2 rfl⟩
      rw [Sends.dequeue, hnext]
      simp [Unicasts.dequeue_ok hget hready.1 hframe]
    | false =>
      obtain ⟨entry, hget, hready, heq⟩ :=
        FlatMap.get_of_maxByKey (Refinement.nextQueued_broadcast hnext)
      cases heq
      simp only [Broadcasts.Record.ready, decide_eq_true_eq] at hready
      obtain ⟨frame, hframe⟩ := hok.sound.held hget (by simp [hready.1])
      refine ⟨⟨entry.1, frame, .broadcast⟩, _, _, false, rfl, ?_,
        .broadcast hget hready.1 hready.2 hframe rfl rfl, .broadcast hget hready.1 hready.2 rfl⟩
      rw [Sends.dequeue, hnext]
      simp [Broadcasts.dequeue_ok hget hready.1 hframe]

/-- In every reachable state `dequeue` lends nothing exactly if nothing is queued before its
deadline.  Otherwise it lends the record that is ahead of all the others, and changes no other. -/
theorem dequeue_in_order [FromSendFailure E] {w : World F W E} {es : List (Event F W E)}
    (h : Run w es) (now : Instant) :
    ∃ lent s', w.sends.dequeue now = .ok (lent, s') ∧
      (lent = none ↔ ∀ id priority, ¬w.sends.Queued now id priority) ∧
      (lent = none → s' = w.sends) ∧
      ∀ token, lent = some token → w.sends.Lends now token s' ∧
        w.sends.SameOutside (· = token.id) s' ∧
        ∃ priority, w.sends.Queued now token.id priority ∧
          ∀ id' priority', w.sends.Queued now id' priority' →
            Ahead token.id priority id' priority' := by
  obtain ⟨hnext, hreturned⟩ | ⟨token, s', priority, fromUnicasts, hnext, hreturned, hlends,
    hqueued⟩ := h.ok.dequeue_cases now
  · refine ⟨none, w.sends, hreturned, ?_, fun _ => rfl, nofun⟩
    have hnone : ∀ id priority, ¬w.sends.Queued now id priority :=
      fun _ _ => Sends.not_queued_of_nextQueued hnext
    exact ⟨fun _ => hnone, fun _ => rfl⟩
  · refine ⟨some token, s', hreturned, ?_, nofun, ?_⟩
    · constructor
      · intro hnone
        cases hnone
      · intro hnone
        exact absurd hqueued (hnone token.id priority)
    · intro token' htoken
      cases htoken
      refine ⟨hlends, hlends.sameOutside, priority, hqueued, ?_⟩
      intro id' priority' hqueued'
      exact Sends.ahead_of_nextQueued hnext hqueued'

/-- Two unicasts, of which the second has the higher priority. -/
def twoPriorities : List (Op Nat Nat SendFailure) :=
  [.enqueueUnicast
    { frame := 7, priority := .userLow, waiter := 0, confirm := .onHandoff, nextHop := 1,
      pollAddress := none } 0 {},
  .enqueueUnicast
    { frame := 8, priority := .userHigh, waiter := 1, confirm := .onHandoff, nextHop := 1,
      pollAddress := none } 0 {}]

theorem dequeue_in_order_two :
    ∃ (w : World Nat Nat SendFailure) (es : List (Event Nat Nat SendFailure)) (token : _)
      (s' : _), Run w es ∧ w.sends.dequeue 5 = .ok (some token, s') ∧ token.id = 1 ∧
        w.sends.SameOutside (· = 1) s' := by
  have hrun := run_outcome twoPriorities (by decide +kernel)
  obtain ⟨lent, s', hreturned, -, -, hsome⟩ := dequeue_in_order hrun 5
  have hlent : lent.map (·.id) = some 1 := by
    have hvalue : ((outcome twoPriorities (by decide +kernel)).1.sends.dequeue 5).toOption.map
        (fun result => result.1.map (·.id)) = some (some 1) := by decide +kernel
    rw [hreturned] at hvalue
    exact Option.some.inj hvalue
  obtain ⟨token, rfl, hid⟩ := Option.map_eq_some_iff.mp hlent
  have hsame := (hsome token rfl).2.1
  rw [hid] at hsame
  exact ⟨_, _, token, s', hrun, hreturned, hid, hsame⟩

/-! ## The frame-pending bit -/

namespace Life

variable {id : SendId} {eui64 : Option Eui64} {nwk : Option Nwk}

/-- The frame is held for the device that polls under these addresses. -/
def HeldFor (eui64 : Option Eui64) (nwk : Option Nwk) (l : Life F W E) : Prop :=
  l.unrouted = none ∧ l.broadcast = none ∧ ∀ r, l.unicast = some r →
    ∃ address, r.pollAddress = some address ∧ Unicasts.pollMatches eui64 nwk address = true

theorem heldFor_absent : (absent : Life F W E).HeldFor eui64 nwk :=
  ⟨rfl, rfl, fun _ hr => by cases hr⟩

theorem heldFor_unicast {r : Unicasts.Record F W} {tokens : List (InFlight F)}
    (h : ∃ address, r.pollAddress = some address ∧
      Unicasts.pollMatches eui64 nwk address = true) :
    ({ unicast := some r, tokens } : Life F W E).HeldFor eui64 nwk := by
  refine ⟨rfl, rfl, fun r' hr' => ?_⟩
  cases hr'
  exact h

/-- The address of a held frame stays. -/
theorem Step.heldFor [FromSendFailure E] {e : Event F W E} {l l' : Life F W E}
    {actions : Actions F W E} (h : Step id e l actions l') (hadmitted : e.out.admitted ≠ some id)
    (hl : l.HeldFor eui64 nwk) : l'.HeldFor eui64 nwk := by
  have hheld := hl
  obtain ⟨hunrouted, hbroadcast, hunicast⟩ := hl
  cases h with
  | idle | tickIdle => exact hheld
  | abandoned | ackSettle | dropUnicast | cancelUnicast | lapseUnicast => exact heldFor_absent
  | admitUnicast hadm | admitUnrouted hadm | admitBroadcast hadm => exact absurd hadm hadmitted
  | @lendUnicast r => exact heldFor_unicast (hunicast r rfl)
  | @pollUnicast r => exact heldFor_unicast (hunicast r rfl)
  | @ackTransmitting r => exact heldFor_unicast (hunicast r rfl)
  | @tickUnicast r now =>
    have hsame : (r.requeue now).pollAddress = r.pollAddress := by
      unfold Unicasts.Record.requeue
      split
      · split <;> rfl
      · rfl
    apply heldFor_unicast
    rw [hsame]
    exact hunicast r rfl
  | @reportUnicast r =>
    refine ⟨rfl, rfl, fun r' hr' => ?_⟩
    have hsame : r'.pollAddress = r.pollAddress := by
      obtain ⟨_, _, -, -, rfl⟩ | ⟨-, -, rfl⟩ | ⟨-, -, rfl⟩ := unicast_report_eq_some hr'
      · rfl
      · rfl
      · rfl
    rw [hsame]
    exact hunicast r rfl
  | routed | routeFailed | lapseUnrouted | tickUnrouted | failUnrouted | cancelUnrouted =>
    cases hunrouted
  | lendBroadcast | reportBroadcast | quorumNoted | quorumSettle | cancelBroadcast |
    tickBroadcast | lapseBroadcast => cases hbroadcast

/-- A poll queues a frame that is held for the device. -/
theorem Step.heldFor_of_polled [FromSendFailure E] {e : Event F W E} {l l' : Life F W E}
    {actions : Actions F W E} {now : Instant} (h : Step id e l actions l')
    (hop : e.op = .poll eui64 nwk now) (hpolled : e.polledId = some id) :
    l'.HeldFor eui64 nwk := by
  cases h with
  | idle hquiet => exact absurd hpolled hquiet.polled
  | @pollUnicast r _ _ _ op _ _ hpollable =>
    cases hop.symm.trans op
    apply heldFor_unicast
    unfold Unicasts.Record.pollable at hpollable
    split at hpollable
    next address haddress _ =>
      have hmatches := (Bool.and_eq_true_iff.mp hpollable).1
      exact ⟨address, haddress, hmatches⟩
    next => cases hpollable
  | _ => simp_all

end Life

/-- A frame that a poll queued is held for the device to the end of its life. -/
theorem Run.heldFor [FromSendFailure E] {w : World F W E} {es : List (Event F W E)} (h : Run w es)
    {e : Event F W E} (he : e ∈ es) {eui64 : Option Eui64} {nwk : Option Nwk} {now : Instant}
    {id : SendId} (hop : e.op = .poll eui64 nwk now) (hpolled : e.polledId = some id) :
    id < w.sends.nextId ∧ (w.life id).HeldFor eui64 nwk := by
  induction h with
  | start => cases he
  | @call w w' es op out hrun hlegal hreturned ih =>
    obtain ⟨log, hrefines⟩ := refines_of_returned hrun.ok hlegal hreturned
    have hstep := hrefines.steps id
    have hmono := hrefines.nextId_le
    obtain he | he := List.mem_append.mp he
    · obtain ⟨hlt, hheld⟩ := ih he
      refine ⟨lt_of_lt_of_le hlt hmono, hstep.heldFor ?_ hheld⟩
      intro hadmitted
      exact absurd (hrefines.admitted_eq hadmitted).1 (Nat.ne_of_lt hlt)
    · cases List.mem_singleton.mp he
      refine ⟨?_, hstep.heldFor_of_polled hop hpolled⟩
      by_contra hge
      have habsent := hrun.ok.fresh id (le_trans hmono (Nat.le_of_not_lt hge))
      -- the id that is polled has a record
      rw [Event.polledId] at hpolled
      dsimp only at hop hpolled
      rw [hop] at hpolled
      obtain ⟨entry, hfind, hentry⟩ := Option.map_eq_some_iff.mp hpolled
      have hget := FlatMap.mem_entries.mp (List.mem_of_find?_eq_some hfind)
      rw [hentry] at hget
      have hnone := congrArg Life.unicast habsent
      cases hget.symm.trans hnone

namespace Sends

variable {s : Sends F W E} {eui64 : Option Eui64} {nwk : Option Nwk} {now : Instant}

/-- A frame awaits the poll of the device under another of its addresses. -/
def AwaitedElsewhere (s : Sends F W E) (eui64 : Option Eui64) (nwk : Option Nwk) (now : Instant)
    (address : Ieee802154Address) : Prop :=
  ∃ id r, s.unicasts.records.get id = some r ∧ r.pollable eui64 nwk now = true ∧
    r.pollAddress ≠ some address

/-- A frame other than `id` is pending under the address. -/
def PendingBeside (s : Sends F W E) (id : SendId) (address : Ieee802154Address) : Prop :=
  ∃ other r, other ≠ id ∧ s.unicasts.records.get other = some r ∧ r.pendingFor = some address

/-- A poll is answered exactly if a frame awaits it. -/
theorem poll_answers_iff : (∃ actions s', s.poll eui64 nwk now = .ok (true, actions, s')) ↔
    ∃ id r, s.unicasts.records.get id = some r ∧ r.pollable eui64 nwk now = true := by
  constructor
  · rintro ⟨actions, s', h⟩
    rw [poll, Unicasts.poll] at h
    split at h
    next => cases h
    next id r hfind =>
      have hmem := List.mem_of_find?_eq_some hfind
      have hpollable := List.find?_some hfind
      exact ⟨id, r, FlatMap.mem_entries.mp hmem, hpollable⟩
  · rintro ⟨id, r, hget, hpollable⟩
    rw [poll, Unicasts.poll]
    split
    next hnone =>
      have hnot := List.find?_eq_none.mp hnone (id, r) (FlatMap.mem_entries.mpr hget)
      exact absurd hpollable hnot
    next id' r' hfind =>
      have hget' := FlatMap.mem_entries.mp (List.mem_of_find?_eq_some hfind)
      rw [hget']
      exact ⟨_, _, rfl⟩

theorem framePending_iff {id : SendId} {r : Unicasts.Record F W} {address : Ieee802154Address}
    (haddress : r.pollAddress = some address) :
    s.unicasts.framePending id r = true ↔ s.PendingBeside id address := by
  simp only [Unicasts.framePending, haddress, List.any_eq_true, Bool.and_eq_true, decide_eq_true_eq]
  constructor
  · rintro ⟨entry, hmem, hne, hpending⟩
    exact ⟨entry.1, entry.2, hne, FlatMap.mem_entries.mp hmem, hpending⟩
  · rintro ⟨other, r', hne, hget, hpending⟩
    exact ⟨(other, r'), FlatMap.mem_entries.mpr hget, hne, hpending⟩

/-- The frame in the radio awaits no poll. -/
theorem pollable_set_lend {id other : SendId} {r r' : Unicasts.Record F W} :
    (s.unicasts.records.set id r.lend).get other = some r' ∧
        r'.pollable eui64 nwk now = true ↔
      other ≠ id ∧ s.unicasts.records.get other = some r' ∧
        r'.pollable eui64 nwk now = true := by
  by_cases hother : other = id
  · rw [hother, FlatMap.get_set, if_pos rfl]
    refine ⟨fun ⟨hget, hpollable⟩ => ?_, fun ⟨hne, _⟩ => absurd rfl hne⟩
    cases hget
    rw [Unicasts.Record.pollable, Unicasts.Record.lend] at hpollable
    split at hpollable
    next hstage => cases hstage
    next => cases hpollable
  · rw [FlatMap.get_set, if_neg hother]
    exact ⟨fun h => ⟨hother, h⟩, fun h => h.2⟩

end Sends

/-- A frame that is lent to the radio for the poll of a device announces more frames whenever
a further poll of the device would find one, if and only if no frame awaits the device under its
other address, or another one is pending under the address of this frame. -/
theorem frame_pending_iff [FromSendFailure E] {w : World F W E} {es : List (Event F W E)}
    (h : Run w es) {e : Event F W E} (he : e ∈ es) {eui64 : Option Eui64} {nwk : Option Nwk}
    {now now' : Instant} {token : InFlight F} {s' : Sends F W E}
    (hop : e.op = .poll eui64 nwk now) (hpolled : e.polledId = some token.id)
    (hdequeue : w.sends.dequeue now' = .ok (some token, s')) :
    ∃ r address nextHop framePending, w.sends.unicasts.records.get token.id = some r ∧
      r.pollAddress = some address ∧ Unicasts.pollMatches eui64 nwk address = true ∧
      token.transmit = .unicast nextHop framePending ∧
      (((∃ actions s'', s'.poll eui64 nwk now = .ok (true, actions, s'')) →
          framePending = true) ↔
        (w.sends.AwaitedElsewhere eui64 nwk now address →
          w.sends.PendingBeside token.id address)) := by
  obtain ⟨-, -, hbroadcast, hheld⟩ := h.heldFor he hop hpolled
  obtain ⟨-, hnone⟩ | ⟨token', s'', priority, fromUnicasts, -, hreturned, hlends, -⟩ :=
    h.ok.dequeue_cases now'
  · cases hnone.symm.trans hdequeue
  cases hreturned.symm.trans hdequeue
  cases hlends with
  | broadcast hget => exact absurd (hget.symm.trans hbroadcast) nofun
  | @unicast r hget hstage _ _ htransmit hafter =>
    obtain ⟨address, haddress, hmatches⟩ := hheld r hget
    refine ⟨r, address, r.nextHop, _, hget, haddress, hmatches, htransmit, ?_⟩
    rw [Sends.framePending_iff haddress, Sends.poll_answers_iff, hafter]
    simp only [Sends.pollable_set_lend]
    constructor
    · rintro hbit ⟨id, r', hget', hpollable, -⟩
      refine hbit ⟨id, r', ?_, hget', hpollable⟩
      rintro rfl
      -- the record of the frame is queued, so it awaits no poll
      cases hget.symm.trans hget'
      rw [Unicasts.Record.pollable, hstage] at hpollable
      split at hpollable
      next hawaiting => cases hawaiting
      next => cases hpollable
    · rintro hbeside ⟨id, r', hne, hget', hpollable⟩
      by_cases hsame : r'.pollAddress = some address
      · refine ⟨id, r', hne, hget', ?_⟩
        rw [Unicasts.Record.pollable, hsame] at hpollable
        split at hpollable
        next hsome hawaiting =>
          cases hsome
          rw [Unicasts.Record.pendingFor, hsame, hawaiting]
        next => cases hpollable
      · exact hbeside ⟨id, r', hget', hpollable, hsame⟩

namespace Example

/-- Two frames for one device: under its EUI64 and under its network address. -/
def bothForms : List (Op Nat Nat SendFailure) :=
  [.enqueueUnicast
    { frame := 7, priority := .userNormal, waiter := 0, confirm := .onHandoff, nextHop := 0x1234,
      pollAddress := some (.nwk 0x1234) } 0 {},
  .enqueueUnicast
    { frame := 8, priority := .userNormal, waiter := 1, confirm := .onHandoff, nextHop := 0x1234,
      pollAddress := some (.eui64 5) } 0 {},
  .poll (some 5) (some 0x1234) 1]

theorem bothForms_replays : (replay World.empty bothForms).isSome = true := by decide +kernel

/-- The tables after the poll, which queued the frame under the network address. -/
def afterPoll : World Nat Nat SendFailure := (outcome bothForms bothForms_replays).1

theorem exists_polled : ∃ es, Run afterPoll es ∧
    ∃ e ∈ es, e.op = .poll (some 5) (some 0x1234) 1 ∧ e.polledId = some 0 := by
  refine ⟨_, run_outcome bothForms bothForms_replays, ?_⟩
  have hlength : 2 < (outcome bothForms bothForms_replays).2.length := by decide +kernel
  exact ⟨_, List.getElem_mem hlength, rfl, rfl⟩

theorem exists_lent : ∃ token s', afterPoll.sends.dequeue 2 = .ok (some token, s') ∧
    token.id = 0 ∧ token.transmit = .unicast 0x1234 false ∧
    ∃ actions s'', s'.poll (some 5) (some 0x1234) 1 = .ok (true, actions, s'') := by
  exact ⟨_, _, rfl, rfl, rfl, _, _, rfl⟩

end Example

open Example in
/-- The frame is sent without the bit, although a further poll would find the other one. -/
theorem frame_pending_omitted :
    ∃ (w : World Nat Nat SendFailure) (es : List (Event Nat Nat SendFailure)) (e : _) (token : _)
      (s' : _), Run w es ∧ e ∈ es ∧ e.op = .poll (some 5) (some 0x1234) 1 ∧
      e.polledId = some token.id ∧ w.sends.dequeue 2 = .ok (some token, s') ∧
      token.transmit = .unicast 0x1234 false ∧
      ∃ actions s'', s'.poll (some 5) (some 0x1234) 1 = .ok (true, actions, s'') := by
  obtain ⟨es, hrun, e, he, hop, hpolled⟩ := exists_polled
  obtain ⟨token, s', hdequeue, hid, htransmit, hpoll⟩ := exists_lent
  exact ⟨_, es, e, token, s', hrun, he, hop, hpolled.trans (congrArg some hid.symm), hdequeue,
    htransmit, hpoll⟩

open Example in
theorem frame_pending_iff_bothForms :
    afterPoll.sends.AwaitedElsewhere (some 5) (some 0x1234) 1 (.nwk 0x1234) ∧
    ¬afterPoll.sends.PendingBeside 0 (.nwk 0x1234) := by
  obtain ⟨es, hrun, e, he, hop, hpolled⟩ := exists_polled
  obtain ⟨token, s', hdequeue, hid, htransmit, hpoll⟩ := exists_lent
  obtain ⟨r, address, nextHop, framePending, hget, haddress, -, htransmit', hiff⟩ :=
    frame_pending_iff hrun he hop (hpolled.trans (congrArg some hid.symm)) hdequeue
  have hform : (afterPoll.sends.unicasts.records.get 0).bind (·.pollAddress) =
      some (.nwk 0x1234) := by decide +kernel
  rw [hid] at hget hiff
  rw [hget, Option.bind_some, haddress] at hform
  cases hform
  cases htransmit.symm.trans htransmit'
  by_contra hnot
  have hbit := hiff.mpr fun helsewhere => by_contra fun hbeside => hnot ⟨helsewhere, hbeside⟩
  cases hbit hpoll

end Ziggurat
