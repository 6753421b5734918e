import Ziggurat.Sends.Verdicts

/-!
# No frame is lost

A frame that is admitted stays in one place: in a record, in an outstanding
token, or in the verdict that hands it back.  Rust moves frames, so there is
nothing to compare by value; and it lets the `resolve` callback and the sender
rewrite a frame in place.  The law is stated for any `tag` of a frame that those
two keep: the tags of the frames in the three places are a permutation of the
tags that were admitted.

`verdict_exactly_once` puts the law together with what `Sends.Verdicts` says about
the waiters.
-/

namespace Ziggurat

open Lib.TagLog

variable {F W E T : Type}

/-- The frame that an action hands back. -/
def Action.frame? : Action F W E → Option F
  | .handedOff _ => none
  | .settled _ _ frame _ => some frame

/-- The frames that the verdicts of a run handed back. -/
def settledFrames (es : List (Event F W E)) : List F :=
  (actionsOf es).filterMap Action.frame?

/-- The frames that a run admitted. -/
def admittedFrames (es : List (Event F W E)) : List F :=
  es.filterMap (·.op.frame)

/-- The frames in the records of a world. -/
def World.recordFrames (w : World F W E) : List F :=
  w.sends.unicasts.records.values.filterMap (·.frame) ++
    w.sends.unroutedUnicasts.records.values.map (·.frame) ++
    w.sends.broadcasts.records.values.filterMap (·.frame)

/-- The frames in outstanding tokens. -/
def World.tokenFrames (w : World F W E) : List F :=
  w.inFlight.map (·.frame)

/-- The callers rewrite frames in place only in ways that keep the tag: the
`resolve` callback of a routing, and the sender of a lent frame. -/
def Event.Keeps (tag : F → T) (e : Event F W E) : Prop :=
  match e.op with
  | .routeUnicasts _ _ _ resolve => ∀ k frame, tag (resolve k frame).1 = tag frame
  | .transmitted inFlight _ _ _ _ =>
    ∀ token ∈ e.before.inFlight, token.id = inFlight.id → tag inFlight.frame = tag token.frame
  | _ => True

/-! ## The frame of one send -/

/-- Where the frame of one send is. -/
def Life.frames (l : Life F W E) : List F :=
  (l.unicast.bind (·.frame)).toList ++ (l.unrouted.map (·.frame)).toList ++
    (l.broadcast.bind (·.frame)).toList ++ l.tokens.map (·.frame)

namespace Life

@[simp] theorem frames_absent : (absent : Life F W E).frames = [] := rfl

@[simp] theorem frames_unicast (r : Option (Unicasts.Record F W)) (tokens : List (InFlight F)) :
    ({ unicast := r, tokens } : Life F W E).frames =
      (r.bind (·.frame)).toList ++ tokens.map (·.frame) := by
  simp [frames]

@[simp] theorem frames_unrouted (r : UnroutedUnicasts.Record F W) :
    ({ unrouted := some r } : Life F W E).frames = [r.frame] := rfl

@[simp] theorem frames_broadcast (r : Option (Broadcasts.Record F W E))
    (tokens : List (InFlight F)) :
    ({ broadcast := r, tokens } : Life F W E).frames =
      (r.bind (·.frame)).toList ++ tokens.map (·.frame) := by
  simp [frames]

end Life

/-- The frame of `id`, if the event admits it. -/
def Event.admittedFrame (id : SendId) (e : Event F W E) : Option F :=
  if e.out.admitted = some id then e.op.frame else none

private theorem frames_report_unicast (r : Unicasts.Record F W) (acked : Bool) (frame : F)
    (result : Except E Unit) (now : Instant) (retryDelay : Duration) :
    (r.report acked frame result now retryDelay).2.filterMap Action.frame? ++
      ((r.report acked frame result now retryDelay).1.bind (·.frame)).toList = [frame] := by
  have haccept : ∀ acked, (r.accept frame now acked : _ × Actions F W E).2.filterMap
      Action.frame? ++ ((r.accept frame now acked : _ × Actions F W E).1.bind
        (·.frame)).toList = [frame] := by
    intro acked
    unfold Unicasts.Record.accept
    split <;> rfl
  unfold Unicasts.Record.report
  cases result with
  | ok => exact haccept acked
  | error err =>
    dsimp only
    split
    · exact haccept acked
    · unfold Unicasts.Record.reject
      split <;> split <;> rfl

private theorem frames_settlement (r : Broadcasts.Record F W E) (result : Except E Unit)
    (frame : F) : (r.settlement result frame).filterMap Action.frame? = [frame] := by
  rcases r.settlement_cases result frame with ⟨heq, -⟩ | heq <;> rw [heq] <;> rfl

private theorem frames_verdict (r : Unicasts.Record F W) (result : Except E Unit)
    (frame : F) (failedHop : Option Nwk) :
    (r.verdict result frame failedHop).filterMap Action.frame? = [frame] := by
  rcases r.verdict_cases result frame failedHop with ⟨heq, -⟩ | heq <;> rw [heq] <;> rfl

private theorem frames_report_broadcast (r : Broadcasts.Record F W E) (frame : F)
    (result : Except E Unit) (now : Instant) (interval : Duration) :
    (r.report frame result now interval).2.filterMap Action.frame? ++
      ((r.report frame result now interval).1.bind (·.frame)).toList = [frame] := by
  unfold Broadcasts.Record.report
  split
  · simp [frames_settlement]
  · dsimp only
    split
    · simp [frames_settlement]
    · split <;> rfl

/-- One step moves the frame of its send, and neither drops nor copies it. -/
theorem Life.Step.frames [FromSendFailure E] {id : SendId} {e : Event F W E}
    {l l' : Life F W E} {actions : Actions F W E} (h : Life.Step id e l actions l')
    (hok : l.Ok) (hbefore : e.before.life id = l)
    (hadmits : e.out.admitted.isSome = e.op.waiter.isSome) {tag : F → T} (hkeeps : e.Keeps tag)
    (hop : e.op.isAbandon = false) :
    (actions.filterMap Action.frame? ++ l'.frames).map tag =
      (l.frames ++ (e.admittedFrame id).toList).map tag := by
  have hno : ∀ {op : Op F W E}, e.op = op → op.waiter = none → e.admittedFrame id = none := by
    intro op heq hwaiter
    refine if_neg (fun hsome => ?_)
    simp [heq, hwaiter, hsome] at hadmits
  -- a token in the life has its id
  have htoken : ∀ token ∈ l.tokens, token.id = id := by
    intro token hmem
    rw [← hbefore] at hmem
    simpa using (List.mem_filter.mp hmem).2
  cases h with
  | idle quiet => simp [Event.admittedFrame, quiet.admitted]
  | tickIdle op => simp [hno op rfl]
  | abandoned op => simp [op, Op.isAbandon] at hop
  | admitUnicast admitted _ frame =>
    simp [Event.admittedFrame, admitted, frame, Unicasts.newRecord]
  | admitUnrouted admitted op =>
    simp [Event.admittedFrame, admitted, op, Op.frame, UnroutedUnicasts.newRecord]
  | admitBroadcast admitted op =>
    simp [Event.admittedFrame, admitted, op, Op.frame, Broadcasts.newRecord]
  | lendUnicast op _ _ _ frame =>
    simp [hno op rfl, frame, Unicasts.Record.lend]
  | @reportUnicast r acked token inFlight _ _ _ _ op tokenId issued stage =>
    have hframe := ((ok_unicast_iff.mp hok).lent (by rw [stage]; rfl)).1
    have hsame : tag inFlight.frame = tag token.frame := by
      simp only [Event.Keeps, op] at hkeeps
      exact hkeeps token issued ((htoken token (by simp)).trans tokenId.symm)
    simp [hno op rfl, frames_report_unicast, hframe, hsame]
  | pollUnicast op => simp [hno op rfl, Unicasts.Record.polled]
  | ackTransmitting op => simp [hno op rfl]
  | ackSettle op _ _ _ hframe | dropUnicast op _ hframe | cancelUnicast op _ _ hframe =>
    simp [hno op rfl, frames_verdict, hframe]
  | tickUnicast op => simp [hno op rfl]
  | lapseUnicast op _ hframe => simp [hno op rfl, frames_verdict, hframe]
  | @routed r now tunables resolve k frame nextHop pollAddress op _ resolved =>
    have hsame : tag frame = tag r.frame := by
      simp only [Event.Keeps, op] at hkeeps
      simpa [resolved] using hkeeps k r.frame
    simp [hno op rfl, Unicasts.newRecord, Sends.routed, hsame]
  | @routeFailed r now tunables resolve k frame err op _ resolved =>
    have hsame : tag frame = tag r.frame := by
      simp only [Event.Keeps, op] at hkeeps
      simpa [resolved] using hkeeps k r.frame
    simp [hno op rfl, Action.frame?, hsame]
  | lapseUnrouted op =>
    rcases op with op | ⟨destination, tunables, resolve, op⟩ <;>
      simp [hno op rfl, UnroutedUnicasts.settled, Action.frame?]
  | tickUnrouted op => simp [hno op rfl]
  | failUnrouted op | cancelUnrouted op =>
    simp [hno op rfl, UnroutedUnicasts.settled, Action.frame?]
  | lendBroadcast op _ _ _ frame =>
    simp [hno op rfl, frame, Broadcasts.Record.lend]
  | @reportBroadcast r token inFlight _ _ _ _ op tokenId issued copy =>
    have hframe := ((ok_broadcast_iff.mp hok).lent copy).1
    have hsame : tag inFlight.frame = tag token.frame := by
      simp only [Event.Keeps, op] at hkeeps
      exact hkeeps token issued ((htoken token (by simp)).trans tokenId.symm)
    simp [hno op rfl, frames_report_broadcast, hframe, hsame]
  | quorumNoted op => simp [hno op rfl]
  | quorumSettle op _ _ _ _ hframe | cancelBroadcast op _ hframe =>
    simp [hno op rfl, frames_settlement, hframe]
  | tickBroadcast op => simp [hno op rfl]
  | lapseBroadcast op _ hframe => simp [hno op rfl, frames_settlement, hframe]

/-- The frame of one send over a whole run. -/
theorem Life.Run.frames [FromSendFailure E] {id : SendId} {es : List (Event F W E)}
    {batches : List (Actions F W E)} {l : Life F W E} (h : Life.Run id es batches l)
    {tag : F → T} (hkeeps : ∀ e ∈ es, e.Keeps tag)
    (hop : ∀ e ∈ es, e.op.isAbandon = false) :
    (batches.flatten.filterMap Action.frame? ++ l.frames).map tag =
      (es.filterMap (Event.admittedFrame id)).map tag := by
  induction h with
  | start => rfl
  | @step es batches l l' e actions hrun hbefore _ hreturned _ hstep ih =>
    have ih := ih (fun e he => hkeeps e (by simp [he])) (fun e he => hop e (by simp [he]))
    have hmove := hstep.frames hrun.ok hbefore (step_admitted hreturned) (hkeeps e (by simp))
      (hop e (by simp))
    have hlast : [e].filterMap (Event.admittedFrame id) = (e.admittedFrame id).toList := by
      cases hframe : e.admittedFrame id <;> simp [hframe]
    simp only [List.map_append] at ih hmove
    simp only [List.flatten_append, List.flatten_cons, List.flatten_nil, List.append_nil,
      List.filterMap_append, List.map_append, List.append_assoc, hmove, hlast]
    rw [← List.append_assoc, ih]

/-! ## Sums over the ids -/

section Sums

variable {w : World F W E} (p : F → Bool)

theorem World.Ok.countP_recordFrames (h : w.Ok) :
    w.recordFrames.countP p = ∑ i ∈ Finset.range w.sends.nextId,
      ((((w.life i).unicast.bind (·.frame)).toList.countP p +
        ((w.life i).unrouted.map (·.frame)).toList.countP p) +
        ((w.life i).broadcast.bind (·.frame)).toList.countP p) := by
  have hbind : ∀ {V : Type} (o : Option V) (f : V → Option F),
      o.toList.countP (fun v => ((f v).map p).getD false) = (o.bind f).toList.countP p := by
    intro V o f
    cases o with
    | none => rfl
    | some v => cases hf : f v <;> simp [hf]
  have hmap : ∀ {V : Type} (o : Option V) (f : V → F),
      o.toList.countP (p ∘ f) = (o.map f).toList.countP p := by
    intro V o f
    cases o <;> simp
  rw [World.recordFrames, List.countP_append, List.countP_append, List.countP_filterMap,
    List.countP_filterMap, List.countP_map, FlatMap.countP_values _ _ h.unicasts_fresh,
    FlatMap.countP_values _ _ h.unrouted_fresh, FlatMap.countP_values _ _ h.broadcasts_fresh,
    ← Finset.sum_add_distrib, ← Finset.sum_add_distrib]
  refine Finset.sum_congr rfl (fun i _ => ?_)
  rw [hbind, hbind, hmap]
  rfl

theorem World.Ok.countP_tokenFrames (h : w.Ok) :
    w.tokenFrames.countP p = ∑ i ∈ Finset.range w.sends.nextId,
      ((w.life i).tokens.map (·.frame)).countP p := by
  let log := w.inFlight.map (fun token => (token.id, token.frame))
  have hproject : ∀ i, project i log = (w.life i).tokens.map (·.frame) := by
    intro i
    simp only [project, log, World.life, List.filter_map, List.map_map]
    rfl
  have hlt : ∀ entry ∈ log, entry.1 < w.sends.nextId := by
    intro entry hentry
    by_contra hge
    have hmem : entry.2 ∈ project entry.1 log := mem_project.mpr hentry
    rw [hproject, h.fresh entry.1 (not_lt.mp hge)] at hmem
    simp [Life.absent] at hmem
  have hlog : w.tokenFrames = log.map Prod.snd := by
    simp [World.tokenFrames, log, Function.comp_def]
  rw [hlog, countP_map_snd p hlt]
  exact Finset.sum_congr rfl (fun i _ => by rw [hproject])

theorem countP_settledFrames {es : List (Event F W E)}
    {logs : List (List (SendId × Action F W E))} {n : Nat}
    (hlogs : logs.map (List.map Prod.snd) = es.map (·.out.actions))
    (hbound : ∀ entry ∈ logs.flatten, entry.1 < n) :
    (settledFrames es).countP p = ∑ i ∈ Finset.range n,
      ((logs.map (project i)).flatten.filterMap Action.frame?).countP p := by
  rw [settledFrames, actionsOf_eq hlogs, List.countP_filterMap, countP_map_snd _ hbound]
  exact Finset.sum_congr rfl (fun i _ => by rw [project_flatten, List.countP_filterMap])

theorem Run.countP_admittedFrames [FromSendFailure E] {es : List (Event F W E)}
    (h : Run w es) :
    (admittedFrames es).countP p = ∑ i ∈ Finset.range w.sends.nextId,
      (es.filterMap (Event.admittedFrame i)).countP p := by
  let entry (e : Event F W E) : Option (SendId × F) :=
    e.out.admitted.bind fun i => e.op.frame.map fun frame => (i, frame)
  have hsnd : (es.filterMap entry).map Prod.snd = admittedFrames es := by
    rw [List.map_filterMap, admittedFrames]
    refine List.filterMap_congr (fun e he => ?_)
    have hadmits := step_admitted (h.returned e he)
    have hframe : e.op.waiter.isSome = e.op.frame.isSome := by cases e.op <;> rfl
    rw [hframe] at hadmits
    cases ha : e.out.admitted <;> cases hf : e.op.frame <;> simp_all [entry]
  have hproject : ∀ (i : SendId) (l : List (Event F W E)),
      project i (l.filterMap entry) = l.filterMap (Event.admittedFrame i) := by
    intro i l
    induction l with
    | nil => rfl
    | cons e l ih =>
      have hcons : project i (entry e).toList = (e.admittedFrame i).toList := by
        unfold entry Event.admittedFrame
        cases ha : e.out.admitted with
        | none => rfl
        | some j =>
          cases hf : e.op.frame <;> by_cases hj : j = i <;> simp [project, hj]
      have hsplit : ∀ {B : Type} (f : Event F W E → Option B),
          (e :: l).filterMap f = (f e).toList ++ l.filterMap f := by
        intro B f
        cases hf : f e <;> simp [hf]
      rw [hsplit, hsplit, project_append, hcons, ih]
  have hlt : ∀ x ∈ es.filterMap entry, x.1 < w.sends.nextId := by
    intro x hx
    obtain ⟨e, he, hentry⟩ := List.mem_filterMap.mp hx
    obtain ⟨i, hi, hframe⟩ := Option.bind_eq_some_iff.mp hentry
    obtain ⟨frame, -, rfl⟩ := Option.map_eq_some_iff.mp hframe
    exact h.admitted_lt e he i hi
  rw [← hsnd, countP_map_snd p hlt]
  exact Finset.sum_congr rfl (fun i _ => by rw [hproject])

end Sums

/-- The frames in the three places are those that were admitted. -/
theorem Run.frames_perm [FromSendFailure E] {w : World F W E} {es : List (Event F W E)}
    (h : Run w es) {tag : F → T} (hkeeps : ∀ e ∈ es, e.Keeps tag)
    (hop : ∀ e ∈ es, e.op.isAbandon = false) :
    ((w.recordFrames ++ w.tokenFrames ++ settledFrames es).map tag).Perm
      ((admittedFrames es).map tag) := by
  classical
  obtain ⟨logs, hlogs, hbound, hlives⟩ := h.lives
  rw [List.perm_iff_count]
  intro t
  rw [List.count_eq_countP, List.count_eq_countP, List.countP_map, List.countP_map,
    List.countP_append, List.countP_append, h.ok.countP_recordFrames, h.ok.countP_tokenFrames,
    countP_settledFrames _ hlogs hbound, h.countP_admittedFrames, ← Finset.sum_add_distrib,
    ← Finset.sum_add_distrib]
  refine Finset.sum_congr rfl (fun i _ => ?_)
  have hmove := congrArg (List.countP (· == t)) ((hlives i).frames hkeeps hop)
  rw [List.countP_map, List.countP_map, List.countP_append, Life.frames, List.countP_append,
    List.countP_append, List.countP_append] at hmove
  omega

/-- In every run, the waiter of a send hears one verdict, once the send is over,
or is returned by `abandon`, and hears of no handoff after the verdict.  Before an
`abandon`, every admitted frame is in one place: a record, an outstanding token,
or a verdict. -/
theorem verdict_exactly_once [FromSendFailure E] [DecidableEq W] {w : World F W E}
    {es : List (Event F W E)} (h : Run w es) :
    (∀ id waiter, Owns es id waiter →
      verdicts waiter es ≤ 1 ∧
      ((w.life id).live = true →
        verdicts waiter es = 0 ∧ (abandonedOf es).count waiter = 0) ∧
      ((w.life id).live = false →
        verdicts waiter es + (abandonedOf es).count waiter = 1) ∧
      ∀ pre post result frame failedHop,
        actionsOf es = pre ++ .settled waiter result frame failedHop :: post →
          .handedOff waiter ∉ post) ∧
    ∀ (T : Type) (tag : F → T), (∀ e ∈ es, e.Keeps tag) →
      (∀ e ∈ es, e.op.isAbandon = false) →
      ((w.recordFrames ++ w.tokenFrames ++ settledFrames es).map tag).Perm
        ((admittedFrames es).map tag) := by
  refine ⟨fun id waiter howns => ?_, fun T tag hkeeps hop => h.frames_perm hkeeps hop⟩
  obtain ⟨logs, hlogs, hbound, hlives⟩ := h.lives
  have hverdicts := howns.verdicts_eq h hlogs hbound hlives
  have habandoned := h.count_abandonedOf howns.alone
  obtain ⟨hlive, hover⟩ :=
    (hlives id).phase.settles_add_abandonments (howns.admittedWaiters_eq h)
  rw [← hverdicts, ← habandoned] at hlive hover
  refine ⟨?_, hlive, hover, fun pre post result frame failedHop hsplit =>
    howns.handedOff_not_mem h hsplit⟩
  cases hl : (w.life id).live with
  | true => exact (hlive hl).1 ▸ Nat.zero_le 1
  | false => exact hover hl ▸ Nat.le_add_right _ _

/-- Two admissions, a handoff and its ack. -/
def ackedCalls : List (Op Nat Nat SendFailure) :=
  let ack : ApsAckData := ⟨5, some 1, some 6, some 260, some 1, 3⟩
  let unicast : Unicast Nat Nat :=
    { frame := 7, priority := .userNormal, waiter := 100, confirm := .apsAck ack 1000,
      nextHop := 1, pollAddress := none }
  let unrouted : UnroutedUnicast Nat Nat :=
    { frame := 8, priority := .userNormal, waiter := 101, confirm := .onHandoff,
      destination := 2 }
  [.enqueueUnicast unicast 0 {}, .enqueueUnroutedUnicast unrouted 0 {}, .dequeue 1,
    .transmitted ⟨0, 7, .unicast 1 false⟩ (.ok ()) 2 10 10, .apsAckReceived ack]

theorem ackedCalls_return : (replay World.empty ackedCalls).isSome = true := by
  decide +kernel

/-- A send that is acked while an unrouted one waits: the first has its verdict, the
second has none yet, and both frames are where they should be. -/
theorem verdict_exactly_once_acked :
    ∃ (w : World Nat Nat SendFailure) (es : List (Event Nat Nat SendFailure)),
      Run w es ∧ verdicts 100 es + (abandonedOf es).count 100 = 1 ∧ verdicts 101 es = 0 ∧
        (w.recordFrames ++ w.tokenFrames ++ settledFrames es).Perm (admittedFrames es) := by
  have hrun := run_outcome ackedCalls ackedCalls_return
  have hkeeps : ∀ e ∈ (outcome ackedCalls ackedCalls_return).2, e.Keeps id := by
    intro e he
    have hlent : ∀ e ∈ (outcome ackedCalls ackedCalls_return).2,
        ∀ t ∈ e.before.inFlight, t.id = 0 → t.frame = 7 := by decide +kernel
    have hop : e.op ∈ ackedCalls :=
      map_op_replay (replay_eq_outcome ackedCalls ackedCalls_return) ▸ List.mem_map_of_mem he
    simp only [ackedCalls, List.mem_cons, List.not_mem_nil, or_false] at hop
    rcases hop with hop | hop | hop | hop | hop <;> simp only [Event.Keeps, hop]
    exact fun t ht hid => (hlent e he t ht hid).symm
  obtain ⟨hwaiters, hframes⟩ := verdict_exactly_once hrun
  have hperm := hframes Nat id hkeeps (by decide +kernel)
  refine ⟨_, _, hrun, ?_, ?_, by simpa using hperm⟩
  · exact (hwaiters 0 100 ⟨by decide +kernel, by decide +kernel⟩).2.2.1 (by decide +kernel)
  · exact ((hwaiters 1 101 ⟨by decide +kernel, by decide +kernel⟩).2.1 (by decide +kernel)).1

end Ziggurat
