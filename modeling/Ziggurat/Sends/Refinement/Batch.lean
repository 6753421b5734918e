import Ziggurat.Sends.Refinement.Single

/-!
# Calls that touch many sends

The verbs that walk a table: routing the sends to a destination, dropping the
frames of a device, cancelling a broadcast with its copies, the timer pass and
`abandon`.  Each id still sees one step of its own life; the log of the call is
what the loops write, tagged.
-/

namespace Ziggurat

open Lib.TagLog Lib.Drain

variable {F W E : Type}

/-! ## Routing -/

/-- What the loop of `route_unicasts` does to each send it takes. -/
theorem Sends.routeAll_ok (now : Instant) (tunables : Tunables) (resolve : Resolve F E)
    (taken : List (SendId × UnroutedUnicasts.Record F W))
    (hnodup : (taken.map Prod.fst).Nodup) (k : Nat) (t : Unicasts F W)
    (acc : Actions F W E) :
    ∃ (t' : Unicasts F W) (log : List (SendId × Action F W E)),
      routeAll now tunables resolve k taken (t, acc) = (t', acc ++ log.map Prod.snd) ∧
      (∀ id, id ∉ taken.map Prod.fst →
        t'.records.get id = t.records.get id ∧ project id log = []) ∧
      ∀ id r, (id, r) ∈ taken →
        (∃ k frame nextHop pollAddress,
          resolve k r.frame = (frame, .ok (nextHop, pollAddress)) ∧
          t'.records.get id = some (Unicasts.newRecord (routed r frame nextHop pollAddress) now
            (some r.deadline) none tunables) ∧ project id log = []) ∨
        ∃ k frame err, resolve k r.frame = (frame, .error err) ∧
          t'.records.get id = t.records.get id ∧
          project id log = [.settled r.waiter (.error err) frame none] := by
  induction taken generalizing k t acc with
  | nil => exact ⟨t, [], by simp [routeAll], by simp, by simp⟩
  | cons e taken ih =>
    obtain ⟨id, r⟩ := e
    simp only [List.map_cons, List.nodup_cons] at hnodup
    have hother : ∀ {id' r'}, (id', r') ∈ taken → id' ≠ id := fun hmem heq =>
      hnodup.1 (heq ▸ List.mem_map_of_mem hmem)
    rcases hresolve : resolve k r.frame with ⟨frame, err | ⟨nextHop, pollAddress⟩⟩
    · obtain ⟨t', log, hroute, hout, hin⟩ := ih hnodup.2 (k + 1) t
        (acc ++ [.settled r.waiter (.error err) frame none])
      refine ⟨t', tagAll id [.settled r.waiter (.error err) frame none] ++ log, ?_, ?_, ?_⟩
      · simp [routeAll, hresolve, hroute]
      · intro id' hid'
        simp only [List.map_cons, List.mem_cons, not_or] at hid'
        rw [project_append, project_tagAll_ne (Ne.symm hid'.1), List.nil_append]
        exact hout id' hid'.2
      · intro id' r' hmem
        rcases List.mem_cons.mp hmem with heq | hmem
        · obtain ⟨rfl, rfl⟩ := Prod.mk.inj heq
          obtain ⟨hget, hlog⟩ := hout id' hnodup.1
          exact Or.inr ⟨k, frame, err, hresolve, hget, by simp [hlog]⟩
        · rw [project_append, project_tagAll_ne (Ne.symm (hother hmem)), List.nil_append]
          exact hin id' r' hmem
    · let t₁ := t.enqueue id (routed r frame nextHop pollAddress) now (some r.deadline) none
        tunables
      have hget₁ : ∀ id', id' ≠ id → t₁.records.get id' = t.records.get id' := by
        intro id' hid'
        simp [t₁, Unicasts.enqueue, hid']
      obtain ⟨t', log, hroute, hout, hin⟩ := ih hnodup.2 (k + 1) t₁ acc
      refine ⟨t', log, ?_, ?_, ?_⟩
      · simp [routeAll, hresolve, hroute, t₁]
      · intro id' hid'
        simp only [List.map_cons, List.mem_cons, not_or] at hid'
        rw [← hget₁ id' hid'.1]
        exact hout id' hid'.2
      · intro id' r' hmem
        rcases List.mem_cons.mp hmem with heq | hmem
        · obtain ⟨rfl, rfl⟩ := Prod.mk.inj heq
          obtain ⟨hget, hlog⟩ := hout id' hnodup.1
          refine Or.inl ⟨k, frame, nextHop, pollAddress, hresolve, ?_, hlog⟩
          simp [hget, t₁, Unicasts.enqueue]
        · rw [← hget₁ id' (hother hmem)]
          exact hin id' r' hmem

/-! ## Cancelling the copies of a broadcast -/

/-- The sends that a cancel of `id` ends: `id` itself, and the live copies of a broadcast. -/
def Sends.CancelGroup (s : Sends F W E) (id i : SendId) : Prop :=
  i = id ∨ (s.broadcasts.records.get id).isSome = true ∧
    ∃ r, s.unicasts.records.get i = some r ∧ r.copyOf = some id

/-- The copies of a broadcast are looked up without a panic, and all of them are
outside the radio if the answer is `false`. -/
theorem Sends.anyTransmitting_ok (t : Unicasts F W) (copies : List SendId)
    (hmem : ∀ id ∈ copies, ∃ r, t.records.get id = some r) :
    ∃ answer, anyTransmitting t copies = .ok answer ∧
      (answer = false → ∀ id ∈ copies, ∀ r, t.records.get id = some r →
        r.stage.isTransmitting = false) := by
  induction copies with
  | nil => exact ⟨false, rfl, by simp⟩
  | cons id copies ih =>
    obtain ⟨r, hr⟩ := hmem id (by simp)
    obtain ⟨answer, hanswer, hfalse⟩ := ih (fun id' h => hmem id' (by simp [h]))
    cases hs : r.stage.isTransmitting with
    | true =>
      exact ⟨true, by simp [anyTransmitting, Unicasts.isTransmitting, hr, hs], by simp⟩
    | false =>
      refine ⟨answer, by simp [anyTransmitting, Unicasts.isTransmitting, hr, hs, hanswer], ?_⟩
      intro h id' hid' r' hr'
      rcases List.mem_cons.mp hid' with rfl | hid'
      · obtain rfl : r = r' := by simpa [hr] using hr'
        exact hs
      · exact hfalse h id' hid' r' hr'

/-- Cancelling distinct copies that are outside the radio settles each of them. -/
theorem Sends.cancelCopies_ok [FromSendFailure E] {t : Unicasts F W} (hheld : t.Held)
    {copies : List SendId} (hnodup : copies.Nodup) (actions : Actions F W E)
    (hmem : ∀ id ∈ copies, ∃ r, t.records.get id = some r ∧ r.stage.isTransmitting = false) :
    ∃ (t' : Unicasts F W) (log : List (SendId × Action F W E)),
      cancelCopies t copies actions = .ok (t', actions ++ log.map Prod.snd) ∧
      (∀ id, t'.records.get id = if id ∈ copies then none else t.records.get id) ∧
      (∀ id, id ∉ copies → project id log = []) ∧
      ∀ id ∈ copies, ∀ r, t.records.get id = some r →
        project id log = r.emit (.error (ofFailure .cancelled)) := by
  have hremove : ∀ (t : Unicasts F W) (id : SendId) (acc : Actions F W E)
      (r : Unicasts.Record F W), t.records.get id = some r →
      (r.stage.isTransmitting = false ∧ r.frame.isSome = true) →
      ∃ t', (do
          let cancelled ← Checked.unwrap (← t.cancel id)
          return (cancelled.1, acc ++ cancelled.2) : Checked (Unicasts F W × Actions F W E)) =
          .ok (t', acc ++ r.emit (.error (ofFailure .cancelled))) ∧
        ∀ k, t'.records.get k = if k = id then none else t.records.get k := by
    rintro t id acc r hr ⟨hstage, hframe⟩
    obtain ⟨frame, hframe⟩ := Option.isSome_iff_exists.mp hframe
    refine ⟨⟨t.records.remove id⟩, ?_, by simp⟩
    simp [Unicasts.cancel, hr, hstage, Unicasts.settle_ok hr hframe, Functor.map, Except.map,
      Unicasts.Record.emit_of_frame hframe]
  have hdrain := foldlM_drain (fun (t : Unicasts F W) id => t.records.get id) (fun id => id)
    (fun t id (acc : Actions F W E) => do
      let cancelled ← Checked.unwrap (← t.cancel id)
      return (cancelled.1, acc ++ cancelled.2))
    (fun _ r => r.emit (.error (ofFailure .cancelled)))
    (fun r => r.stage.isTransmitting = false ∧ r.frame.isSome = true) hremove copies
    (by simpa using hnodup) t actions
    (fun id hid => by
      obtain ⟨r, hr, hs⟩ := hmem id hid
      exact ⟨r, hr, hs, hheld id r hr hs⟩)
  simpa [cancelCopies] using hdrain

namespace Refinement

variable [FromSendFailure E] {w : World F W E}

theorem routeUnicasts (hok : w.Ok) (destination : Nwk) (now : Instant) (tunables : Tunables)
    (resolve : Resolve F E) :
    ∃ w' out log, Refines w (.routeUnicasts destination now tunables resolve) w' out log := by
  obtain ⟨t₁, log₁, htick, -, hget₁, hlog₁⟩ :=
    w.sends.unroutedUnicasts.tick_ok (E := E) now
  obtain ⟨t₂, hroute, hget₂⟩ := t₁.route_ok destination
  set taken := t₁.records.entries.filter (fun e => e.2.destination = destination) with htaken
  have hmem : ∀ id r, (id, r) ∈ taken ↔
      w.sends.unroutedUnicasts.records.get id = some r ∧ now < r.deadline ∧
        r.destination = destination := by
    intro id r
    simp [htaken, FlatMap.mem_entries, hget₁, Option.filter_eq_some_iff, and_assoc]
  have hnodup : (taken.map Prod.fst).Nodup :=
    (List.filter_sublist.map Prod.fst).nodup t₁.records.nodup_keys
  obtain ⟨t₃, log₂, hall, hout, hin⟩ := Sends.routeAll_ok now tunables resolve taken hnodup 0
    w.sends.unicasts (log₁.map Prod.snd)
  let w' : World F W E := { w with sends := { w.sends with
    unicasts := t₃, unroutedUnicasts := t₂ } }
  have hquiet : ∀ i, Event.Quiet ⟨w, .routeUnicasts destination now tunables resolve,
      { actions := (log₁ ++ log₂).map Prod.snd }, w'⟩ i := fun i =>
    quiet_pick rfl rfl rfl (by simp [Event.polledId]) (by simp [Event.ackedId])
      (by simp [Event.quorumId])
  refine ⟨w', { actions := (log₁ ++ log₂).map Prod.snd }, log₁ ++ log₂, ?_, rfl, fun i => ?_,
    Or.inl ⟨rfl, rfl⟩⟩
  · simp [step, Sends.routeUnicasts, htick, hroute, hall, w']
  rw [project_append, hlog₁]
  cases hr : w.sends.unroutedUnicasts.records.get i with
  | none =>
    have hi : i ∉ taken.map Prod.fst := by simp [hmem, hr]
    obtain ⟨hget, hlog⟩ := hout i hi
    have hlife : w'.life i = w.life i :=
      Life.ext (by simp [World.life, w', hget]) (by simp [World.life, w', hget₂, hget₁, hr])
        rfl rfl
    rw [hlife, hlog]
    exact .idle (hquiet i)
  | some r =>
    have hlife := (hok.lives i).eq_unrouted hr
    obtain ⟨hunicast, -, hbroadcast, htokens⟩ := Life.ext_iff.mp hlife
    have hunicast : w.sends.unicasts.records.get i = none := hunicast
    by_cases hdeadline : r.deadline ≤ now
    · have hnot : ¬ now < r.deadline := not_lt.mpr hdeadline
      have hi : i ∉ taken.map Prod.fst := by simp [hmem, hr, hnot]
      obtain ⟨hget, hlog⟩ := hout i hi
      have hlife' : w'.life i = .absent :=
        Life.ext (hget.trans hunicast)
          (by simp [World.life, w', hget₂, hget₁, hr, Option.filter, hnot, Life.absent])
          hbroadcast htokens
      have hlapsed : (some r).filter (fun r => decide (r.deadline ≤ now)) = some r := by
        simp [Option.filter, hdeadline]
      rw [hlife, hlife', hlog, hlapsed]
      exact .lapseUnrouted (Or.inr ⟨_, _, _, rfl⟩) hdeadline
    · have hdeadline' : now < r.deadline := not_le.mp hdeadline
      by_cases hd : r.destination = destination
      · have hunrouted' : t₂.records.get i = none := by
          simp [hget₂, hget₁, hr, Option.filter, hdeadline', hd]
        have hnone : (some r).filter (fun r => decide (r.deadline ≤ now)) = none := by
          simp [Option.filter, hdeadline]
        rw [hlife, hnone]
        subst hd
        rcases hin i r ((hmem i r).mpr ⟨hr, hdeadline', rfl⟩) with
          ⟨k, frame, nextHop, pollAddress, hresolve, hget, hlog⟩ |
          ⟨k, frame, err, hresolve, hget, hlog⟩
        · have hlife' : w'.life i = { unicast := some (Unicasts.newRecord
              (Sends.routed r frame nextHop pollAddress) now (some r.deadline) none tunables) } :=
            Life.ext hget hunrouted' hbroadcast htokens
          rw [hlife', hlog]
          exact .routed rfl hdeadline' hresolve
        · have hlife' : w'.life i = .absent :=
            Life.ext (hget.trans hunicast) hunrouted' hbroadcast htokens
          rw [hlife', hlog]
          exact .routeFailed rfl hdeadline' hresolve
      · have hi : i ∉ taken.map Prod.fst := by simp [hmem, hr, hd]
        obtain ⟨hget, hlog⟩ := hout i hi
        have hlife' : w'.life i = w.life i :=
          Life.ext (by simp [World.life, w', hget])
            (by simp [World.life, w', hget₂, hget₁, hr, Option.filter, hdeadline', hd])
            rfl rfl
        rw [hlife', hlog]
        simpa [Option.filter, hdeadline] using Life.Step.idle (l := w.life i) (hquiet i)

/-! ## Quorums and departures -/

theorem broadcastDelivered (hok : w.Ok) (key : Nwk × UInt8) :
    ∃ w' out log, Refines w (.broadcastDelivered key) w' out log := by
  have hquiet : ∀ {actions : Actions F W E} {w' : World F W E} (i : SendId),
      Event.quorumId ⟨w, .broadcastDelivered key, { actions }, w'⟩ ≠ some i →
      Event.Quiet ⟨w, .broadcastDelivered key, { actions }, w'⟩ i := fun i =>
    quiet_pick rfl rfl rfl (by simp [Event.polledId]) (by simp [Event.ackedId])
  rcases Broadcasts.delivered_ok hok.sound key with ⟨hfind, hreturned⟩ | ⟨id, r, hfind, hget,
    hawaits, ⟨hearly, hreturned⟩ | ⟨hcopy, hoff, frame, hframe, hreturned⟩⟩
  · exact ⟨w, {}, [], by simp [step, Sends.broadcastDelivered, hreturned], rfl,
      fun i => .idle (hquiet i (by simp [Event.quorumId, hfind])), Or.inl ⟨rfl, rfl⟩⟩
  · let noted : Broadcasts.Record F W E := { r with quorumHeard := true }
    let w' : World F W E := { w with sends := { w.sends with
      broadcasts := ⟨w.sends.broadcasts.records.set id noted⟩ } }
    have hlife := (hok.lives id).eq_broadcast hget
    obtain ⟨hunicast, hunrouted, -, -⟩ := Life.ext_iff.mp hlife
    have hlife' : w'.life id = { broadcast := some noted, tokens := (w.life id).tokens } :=
      Life.ext hunicast hunrouted (by simp [w', World.life]) rfl
    refine ⟨w', {}, tagAll id [], ?_, rfl, steps_single id ?_ ?_ (fun i hi => hquiet i ?_),
      Or.inl ⟨rfl, rfl⟩⟩
    · simp [step, Sends.broadcastDelivered, hreturned, w', noted]
    · rw [hlife, hlife']
      exact .quorumNoted rfl (by simp [Event.quorumId, hfind]) hawaits hearly
    · intro i hi
      simp only [World.life, w', FlatMap.get_set, hi, if_false]
    · simpa [Event.quorumId, hfind] using Ne.symm hi
  · let w' : World F W E := { w with sends := { w.sends with
      broadcasts := ⟨w.sends.broadcasts.records.remove id⟩ } }
    have hlife := (hok.lives id).eq_broadcast_held hget hcopy
    obtain ⟨hunicast, hunrouted, -, htokens⟩ := Life.ext_iff.mp hlife
    have hlife' : w'.life id = .absent :=
      Life.ext hunicast hunrouted (by simp [w', World.life, Life.absent]) htokens
    refine ⟨w', { actions := r.settlement (.ok ()) frame }, tagAll id _, ?_,
      (map_snd_tagAll _ _).symm, steps_single id ?_ ?_ (fun i hi => hquiet i ?_),
      Or.inl ⟨rfl, rfl⟩⟩
    · simp [step, Sends.broadcastDelivered, hreturned, w']
    · rw [hlife, hlife']
      exact .quorumSettle rfl (by simp [Event.quorumId, hfind]) hawaits hcopy hoff hframe
    · intro i hi
      simp only [World.life, w', FlatMap.get_remove, hi, if_false]
    · simpa [Event.quorumId, hfind] using Ne.symm hi

theorem dropIndirectUnicasts (hok : w.Ok) (eui64 : Option Eui64) (nwk : Nwk) :
    ∃ w' out log, Refines w (.dropIndirectUnicasts eui64 nwk) w' out log := by
  obtain ⟨t', log, hreturned, hlog⟩ :=
    Unicasts.dropIndirect_ok (E := E) hok.held eui64 nwk
  let w' : World F W E := { w with sends := { w.sends with unicasts := t' } }
  refine ⟨w', { actions := log.map Prod.snd }, log,
    by simp [step, Sends.dropIndirectUnicasts, hreturned, w'], rfl, fun i => ?_,
    Or.inl ⟨rfl, rfl⟩⟩
  have hkept : t'.records.get i = w.sends.unicasts.records.get i → project i log = [] →
      Life.Step i ⟨w, .dropIndirectUnicasts eui64 nwk, { actions := log.map Prod.snd }, w'⟩
        (w.life i) (project i log) (w'.life i) := by
    intro hget hnil
    have hlife : w'.life i = w.life i := Life.ext hget rfl rfl rfl
    rw [hlife, hnil]
    exact .idle (quiet_pick rfl rfl rfl (by simp [Event.polledId]) (by simp [Event.ackedId])
      (by simp [Event.quorumId]))
  cases hr : w.sends.unicasts.records.get i with
  | none =>
    obtain ⟨hget, hnil⟩ := (hlog i).1 hr
    exact hkept (hget.trans hr.symm) hnil
  | some r =>
    cases hd : r.dropped eui64 nwk with
    | none =>
      obtain ⟨hget, hnil⟩ := ((hlog i).2 r hr).1 hd
      exact hkept (hget.trans hr.symm) hnil
    | some destination =>
      obtain ⟨hget, hemit⟩ := ((hlog i).2 r hr).2 destination hd
      have hheld : r.stage.isTransmitting = false := by
        rw [Unicasts.Record.stage_of_dropped hd]
        rfl
      obtain ⟨frame, hframe⟩ := Option.isSome_iff_exists.mp (hok.held i r hr hheld)
      have hlife := (hok.lives i).eq_unicast_held hr hheld
      obtain ⟨-, hunrouted, hbroadcast, htokens⟩ := Life.ext_iff.mp hlife
      have hlife' : w'.life i = .absent := Life.ext hget hunrouted hbroadcast htokens
      rw [hlife, hlife', hemit, Unicasts.Record.emit_of_frame hframe]
      exact .dropUnicast rfl hd hframe

/-! ## Cancels -/

omit [FromSendFailure E] in
private theorem quiet_cancel {w w' : World F W E} {id i : SendId} {answer : Bool}
    {actions : Actions F W E} :
    Event.Quiet ⟨w, .cancel id, { answer, actions }, w'⟩ i :=
  quiet_pick rfl rfl rfl (by simp [Event.polledId]) (by simp [Event.ackedId])
    (by simp [Event.quorumId])

/-- What a cancel that is carried out says to one of the sends that it ends. -/
inductive CancelledWith : Life F W E → Actions F W E → Prop where
  | unicast {r : Unicasts.Record F W} {frame : F} (stage : r.stage.isTransmitting = false)
      (hframe : r.frame = some frame) : CancelledWith { unicast := some r }
        (r.verdict (.error (ofFailure .cancelled)) frame none)
  | unrouted {r : UnroutedUnicasts.Record F W} :
      CancelledWith { unrouted := some r } [UnroutedUnicasts.settled r .cancelled]
  | broadcast {r : Broadcasts.Record F W E} {frame : F} (copy : r.copy ≠ .transmitting)
      (hframe : r.frame = some frame) : CancelledWith { broadcast := some r }
        (r.settlement (.error (ofFailure .cancelled)) frame)

/-- A cancel is carried out: it ends `id` and, for a broadcast, the copies of it, and leaves
everything else alone. -/
structure CarriedOut (w : World F W E) (id : SendId) (s' : Sends F W E)
    (log : List (SendId × Action F W E)) : Prop where
  returned : w.sends.cancel id = .ok (some (s', log.map Prod.snd))
  nextId : s'.nextId = w.sends.nextId
  ended : ∀ i, w.sends.CancelGroup id i →
    CancelledWith (w.life i) (project i log) ∧ { w with sends := s' }.life i = .absent
  others : ∀ i, ¬w.sends.CancelGroup id i →
    project i log = [] ∧ { w with sends := s' }.life i = w.life i

omit [FromSendFailure E] in
/-- A send that is no broadcast is cancelled alone. -/
theorem cancelGroup_iff {id i : SendId} (hbroadcast : w.sends.broadcasts.records.get id = none) :
    w.sends.CancelGroup id i ↔ i = id := by
  simp [Sends.CancelGroup, hbroadcast]

private theorem cancel_unicast (hok : w.Ok) {id : SendId} {r : Unicasts.Record F W}
    (hget : w.sends.unicasts.records.get id = some r) :
    w.sends.cancel id = .ok none ∨ ∃ s' log, CarriedOut w id s' log := by
  have hcontains : w.sends.unicasts.contains id = true := by
    simp [Unicasts.contains_eq_isSome, hget]
  rcases Unicasts.cancel_ok (E := E) hok.held hget with ⟨-, hreturned⟩ |
    ⟨hstage, frame, hframe, hreturned⟩
  · exact .inl (by simp [Sends.cancel, hcontains, hreturned])
  · right
    have hlife := (hok.lives id).eq_unicast_held hget hstage
    obtain ⟨-, hunrouted, hbroadcast, htokens⟩ := Life.ext_iff.mp hlife
    let verdict : Actions F W E := r.verdict (.error (ofFailure .cancelled)) frame none
    refine ⟨{ w.sends with unicasts := ⟨w.sends.unicasts.records.remove id⟩ },
      tagAll id verdict, ?_, rfl, fun i hi => ?_, fun i hi => ?_⟩
    · simp [Sends.cancel, hcontains, hreturned, verdict]
    · obtain rfl := (cancelGroup_iff hbroadcast).mp hi
      rw [project_tagAll_self, hlife]
      exact ⟨.unicast hstage hframe,
        Life.ext (by simp [World.life, Life.absent]) hunrouted hbroadcast htokens⟩
    · have hne : i ≠ id := fun heq => hi ((cancelGroup_iff hbroadcast).mpr heq)
      refine ⟨project_tagAll_ne (Ne.symm hne) _, ?_⟩
      simp only [World.life, FlatMap.get_remove, hne, if_false]

private theorem cancel_unrouted (hok : w.Ok) {id : SendId} {r : UnroutedUnicasts.Record F W}
    (hget : w.sends.unroutedUnicasts.records.get id = some r) :
    ∃ s' log, CarriedOut w id s' log := by
  have hlife := (hok.lives id).eq_unrouted hget
  obtain ⟨hunicast, -, hbroadcast, htokens⟩ := Life.ext_iff.mp hlife
  have hnot : w.sends.unicasts.contains id = false := by
    rw [Unicasts.contains_eq_isSome, show w.sends.unicasts.records.get id = none from hunicast]
    rfl
  have hcontains : w.sends.unroutedUnicasts.contains id = true := by
    simp [UnroutedUnicasts.contains, FlatMap.containsKey_eq_isSome, hget]
  refine ⟨{ w.sends with unroutedUnicasts := { w.sends.unroutedUnicasts with
      records := w.sends.unroutedUnicasts.records.remove id } },
    tagAll id [UnroutedUnicasts.settled r .cancelled], ?_, rfl, fun i hi => ?_, fun i hi => ?_⟩
  · simp [Sends.cancel, hnot, hcontains, w.sends.unroutedUnicasts.cancel_ok (E := E) hget]
  · obtain rfl := (cancelGroup_iff hbroadcast).mp hi
    rw [project_tagAll_self, hlife]
    exact ⟨.unrouted,
      Life.ext hunicast (by simp [World.life, Life.absent]) hbroadcast htokens⟩
  · have hne : i ≠ id := fun heq => hi ((cancelGroup_iff hbroadcast).mpr heq)
    refine ⟨project_tagAll_ne (Ne.symm hne) _, ?_⟩
    simp only [World.life, FlatMap.get_remove, hne, if_false]

/-- A broadcast is cancelled together with its copies, or not at all. -/
private theorem cancel_broadcast (hok : w.Ok) {id : SendId}
    (hunicast : w.sends.unicasts.records.get id = none)
    (hunrouted : w.sends.unroutedUnicasts.records.get id = none) :
    w.sends.cancel id = .ok none ∨ ∃ s' log, CarriedOut w id s' log := by
  have hcancel : w.sends.cancel id = w.sends.cancelBroadcast id := by
    simp [Sends.cancel, Unicasts.contains_eq_isSome, hunicast, UnroutedUnicasts.contains,
      FlatMap.containsKey_eq_isSome, hunrouted]
  set copies := w.sends.unicasts.copiesOf id with hcopies
  have hmem : ∀ i, i ∈ copies ↔
      ∃ r, w.sends.unicasts.records.get i = some r ∧ r.copyOf = some id := by
    intro i
    simp [hcopies, Unicasts.copiesOf, FlatMap.mem_entries]
  have hnodup : copies.Nodup :=
    (List.filter_sublist.map Prod.fst).nodup w.sends.unicasts.records.nodup_keys
  obtain ⟨answer, hany, hfree⟩ := Sends.anyTransmitting_ok w.sends.unicasts copies
    (fun i hi => by
      obtain ⟨r, hr, -⟩ := (hmem i).mp hi
      exact ⟨r, hr⟩)
  cases answer with
  | true => exact .inl (by simp [hcancel, Sends.cancelBroadcast, ← hcopies, hany])
  | false =>
    cases hget : w.sends.broadcasts.records.get id with
    | none =>
      exact .inl (by
        simp [hcancel, Sends.cancelBroadcast, ← hcopies, hany, Broadcasts.cancel, hget])
    | some r =>
      rcases Broadcasts.cancel_ok hok.sound hget with ⟨-, hreturned⟩ |
        ⟨hcopy, frame, hframe, hreturned⟩
      · exact .inl (by
          simp [hcancel, Sends.cancelBroadcast, ← hcopies, hany, hreturned])
      · right
        let verdict : Actions F W E := r.settlement (.error (ofFailure .cancelled)) frame
        obtain ⟨t', log, hcopiesOk, hget', hnone, hsome⟩ := Sends.cancelCopies_ok hok.held hnodup
          verdict (fun i hi => by
            obtain ⟨u, hu, -⟩ := (hmem i).mp hi
            exact ⟨u, hu, hfree rfl i hi u hu⟩)
        have hgroup : ∀ i, w.sends.CancelGroup id i ↔ i = id ∨ i ∈ copies := by
          intro i
          simp [Sends.CancelGroup, hget, hmem]
        refine ⟨{ w.sends with
            unicasts := t', broadcasts := ⟨w.sends.broadcasts.records.remove id⟩ },
          tagAll id verdict ++ log, ?_, rfl, fun i hi => ?_, fun i hi => ?_⟩
        · simp [hcancel, Sends.cancelBroadcast, ← hcopies, hany, hreturned, hcopiesOk, verdict]
        · rw [project_append]
          by_cases hself : i = id
          · subst hself
            -- the broadcast itself; it is not in the unicasts, so not one of its copies
            have hnot : i ∉ copies := by simp [hmem, hunicast]
            have hlife := (hok.lives i).eq_broadcast_held hget hcopy
            obtain ⟨-, -, -, htokens⟩ := Life.ext_iff.mp hlife
            rw [project_tagAll_self, hnone i hnot, List.append_nil, hlife]
            exact ⟨.broadcast hcopy hframe,
              Life.ext (by simp [World.life, hget', hunicast, Life.absent]) hunrouted
                (by simp [World.life, Life.absent]) htokens⟩
          · have hic : i ∈ copies := ((hgroup i).mp hi).resolve_left hself
            obtain ⟨u, hu, hcopyOf⟩ := (hmem i).mp hic
            have hstage := hfree rfl i hic u hu
            obtain ⟨frame, hframe⟩ := Option.isSome_iff_exists.mp (hok.held i u hu hstage)
            have hlife := (hok.lives i).eq_unicast_held hu hstage
            obtain ⟨-, hunrouted', hbroadcast', htokens⟩ := Life.ext_iff.mp hlife
            rw [project_tagAll_ne (Ne.symm hself), List.nil_append, hsome i hic u hu,
              Unicasts.Record.emit_of_frame hframe, hlife]
            exact ⟨.unicast hstage hframe,
              Life.ext (by simp [World.life, hget', hic, Life.absent]) hunrouted'
                (by simpa [World.life, hself, Life.absent] using hbroadcast') htokens⟩
        · rw [hgroup] at hi
          have hself : i ≠ id := fun heq => hi (.inl heq)
          have hic : i ∉ copies := fun hmem => hi (.inr hmem)
          rw [project_append, project_tagAll_ne (Ne.symm hself), List.nil_append]
          refine ⟨hnone i hic, ?_⟩
          simp only [World.life, hget', hic, if_false, FlatMap.get_remove, hself]

/-- A cancel is refused, or carried out as a whole. -/
theorem cancel_cases (hok : w.Ok) (id : SendId) :
    w.sends.cancel id = .ok none ∨ ∃ s' log, CarriedOut w id s' log := by
  cases hu : w.sends.unicasts.records.get id with
  | some r => exact cancel_unicast hok hu
  | none =>
    cases hr : w.sends.unroutedUnicasts.records.get id with
    | some r => exact .inr (cancel_unrouted hok hr)
    | none => exact cancel_broadcast hok hu hr

theorem cancel (hok : w.Ok) (id : SendId) :
    ∃ w' out log, Refines w (.cancel id) w' out log := by
  obtain hrefused | ⟨s', log, h⟩ := cancel_cases hok id
  · exact ⟨w, {}, [], by simp [step, hrefused], rfl, fun _ => .idle quiet_cancel,
      .inl ⟨rfl, rfl⟩⟩
  · refine ⟨{ w with sends := s' }, { answer := true, actions := log.map Prod.snd }, log,
      by simp [step, h.returned], rfl, fun i => ?_, .inl ⟨rfl, h.nextId⟩⟩
    by_cases hi : w.sends.CancelGroup id i
    · obtain ⟨hcancelled, habsent⟩ := h.ended i hi
      rw [habsent]
      generalize hlife : w.life i = l, project i log = actions at hcancelled ⊢
      cases hcancelled with
      | @unicast r _ hstage hframe =>
        refine .cancelUnicast rfl hstage ?_ hframe
        obtain heq | ⟨-, r', hget, hcopyOf⟩ := hi
        · exact .inl heq.symm
        · cases hget.symm.trans (congrArg Life.unicast hlife)
          exact .inr hcopyOf
      | unrouted =>
        obtain rfl | ⟨-, r', hget, -⟩ := hi
        · exact .cancelUnrouted rfl
        · cases hget.symm.trans (congrArg Life.unicast hlife)
      | broadcast hcopy hframe =>
        obtain rfl | ⟨-, r', hget, -⟩ := hi
        · exact .cancelBroadcast rfl hcopy hframe
        · cases hget.symm.trans (congrArg Life.unicast hlife)
    · obtain ⟨hnil, hsame⟩ := h.others i hi
      rw [hsame, hnil]
      exact .idle quiet_cancel

/-! ## Sweeps -/

section

variable {i : SendId} {e : Event F W E} {now : Instant} {l' : Life F W E} {actions : Actions F W E}

/-- A pass over a unicast: in the radio it stays, and otherwise it is queued again or lapses. -/
private theorem tick_unicast (hok : w.Ok) {r : Unicasts.Record F W}
    (hget : w.sends.unicasts.records.get i = some r) (hop : e.op = .tick now)
    (hpass : ((r.requeue now).lapse now = none →
        l'.unicast = some (r.requeue now) ∧ actions = []) ∧
      ∀ failure, (r.requeue now).lapse now = some failure →
        l'.unicast = none ∧ actions = (r.requeue now).emit (.error (ofFailure failure)))
    (hunrouted' : l'.unrouted = none) (hbroadcast' : l'.broadcast = none)
    (htokens' : l'.tokens = (w.life i).tokens) : Life.Step i e (w.life i) actions l' := by
  obtain ⟨hunrouted, hbroadcast, -⟩ := (hok.lives i).unicast r hget
  cases hs : r.stage.isTransmitting with
  | true =>
    have hsame := Unicasts.Record.requeue_of_transmitting hs now
    have hnone : (r.requeue now).lapse now = none := by
      rw [hsame]
      by_contra hlapse
      obtain ⟨failure, hfailure⟩ := Option.ne_none_iff_exists'.mp hlapse
      simp [Unicasts.Record.isTransmitting_of_lapse hfailure] at hs
    obtain ⟨hget', rfl⟩ := hpass.1 hnone
    rw [hsame] at hget'
    obtain rfl : l' = w.life i := Life.ext (hget'.trans hget.symm)
      (hunrouted'.trans hunrouted.symm) (hbroadcast'.trans hbroadcast.symm) htokens'
    refine .tickIdle hop hunrouted (fun r' hr' => ?_) (fun r' hr' => ?_)
    · obtain rfl : r = r' := Option.some.inj (hget.symm.trans hr')
      exact hs
    · exact absurd (hbroadcast.symm.trans hr') (by simp)
  | false =>
    have hlife := (hok.lives i).eq_unicast_held hget hs
    rw [hlife] at htokens' ⊢
    cases hlapse : (r.requeue now).lapse now with
    | none =>
      obtain ⟨hget', rfl⟩ := hpass.1 hlapse
      obtain rfl : l' = { unicast := some (r.requeue now) } :=
        Life.ext hget' hunrouted' hbroadcast' htokens'
      exact .tickUnicast hop hs hlapse
    | some failure =>
      obtain ⟨hget', rfl⟩ := hpass.2 failure hlapse
      obtain ⟨frame, hframe⟩ := Option.isSome_iff_exists.mp (hok.held i r hget hs)
      obtain rfl : l' = .absent := Life.ext hget' hunrouted' hbroadcast' htokens'
      rw [Unicasts.Record.emit_of_frame (by simpa using hframe)]
      exact .lapseUnicast hop hlapse hframe

/-- A pass over an unrouted unicast: it lapses at its deadline. -/
private theorem tick_unrouted (hok : w.Ok) {r : UnroutedUnicasts.Record F W}
    (hget : w.sends.unroutedUnicasts.records.get i = some r) (hop : e.op = .tick now)
    (hunrouted' : l'.unrouted = (some r).filter fun r => decide (now < r.deadline))
    (hactions : actions = (((some r).filter fun r => decide (r.deadline ≤ now)).map
      (UnroutedUnicasts.settled · .handoffTimeout)).toList)
    (hunicast' : l'.unicast = none) (hbroadcast' : l'.broadcast = none)
    (htokens' : l'.tokens = (w.life i).tokens) : Life.Step i e (w.life i) actions l' := by
  have hlife := (hok.lives i).eq_unrouted hget
  rw [hlife] at htokens' ⊢
  by_cases hdeadline : r.deadline ≤ now
  · simp only [Option.filter, not_lt.mpr hdeadline, hdeadline] at hunrouted' hactions
    obtain rfl : l' = .absent := Life.ext hunicast' hunrouted' hbroadcast' htokens'
    rw [hactions]
    exact .lapseUnrouted (Or.inl hop) hdeadline
  · simp only [Option.filter, not_le.mp hdeadline, hdeadline] at hunrouted' hactions
    obtain rfl : l' = { unrouted := some r } :=
      Life.ext hunicast' hunrouted' hbroadcast' htokens'
    rw [hactions]
    exact .tickUnrouted hop (not_le.mp hdeadline)

/-- A pass over a broadcast: in the radio it stays, and otherwise it goes on or is settled. -/
private theorem tick_broadcast (hok : w.Ok) {r : Broadcasts.Record F W E}
    (hget : w.sends.broadcasts.records.get i = some r) (hop : e.op = .tick now)
    (hpass : (r.due now = none → l'.broadcast = some (r.advance now).1 ∧ actions = []) ∧
      ∀ result, r.due now = some result →
        l'.broadcast = none ∧ actions = (r.advance now).1.emit result)
    (hunicast : w.sends.unicasts.records.get i = none) (hunicast' : l'.unicast = none)
    (hunrouted : w.sends.unroutedUnicasts.records.get i = none) (hunrouted' : l'.unrouted = none)
    (htokens' : l'.tokens = (w.life i).tokens) : Life.Step i e (w.life i) actions l' := by
  have hverdict := Broadcasts.Record.verdict_eq_due ((hok.lives i).broadcast r hget) now
  by_cases hcopy : r.copy = .transmitting
  · have hdue : r.due now = none := by
      by_contra hdue
      obtain ⟨result, hresult⟩ := Option.ne_none_iff_exists'.mp hdue
      exact Broadcasts.Record.copy_of_due hresult hcopy
    obtain ⟨hget', rfl⟩ := hpass.1 hdue
    rw [Broadcasts.Record.advance_transmitting hcopy] at hget'
    obtain rfl : l' = w.life i := Life.ext (hunicast'.trans hunicast.symm)
      (hunrouted'.trans hunrouted.symm) (hget'.trans hget.symm) htokens'
    refine .tickIdle hop hunrouted (fun r' hr' => ?_) (fun r' hr' => ?_)
    · exact absurd (hunicast.symm.trans hr') (by simp)
    · obtain rfl : r = r' := Option.some.inj (hget.symm.trans hr')
      exact hcopy
  · have hlife := (hok.lives i).eq_broadcast_held hget hcopy
    rw [hlife] at htokens' ⊢
    cases hdue : r.due now with
    | none =>
      obtain ⟨hget', rfl⟩ := hpass.1 hdue
      obtain rfl : l' = { broadcast := some (r.advance now).1 } :=
        Life.ext hunicast' hunrouted' hget' htokens'
      exact .tickBroadcast hop hcopy (hdue ▸ hverdict)
    | some result =>
      obtain ⟨hget', rfl⟩ := hpass.2 result hdue
      obtain ⟨frame, hframe⟩ := hok.sound.held hget hcopy
      obtain rfl : l' = .absent := Life.ext hunicast' hunrouted' hget' htokens'
      rw [Broadcasts.Record.emit_of_frame (by simpa using hframe)]
      exact .lapseBroadcast hop (hdue ▸ hverdict) hframe

end

/-- The three tables are swept one after the other, and each send is in one of them at most. -/
theorem tick (hok : w.Ok) (now : Instant) :
    ∃ w' out log, Refines w (.tick now) w' out log := by
  obtain ⟨t₁, log₁, hreturned₁, hlog₁⟩ := Unicasts.tick_ok (E := E) hok.held now
  obtain ⟨t₂, log₂, hreturned₂, -, hget₂, hlog₂⟩ :=
    w.sends.unroutedUnicasts.tick_ok (E := E) now
  obtain ⟨t₃, log₃, hreturned₃, hlog₃⟩ := Broadcasts.tick_ok hok.sound now
  let w' : World F W E := { w with sends := { w.sends with
    unicasts := t₁, unroutedUnicasts := t₂, broadcasts := t₃ } }
  refine ⟨w', { actions := (log₁ ++ log₂ ++ log₃).map Prod.snd }, log₁ ++ log₂ ++ log₃, ?_, rfl,
    fun i => ?_, Or.inl ⟨rfl, rfl⟩⟩
  · simp [step, Sends.tick, hreturned₁, hreturned₂, hreturned₃, w']
  rw [project_append, project_append, hlog₂]
  cases hu : w.sends.unicasts.records.get i with
  | some r =>
    obtain ⟨hunrouted, hbroadcast, -⟩ := (hok.lives i).unicast r hu
    have hunrouted : w.sends.unroutedUnicasts.records.get i = none := hunrouted
    obtain ⟨hget₃, hnil₃⟩ := (hlog₃ i).1 hbroadcast
    have hget₂ : t₂.records.get i = none := by simp [hget₂, hunrouted]
    simp only [hunrouted, Option.filter_none, Option.map_none, Option.toList_none, hnil₃,
      List.append_nil]
    exact tick_unicast hok hu rfl ((hlog₁ i).2 r hu) hget₂ hget₃ rfl
  | none =>
    obtain ⟨hget₁, hnil₁⟩ := (hlog₁ i).1 hu
    rw [hnil₁, List.nil_append]
    cases hr : w.sends.unroutedUnicasts.records.get i with
    | some r =>
      obtain ⟨-, -, hbroadcast, -⟩ := Life.ext_iff.mp ((hok.lives i).eq_unrouted hr)
      obtain ⟨hget₃, hnil₃⟩ := (hlog₃ i).1 hbroadcast
      rw [hnil₃, List.append_nil]
      exact tick_unrouted hok hr rfl ((hget₂ i).trans (by rw [hr])) rfl hget₁ hget₃ rfl
    | none =>
      have hget₂ : t₂.records.get i = none := by simp [hget₂, hr]
      simp only [Option.filter_none, Option.map_none, Option.toList_none, List.nil_append]
      cases hb : w.sends.broadcasts.records.get i with
      | some r => exact tick_broadcast hok hb rfl ((hlog₃ i).2 r hb) hu hget₁ hr hget₂ rfl
      | none =>
        obtain ⟨hget₃, hnil₃⟩ := (hlog₃ i).1 hb
        have hlife : w'.life i = w.life i :=
          Life.ext (hget₁.trans hu.symm) (hget₂.trans hr.symm) (hget₃.trans hb.symm) rfl
        rw [hlife, hnil₃]
        refine .tickIdle rfl hr (fun r' hr' => ?_) (fun r' hr' => ?_)
        · exact absurd (hu.symm.trans hr') (by simp)
        · exact absurd (hb.symm.trans hr') (by simp)

theorem abandon (w : World F W E) : ∃ w' out log, Refines w .abandon w' out log := by
  refine ⟨_, _, [], rfl, rfl, fun i => ?_, Or.inl ⟨rfl, rfl⟩⟩
  exact .abandoned rfl

end Refinement

end Ziggurat
