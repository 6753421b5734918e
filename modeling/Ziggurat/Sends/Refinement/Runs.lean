import Ziggurat.Sends.Refinement.Batch

/-!
# Runs refine the lives of their sends

`step_refines` gathers the verbs: a legal call on a sound world returns and
`Refines`.  `Run.lives` is the rule that the temporal properties use.  A run
leaves a sound world, and there is one tagged log for each event such that every
id has lived a `Life.Run` through the projections of the logs.
-/

namespace Ziggurat

open Lib.TagLog

variable {F W E : Type} [FromSendFailure E] {w w' : World F W E} {op : Op F W E}

/-- Nothing happens to an id before its admission. -/
theorem Life.Step.of_absent {i : SendId} {e : Event F W E} {l l' : Life F W E}
    {actions : Actions F W E} (h : Life.Step i e l actions l') (hl : l = .absent)
    (hadmitted : e.out.admitted ≠ some i) : l' = .absent ∧ actions = [] := by
  cases h with
  | idle | tickIdle => exact ⟨hl, rfl⟩
  | abandoned => exact ⟨rfl, rfl⟩
  | admitUnicast hadm | admitUnrouted hadm | admitBroadcast hadm => exact absurd hadm hadmitted
  | _ => simp [absent] at hl

namespace Refines

variable {out : Output F W E} {log : List (SendId × Action F W E)}

/-- A call keeps the invariant of the world. -/
theorem ok (h : Refines w op w' out log) (hok : w.Ok) : w'.Ok := by
  refine ⟨fun i => (h.steps i).ok (hok.lives i), fun i hi => ?_⟩
  have hnext : w.sends.nextId ≤ i ∧ out.admitted ≠ some i := by
    rcases h.counter with ⟨hnone, heq⟩ | ⟨hsome, heq⟩
    · exact ⟨heq ▸ hi, by simp [hnone]⟩
    · rw [heq] at hi
      have hlt : w.sends.nextId < i := Nat.lt_of_succ_le hi
      exact ⟨Nat.le_of_lt hlt, by simpa [hsome] using Nat.ne_of_lt hlt⟩
  exact ((h.steps i).of_absent (hok.fresh i hnext.1) hnext.2).1

end Refines

/-- The counter has room for what the call admits. -/
def Op.Fits (w : World F W E) (op : Op F W E) : Prop :=
  op.waiter.isSome = true → w.sends.nextId + 1 < 2 ^ 32

/-- A legal call on a sound world returns, and does one step of every life. -/
theorem step_refines (hok : w.Ok) (hlegal : op.Legal w) (hfits : op.Fits w) :
    ∃ w' out log, Refines w op w' out log := by
  cases op with
  | enqueueUnicast unicast now tunables =>
    exact Refinement.enqueueUnicast hok (hfits rfl) unicast now tunables
  | enqueueBroadcastCopy broadcast unicast now tunables =>
    exact Refinement.enqueueBroadcastCopy hok (hfits rfl) broadcast unicast now tunables
  | enqueueUnroutedUnicast send now tunables =>
    exact Refinement.enqueueUnroutedUnicast hok (hfits rfl) send now tunables
  | enqueueBroadcast broadcast now tunables =>
    exact Refinement.enqueueBroadcast hok (hfits rfl) broadcast hlegal now tunables
  | dequeue now => exact Refinement.dequeue hok now
  | transmitted => exact Refinement.transmitted hok hlegal
  | poll eui64 nwk now => exact Refinement.poll hok eui64 nwk now
  | apsAckReceived ack => exact Refinement.apsAckReceived hok ack
  | retryDiscovery => exact Refinement.retryDiscovery hlegal
  | failUnrouted destination => exact Refinement.failUnrouted hok destination
  | routeUnicasts destination now tunables resolve =>
    exact Refinement.routeUnicasts hok destination now tunables resolve
  | broadcastDelivered key => exact Refinement.broadcastDelivered hok key
  | dropIndirectUnicasts eui64 nwk => exact Refinement.dropIndirectUnicasts hok eui64 nwk
  | cancel id => exact Refinement.cancel hok id
  | tick now => exact Refinement.tick hok now
  | abandon => exact Refinement.abandon w

/-- A call that returned had room for what it admitted. -/
theorem Op.fits_of_returned {result : World F W E × Output F W E}
    (h : step w op = .ok result) : op.Fits w := by
  intro hadmits
  by_contra hroom
  have hfull := Refinement.allocate_full hroom
  cases op <;> simp [Op.waiter] at hadmits <;>
    simp [step, Sends.enqueueUnicast, Sends.enqueueBroadcastCopy, Sends.enqueueUnroutedUnicast,
      Sends.enqueueBroadcast, hfull] at h

/-- What a legal call that returned did to the lives. -/
theorem refines_of_returned {out : Output F W E} (hok : w.Ok) (hlegal : op.Legal w)
    (h : step w op = .ok (w', out)) : ∃ log, Refines w op w' out log := by
  obtain ⟨w₁, out₁, log, hrefines⟩ := step_refines hok hlegal (Op.fits_of_returned h)
  obtain ⟨rfl, rfl⟩ : w₁ = w' ∧ out₁ = out := by
    simpa using hrefines.returned.symm.trans h
  exact ⟨log, hrefines⟩

/-- A run leaves a sound world. -/
theorem Run.ok {es : List (Event F W E)} (h : Run w es) : w.Ok := by
  induction h with
  | start => exact World.ok_empty
  | call _ hlegal hreturned ih =>
    obtain ⟨log, hrefines⟩ := refines_of_returned ih hlegal hreturned
    exact hrefines.ok ih

/-- The counter counts the admissions. -/
theorem Run.nextId_eq {es : List (Event F W E)} (h : Run w es) :
    w.sends.nextId = admissions es := by
  induction h with
  | start => rfl
  | call hrun hlegal hreturned ih =>
    obtain ⟨log, hrefines⟩ := refines_of_returned hrun.ok hlegal hreturned
    rcases hrefines.counter with ⟨hnone, heq⟩ | ⟨hsome, heq⟩
    · simp [heq, ih, admissions, hnone]
    · simp [heq, ih, admissions, hsome]

/-- Admitted ids are below the counter. -/
theorem Run.admitted_lt {es : List (Event F W E)} (h : Run w es) :
    ∀ e ∈ es, ∀ i, e.out.admitted = some i → i < w.sends.nextId := by
  induction h with
  | start => simp
  | call hrun hlegal hreturned ih =>
    obtain ⟨log, hrefines⟩ := refines_of_returned hrun.ok hlegal hreturned
    intro e he i hi
    rcases hrefines.counter with ⟨hnone, heq⟩ | ⟨hsome, heq⟩ <;>
      rcases List.mem_append.mp he with he | he
    · exact heq ▸ ih e he i hi
    · obtain rfl := List.mem_singleton.mp he
      simp [hnone] at hi
    · exact heq ▸ Nat.lt_succ_of_lt (ih e he i hi)
    · obtain rfl := List.mem_singleton.mp he
      obtain rfl : _ = i := Option.some.inj (hsome.symm.trans hi)
      exact heq ▸ Nat.lt_succ_self _

/-- The lives that a run's sends have lived, with one tagged log for each event.
No log has an entry for an id that was not yet allocated. -/
theorem Run.lives {es : List (Event F W E)} (h : Run w es) :
    ∃ logs : List (List (SendId × Action F W E)),
      logs.map (List.map Prod.snd) = es.map (·.out.actions) ∧
      (∀ entry ∈ logs.flatten, entry.1 < w.sends.nextId) ∧
      ∀ i, Life.Run i es (logs.map (project i)) (w.life i) := by
  induction h with
  | start => exact ⟨[], rfl, by simp, fun i => .start⟩
  | @call w w' es op out hrun hlegal hreturned ih =>
    obtain ⟨logs, hlogs, hbound, hlives⟩ := ih
    obtain ⟨log, hrefines⟩ := refines_of_returned hrun.ok hlegal hreturned
    have hmono := hrefines.nextId_le
    refine ⟨logs ++ [log], by simp [hlogs, hrefines.actions], ?_, fun i => ?_⟩
    · intro entry hentry
      rw [List.flatten_append, List.flatten_singleton, List.mem_append] at hentry
      rcases hentry with hentry | hentry
      · exact lt_of_lt_of_le (hbound entry hentry) hmono
      · -- an id past the counter is absent before and after, so it has no entries
        by_contra hge
        have hfresh := hrun.ok.fresh entry.1 (le_trans hmono (not_lt.mp hge))
        have hadmitted : out.admitted ≠ some entry.1 := fun hadmitted =>
          hge ((hrefines.admitted_eq hadmitted).2 ▸ Nat.lt_succ_self _)
        have hnil := ((hrefines.steps entry.1).of_absent hfresh hadmitted).2
        have hmem : entry.2 ∈ project entry.1 log := mem_project.mpr hentry
        simp [hnil] at hmem
    · rw [List.map_append, List.map_singleton]
      refine .step (hlives i) rfl rfl hreturned
        (fun hadmitted e he hi => ?_) (hrefines.steps i)
      exact absurd (hrefines.admitted_eq hadmitted).1 (Nat.ne_of_lt (hrun.admitted_lt e he i hi))

/-- The life of one send in a run. -/
theorem Run.life {es : List (Event F W E)} (h : Run w es) (i : SendId) :
    ∃ batches, Life.Run i es batches (w.life i) := by
  obtain ⟨logs, -, -, hlives⟩ := h.lives
  exact ⟨_, hlives i⟩

/-- The run up to an event of a run. -/
theorem Run.upTo {es pre post : List (Event F W E)} {e : Event F W E} (h : Run w es)
    (hsplit : es = pre ++ e :: post) : Run e.after (pre ++ [e]) := by
  induction h generalizing post with
  | start => simp at hsplit
  | @call w w' es op out hrun hlegal hreturned ih =>
    rcases List.eq_nil_or_concat' post with rfl | ⟨post, last, rfl⟩
    · obtain ⟨rfl, heq⟩ := List.append_inj' hsplit rfl
      obtain rfl := List.singleton_inj.mp heq
      exact hrun.call hlegal hreturned
    · rw [← List.cons_append, ← List.append_assoc] at hsplit
      exact ih (List.append_inj' hsplit rfl).1

/-- One event of a run: every life before it, and the step each of them takes. -/
theorem Run.event {es pre post : List (Event F W E)} {e : Event F W E} (h : Run w es)
    (hsplit : es = pre ++ e :: post) :
    ∃ (logs : List (List (SendId × Action F W E))) (log : List (SendId × Action F W E)),
      log.map Prod.snd = e.out.actions ∧
        ∀ i, Life.Run i (pre ++ [e]) (logs.map (project i) ++ [project i log])
            (e.after.life i) ∧
          Life.Run i pre (logs.map (project i)) (e.before.life i) ∧
          Life.Step i e (e.before.life i) (project i log) (e.after.life i) := by
  obtain ⟨logs, hlogs, -, hlives⟩ := (h.upTo hsplit).lives
  obtain ⟨logs, log, rfl⟩ : ∃ init last, logs = init ++ [last] := by
    rcases List.eq_nil_or_concat' logs with rfl | hlast
    · simp at hlogs
    · exact hlast
  simp only [List.map_append, List.map_cons, List.map_nil] at hlogs hlives
  refine ⟨logs, log, List.singleton_inj.mp (List.append_inj' hlogs rfl).2, fun i => ?_⟩
  have hlife := hlives i
  refine ⟨hlife, ?_⟩
  generalize hes : pre ++ [e] = es', hbatches : logs.map (project i) ++ [project i log] = batches,
    hl : e.after.life i = l at hlife
  cases hlife with
  | start => simp at hes
  | step hrun hbefore hafter _ _ hstep =>
    obtain ⟨rfl, heq⟩ := List.append_inj' hes rfl
    obtain rfl := List.singleton_inj.mp heq
    obtain ⟨rfl, heq⟩ := List.append_inj' hbatches rfl
    obtain rfl := List.singleton_inj.mp heq
    subst hbefore hl
    exact ⟨hrun, hstep⟩

end Ziggurat
