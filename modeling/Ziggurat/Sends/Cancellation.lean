import Ziggurat.Sends.Admission
import Ziggurat.Sends.History
import Ziggurat.Sends.Loans
import Ziggurat.Sends.Scheduling

/-!
# Cancels are atomic

`Sends::cancel` answers `None` or the actions to run, and changes the tables in place.
`Sends.cancelInPlace` is the code with the tables that it leaves, whatever it answers.
`cancelInPlace_eq` compares it with `Sends.cancel`, which has no tables to leave when it
refuses.  `cancel_atomic` is the result: a cancel changes nothing, or ends a send and
the copies of it for good.
-/

namespace Ziggurat

open Lib.TagLog

variable {F W E : Type} [FromSendFailure E]

/-! ## The code -/

/-- `Unicasts::cancel`, with the table that it leaves. -/
def Unicasts.cancelInPlace (t : Unicasts F W) (id : SendId) :
    Checked (Option (Actions F W E) × Unicasts F W) :=
  match t.records.get id with
  | none => .ok (none, t)
  | some record =>
    if record.stage.isTransmitting then .ok (none, t)
    else do
      let (t, actions) ← t.settle id (.error (ofFailure .cancelled)) none []
      return (some actions, t)

/-- `Broadcasts::cancel`, with the table that it leaves. -/
def Broadcasts.cancelInPlace (t : Broadcasts F W E) (id : SendId) :
    Checked (Option (Actions F W E) × Broadcasts F W E) :=
  match t.records.get id with
  | none => .ok (none, t)
  | some record =>
    if record.copy = .transmitting then .ok (none, t)
    else do
      let (t, actions) ← t.settle id (.error (ofFailure .cancelled)) []
      return (some actions, t)

namespace Sends

/-- `Sends::cancel_broadcast`, with the tables that it leaves. -/
def cancelBroadcastInPlace (s : Sends F W E) (id : SendId) :
    Checked (Option (Actions F W E) × Sends F W E) := do
  let copies := s.unicasts.copiesOf id
  if ← anyTransmitting s.unicasts copies then
    return (none, s)
  else
    let (cancelled, broadcasts) ← s.broadcasts.cancelInPlace id
    match cancelled with
    | none => return (none, { s with broadcasts })
    | some actions =>
      let (unicasts, actions) ← copies.foldlM (fun (unicasts, actions) copy => do
        let (cancelled, unicasts) ← unicasts.cancelInPlace copy
        let cancelled ← Checked.unwrap cancelled
        return (unicasts, actions ++ cancelled)) (s.unicasts, actions)
      return (some actions, { s with unicasts, broadcasts })

/-- `Sends::cancel`, with the tables that it leaves. -/
def cancelInPlace (s : Sends F W E) (id : SendId) :
    Checked (Option (Actions F W E) × Sends F W E) :=
  if s.unicasts.contains id then do
    let (cancelled, unicasts) ← s.unicasts.cancelInPlace id
    return (cancelled, { s with unicasts })
  else if s.unroutedUnicasts.contains id then do
    let (unroutedUnicasts, actions) ← s.unroutedUnicasts.cancel id
    return (some actions, { s with unroutedUnicasts })
  else
    s.cancelBroadcastInPlace id

end Sends

/-- What an in-place cancel leaves: the tables as they were if it is refused. -/
def inPlace {S : Type} (s : S) : Option (S × Actions F W E) → Option (Actions F W E) × S
  | none => (none, s)
  | some (s', actions) => (some actions, s')

theorem Unicasts.cancelInPlace_eq (t : Unicasts F W) (id : SendId) :
    (t.cancelInPlace id : Checked (Option (Actions F W E) × _)) =
      inPlace t <$> t.cancel id := by
  unfold cancelInPlace cancel
  cases t.records.get id with
  | none => rfl
  | some record =>
    dsimp only
    split
    · rfl
    · cases (t.settle id (.error (ofFailure .cancelled)) none [] :
        Checked (Unicasts F W × Actions F W E)) <;> rfl

theorem Broadcasts.cancelInPlace_eq (t : Broadcasts F W E) (id : SendId) :
    t.cancelInPlace id = inPlace t <$> t.cancel id := by
  unfold cancelInPlace cancel
  cases t.records.get id with
  | none => rfl
  | some record =>
    dsimp only
    split
    · rfl
    · cases t.settle id (.error (ofFailure .cancelled)) [] <;> rfl

namespace Sends

theorem cancelCopies_eq (unicasts : Unicasts F W) (copies : List SendId)
    (actions : Actions F W E) :
    copies.foldlM (fun (unicasts, actions) copy => do
        let (cancelled, unicasts) ← unicasts.cancelInPlace copy
        let cancelled ← Checked.unwrap cancelled
        return (unicasts, actions ++ cancelled)) (unicasts, actions) =
      cancelCopies unicasts copies actions := by
  unfold cancelCopies
  congr 1
  funext acc copy
  obtain ⟨unicasts, actions⟩ := acc
  dsimp only
  rw [Unicasts.cancelInPlace_eq]
  rcases (unicasts.cancel copy : Checked (Option (Unicasts F W × Actions F W E))) with
    panic | _ | ⟨unicasts, cancelled⟩ <;> rfl

theorem cancelInPlace_eq (s : Sends F W E) (id : SendId) :
    s.cancelInPlace id = inPlace s <$> s.cancel id := by
  unfold cancelInPlace cancel
  split
  · rw [Unicasts.cancelInPlace_eq]
    rcases (s.unicasts.cancel id : Checked (Option (Unicasts F W × Actions F W E))) with
      panic | _ | ⟨unicasts, cancelled⟩ <;> rfl
  · split
    · cases (s.unroutedUnicasts.cancel id :
        Checked (UnroutedUnicasts F W × Actions F W E)) <;> rfl
    · unfold cancelBroadcastInPlace cancelBroadcast
      simp only [cancelCopies_eq, Broadcasts.cancelInPlace_eq]
      rcases anyTransmitting s.unicasts (s.unicasts.copiesOf id) with panic | _ | _
      · rfl
      · rcases s.broadcasts.cancel id with panic | _ | ⟨broadcasts, actions⟩
        · rfl
        · rfl
        · cases hcopies : cancelCopies s.unicasts (s.unicasts.copiesOf id) actions <;>
            simp [hcopies, inPlace, Functor.map, Except.map]
      · rfl

end Sends

/-! ## What a cancel ends -/

variable {w : World F W E} {es : List (Event F W E)}

/-- A send that is cancelled has no token outstanding, and its waiter gets one verdict. -/
theorem Refinement.CancelledWith.verdict {l : Life F W E} {actions : Actions F W E}
    (h : CancelledWith l actions) :
    l.tokens = [] ∧ ∃ waiter frame, l.waiter = some waiter ∧
      actions.filter Action.isSettled =
        [.settled waiter (.error (ofFailure .cancelled)) frame none] := by
  cases h with
  | @unicast r frame =>
    refine ⟨rfl, r.waiter, frame, rfl, ?_⟩
    obtain ⟨heq, -⟩ | heq := r.verdict_cases (.error (ofFailure .cancelled) : Except E Unit)
      frame none
    · rw [heq]
      rfl
    · rw [heq]
      rfl
  | @unrouted r => exact ⟨rfl, r.waiter, r.frame, rfl, rfl⟩
  | @broadcast r frame =>
    refine ⟨rfl, r.waiter, frame, rfl, ?_⟩
    obtain ⟨heq, -⟩ | heq := r.settlement_cases (.error (ofFailure .cancelled)) frame
    · rw [heq]
      rfl
    · rw [heq]
      rfl

/-- A send that is over is never lent again. -/
theorem Run.not_lent_after {pre post : List (Event F W E)} {e : Event F W E} {i : SendId}
    (h : Run w (pre ++ e :: post)) (habsent : e.after.life i = .absent)
    (hlt : i < e.after.sends.nextId) :
    (w.life i = .absent ∧ i < w.sends.nextId) ∧ ∀ e' ∈ post, e'.lentId ≠ some i := by
  generalize hsplit : pre ++ e :: post = es at h
  induction h generalizing post with
  | start => simp at hsplit
  | @call w w' es op out hrun hlegal hreturned ih =>
    obtain rfl | ⟨post, last, rfl⟩ := List.eq_nil_or_concat' post
    · obtain ⟨-, heq⟩ := List.append_inj' hsplit rfl
      cases List.singleton_inj.mp heq
      exact ⟨⟨habsent, hlt⟩, fun _ hmem => absurd hmem List.not_mem_nil⟩
    · rw [← List.cons_append, ← List.append_assoc] at hsplit
      obtain ⟨hpre, hlast⟩ := List.append_inj' hsplit rfl
      cases List.singleton_inj.mp hlast
      obtain ⟨⟨hbefore, hltBefore⟩, hnot⟩ := ih hpre
      obtain ⟨log, hrefines⟩ := refines_of_returned hrun.ok hlegal hreturned
      have hstep := hrefines.steps i
      have hadmitted : out.admitted ≠ some i := fun hi =>
        Nat.ne_of_lt hltBefore (hrefines.admitted_eq hi).1
      have hmono := hrefines.nextId_le
      refine ⟨⟨(hstep.of_absent hbefore hadmitted).1, lt_of_lt_of_le hltBefore hmono⟩, ?_⟩
      intro e' he'
      obtain he' | he' := List.mem_append.mp he'
      · exact hnot e' he'
      · cases List.mem_singleton.mp he'
        intro hlent
        obtain ⟨now, -, ⟨r, hr, -⟩ | ⟨r, hr, -⟩⟩ := hstep.of_lent hreturned hlent
        · rw [hbefore] at hr
          cases hr
        · rw [hbefore] at hr
          cases hr

/-- In every reachable state a cancel that is refused changes nothing.  One that is carried out
removes the send and its live copies from all tables, tells each of their waiters once that it is
cancelled, changes no other record, finds none of them in the radio, and none of them is ever
lent again. -/
theorem cancel_atomic (h : Run w es) (id : SendId) :
    ∃ cancelled s', w.sends.cancelInPlace id = .ok (cancelled, s') ∧
      (cancelled = none → s' = w.sends) ∧
      ∀ actions, cancelled = some actions →
        (∀ i, w.sends.CancelGroup id i → s'.unicasts.records.get i = none ∧
          s'.unroutedUnicasts.records.get i = none ∧ s'.broadcasts.records.get i = none) ∧
        (∃ log : List (SendId × Action F W E), log.map Prod.snd = actions ∧
          (∀ entry ∈ log, w.sends.CancelGroup id entry.1) ∧
          ∀ i, w.sends.CancelGroup id i → ∃ waiter frame, (w.life i).waiter = some waiter ∧
            (project i log).filter Action.isSettled =
              [.settled waiter (.error (ofFailure .cancelled)) frame none]) ∧
        w.sends.SameOutside (w.sends.CancelGroup id) s' ∧
        (∀ i, w.sends.CancelGroup id i → w.outstanding i = 0) ∧
        ∀ out w' es', Run w' (es ++ ⟨w, .cancel id, out, { w with sends := s' }⟩ :: es') →
          ∀ e ∈ es', ∀ i, w.sends.CancelGroup id i → e.lentId ≠ some i := by
  rw [Sends.cancelInPlace_eq]
  obtain hrefused | ⟨s', log, hcarried⟩ := Refinement.cancel_cases h.ok id
  · rw [hrefused]
    exact ⟨none, w.sends, rfl, fun _ => rfl, nofun⟩
  · rw [hcarried.returned]
    refine ⟨some (log.map Prod.snd), s', rfl, nofun, fun actions hactions => ?_⟩
    cases hactions
    have habsent : ∀ i, w.sends.CancelGroup id i →
        { w with sends := s' }.life i = .absent := fun i hi => (hcarried.ended i hi).2
    have hsame : ∀ i, ¬w.sends.CancelGroup id i →
        { w with sends := s' }.life i = w.life i := fun i hi => (hcarried.others i hi).2
    refine ⟨fun i hi => ?_, ⟨log, rfl, fun entry hentry => ?_, fun i hi => ?_⟩, ?_, ?_, ?_⟩
    · obtain ⟨hunicast, hunrouted, hbroadcast, -⟩ := World.life_eq_absent_iff.mp (habsent i hi)
      exact ⟨hunicast, hunrouted, hbroadcast⟩
    · by_contra hi
      have hmem : entry.2 ∈ project entry.1 log := mem_project.mpr hentry
      rw [(hcarried.others entry.1 hi).1] at hmem
      cases hmem
    · exact (hcarried.ended i hi).1.verdict.2
    · exact ⟨fun i hi => congrArg Life.unicast (hsame i hi),
        fun i hi => congrArg Life.unrouted (hsame i hi),
        fun i hi => congrArg Life.broadcast (hsame i hi), hcarried.nextId⟩
    · intro i hi
      rw [World.outstanding_eq_length, (hcarried.ended i hi).1.verdict.1]
      rfl
    · intro out w' es' hrun e he i hi
      -- a send that was live is below the counter
      have hlt : i < w.sends.nextId := by
        by_contra hge
        obtain ⟨-, waiter, frame, hwaiter, -⟩ := (hcarried.ended i hi).1.verdict
        rw [h.ok.fresh i (Nat.le_of_not_lt hge)] at hwaiter
        cases hwaiter
      have hltAfter : i < s'.nextId := by
        rw [hcarried.nextId]
        exact hlt
      exact (hrun.not_lent_after (habsent i hi) hltAfter).2 e he

/-- A broadcast with a copy for a sleepy child. -/
def broadcastWithCopy : List (Op Nat Nat SendFailure) :=
  [.enqueueBroadcast { frame := 7, priority := .userNormal, waiter := 0, schedule := .once } 0 {},
  .enqueueBroadcastCopy 0
    { frame := 7, priority := .userNormal, waiter := 1, confirm := .onHandoff, nextHop := 0x1234,
      pollAddress := some (.eui64 5) } 0 {}]

theorem broadcastWithCopy_replays : (replay World.empty broadcastWithCopy).isSome = true := by
  decide +kernel

theorem cancel_atomic_broadcastWithCopy :
    ∃ (w : World Nat Nat SendFailure) (es : List (Event Nat Nat SendFailure)) (actions : _)
      (s' : _), Run w es ∧ w.sends.CancelGroup 0 1 ∧
        w.sends.cancelInPlace 0 = .ok (some actions, s') ∧
        s'.unicasts.records.get 1 = none := by
  have hrun := run_outcome broadcastWithCopy broadcastWithCopy_replays
  have hgroup : (outcome broadcastWithCopy broadcastWithCopy_replays).1.sends.CancelGroup 0 1 :=
    .inr ⟨by decide +kernel, _, rfl, rfl⟩
  obtain ⟨cancelled, s', hreturned, -, hsome⟩ := cancel_atomic hrun 0
  have hcarried : cancelled.isSome = true := by
    have hvalue : ((outcome broadcastWithCopy broadcastWithCopy_replays).1.sends.cancelInPlace
        0).toOption.map (·.1.isSome) = some true := by decide +kernel
    rw [hreturned] at hvalue
    exact Option.some.inj hvalue
  obtain ⟨actions, rfl⟩ := Option.isSome_iff_exists.mp hcarried
  exact ⟨_, _, actions, s', hrun, hgroup, hreturned, ((hsome actions rfl).1 1 hgroup).1⟩

end Ziggurat
