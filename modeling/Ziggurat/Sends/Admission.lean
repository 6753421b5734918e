import Ziggurat.Sends.Refinement.Runs

/-!
# Before and after an admission

An id is allocated once, and no event names it before that: no loan, no report,
no poll, no ack and no quorum.  What a live record says about its past is
therefore a statement about the events since its admission, and the inductions
over `Life.Run` that follow start from a record with no past.
-/

namespace Ziggurat

variable {F W E : Type}

/-- No part of the event names the send. -/
structure Event.Untouched (e : Event F W E) (id : SendId) : Prop where
  lent : e.lentId ≠ some id
  reported : e.reportedId ≠ some id
  polled : e.polledId ≠ some id
  acked : e.ackedId ≠ some id
  quorum : e.quorumId ≠ some id

/-- Only `dequeue` returns a token. -/
theorem step_lent [FromSendFailure E] {w w' : World F W E} {op : Op F W E}
    {out : Output F W E} (h : step w op = .ok (w', out)) (hop : ∀ now, op ≠ .dequeue now) :
    out.lent = none := by
  cases op with
  | dequeue now => exact absurd rfl (hop now)
  | abandon =>
    cases h
    rfl
  | cancel id =>
    obtain ⟨answer, -, h⟩ := Checked.bind_eq_ok.mp h
    cases answer <;> cases h <;> rfl
  | _ =>
    obtain ⟨result, -, h⟩ := Checked.bind_eq_ok.mp h
    cases h
    rfl

theorem Event.lentId_of_op [FromSendFailure E] {e : Event F W E} (id : SendId)
    (hreturned : step e.before e.op = .ok (e.after, e.out))
    (hop : ∀ now, e.op ≠ .dequeue now) : e.lentId ≠ some id := by
  simp [Event.lentId, step_lent hreturned hop]

/-- A sweep names no send. -/
theorem Event.untouched_of_sweeps [FromSendFailure E] {e : Event F W E} (id : SendId)
    (hreturned : step e.before e.op = .ok (e.after, e.out)) (hsweeps : e.op.sweeps = true) :
    e.Untouched id := by
  have hlent : e.out.lent = none :=
    step_lent hreturned (fun now hop => by simp [hop, Op.sweeps] at hsweeps)
  cases hop : e.op <;> simp [hop, Op.sweeps] at hsweeps <;>
    exact ⟨by simp [Event.lentId, hlent], by simp [Event.reportedId, hop],
      by simp [Event.polledId, hop], by simp [Event.ackedId, hop],
      by simp [Event.quorumId, hop]⟩

/-- A loan is made by `dequeue`, from a record that is ready then. -/
theorem Life.Step.of_lent [FromSendFailure E] {id : SendId} {e : Event F W E}
    {l l' : Life F W E} {actions : Actions F W E} (h : Life.Step id e l actions l')
    (hreturned : Ziggurat.step e.before e.op = .ok (e.after, e.out))
    (hlent : e.lentId = some id) :
    ∃ now, e.op = .dequeue now ∧
      ((∃ r, l.unicast = some r ∧ r.ready now = true ∧ l'.unicast = some r.lend) ∨
        ∃ r, l.broadcast = some r ∧ r.ready now = true ∧ l'.broadcast = some r.lend) := by
  have hop : ∃ now, e.op = .dequeue now := by
    by_contra hno
    exact Event.lentId_of_op id hreturned (fun now hop => hno ⟨now, hop⟩) hlent
  obtain ⟨now, hop⟩ := hop
  cases h with
  | idle quiet => exact absurd hlent quiet.lent
  | lendUnicast op _ _ ready =>
    cases hop.symm.trans op
    exact ⟨now, hop, Or.inl ⟨_, rfl, ready, rfl⟩⟩
  | lendBroadcast op _ _ ready =>
    cases hop.symm.trans op
    exact ⟨now, hop, Or.inr ⟨_, rfl, ready, rfl⟩⟩
  | _ => simp_all

/-- The call admits a broadcast. -/
def Op.isBroadcast : Op F W E → Bool
  | .enqueueBroadcast .. => true
  | _ => false

/-- A step never turns a unicast into a broadcast or back. -/
theorem Life.Step.kind [FromSendFailure E] {id : SendId} {e : Event F W E}
    {l l' : Life F W E} {actions : Actions F W E} (h : Life.Step id e l actions l')
    (hlive : l'.live = true) :
    l.live = true ∧ l'.broadcast.isSome = l.broadcast.isSome ∨
      e.out.admitted = some id ∧ e.op.isBroadcast = l'.broadcast.isSome := by
  cases h with
  | idle | tickIdle => exact Or.inl ⟨hlive, rfl⟩
  | admitUnicast admitted _ _ op =>
    rcases op with ⟨op, -⟩ | ⟨b, op, -⟩ <;> exact Or.inr ⟨admitted, by rw [op]; rfl⟩
  | admitUnrouted admitted op | admitBroadcast admitted op =>
    exact Or.inr ⟨admitted, by rw [op]; rfl⟩
  | reportUnicast => exact Or.inl ⟨rfl, rfl⟩
  | reportBroadcast =>
    simp only [Life.live, Option.isSome_none, Bool.false_or] at hlive
    exact Or.inl ⟨rfl, hlive⟩
  | lendUnicast | pollUnicast | ackTransmitting | tickUnicast | routed | tickUnrouted
  | lendBroadcast | quorumNoted | tickBroadcast => exact Or.inl ⟨rfl, rfl⟩
  | _ => simp [Life.live, absent] at hlive

namespace Life.Run

variable [FromSendFailure E] {id : SendId} {es : List (Event F W E)}
  {batches : List (Actions F W E)} {l : Life F W E}

/-- A send that was not admitted is absent, and no event named it. -/
theorem unborn (h : Life.Run id es batches l) (hes : ∀ e ∈ es, e.out.admitted ≠ some id) :
    l = .absent ∧ ∀ e ∈ es, e.Untouched id := by
  induction h with
  | start => exact ⟨rfl, by simp⟩
  | @step es _ l l' e _ hrun _ _ hreturned _ hstep ih =>
    obtain ⟨rfl, huntouched⟩ := ih (fun e' he' => hes e' (by simp [he']))
    have hadmitted := hes e (by simp)
    refine ⟨(hstep.of_absent rfl hadmitted).1, fun e' he' => ?_⟩
    rcases List.mem_append.mp he' with he' | he'
    · exact huntouched e' he'
    · obtain rfl := List.mem_singleton.mp he'
      generalize hl : (Life.absent : Life F W E) = l at hstep
      cases hstep with
      | idle quiet => exact ⟨quiet.lent, quiet.reported, quiet.polled, quiet.acked, quiet.quorum⟩
      | tickIdle op => exact Event.untouched_of_sweeps id hreturned (by rw [op]; rfl)
      | abandoned op => exact Event.untouched_of_sweeps id hreturned (by rw [op]; rfl)
      | admitUnicast admitted | admitUnrouted admitted | admitBroadcast admitted =>
        exact absurd admitted hadmitted
      | _ => simp [absent] at hl

/-- A send that was not admitted was absent all along. -/
theorem unborn_after (h : Life.Run id es batches l)
    (hes : ∀ e ∈ es, e.out.admitted ≠ some id) : ∀ e ∈ es, e.after.life id = .absent := by
  induction h with
  | start => simp
  | step hrun hbefore hafter hreturned honce hstep ih =>
    intro e he
    rcases List.mem_append.mp he with hin | hlast
    · exact ih (fun e' he' => hes e' (by simp [he'])) e hin
    · rw [List.mem_singleton.mp hlast, hafter]
      exact ((hrun.step hbefore hafter hreturned honce hstep).unborn hes).1

/-- An id is admitted by one event. -/
theorem admitted_unique (h : Life.Run id es batches l) {e e' : Event F W E} (he : e ∈ es)
    (he' : e' ∈ es) (hadmitted : e.out.admitted = some id)
    (hadmitted' : e'.out.admitted = some id) : e = e' := by
  induction h with
  | start => simp at he
  | @step es _ _ _ last _ _ _ _ _ honce _ ih =>
    rcases List.mem_append.mp he with hin | hlast <;>
      rcases List.mem_append.mp he' with hin' | hlast'
    · exact ih hin hin'
    · rw [List.mem_singleton.mp hlast'] at hadmitted'
      exact absurd hadmitted (honce hadmitted' e hin)
    · rw [List.mem_singleton.mp hlast] at hadmitted
      exact absurd hadmitted' (honce hadmitted e' hin')
    · rw [List.mem_singleton.mp hlast, List.mem_singleton.mp hlast']

/-- A live send was admitted, to the kind of table that holds it. -/
theorem kind (h : Life.Run id es batches l) (hlive : l.live = true) :
    ∃ e ∈ es, e.out.admitted = some id ∧ e.op.isBroadcast = l.broadcast.isSome := by
  induction h with
  | start => simp [Life.live, absent] at hlive
  | @step es _ _ _ e _ _ _ _ _ _ hstep ih =>
    rcases hstep.kind hlive with ⟨hbefore, hsame⟩ | ⟨hadmitted, hkind⟩
    · obtain ⟨e', he', hadmitted, hkind⟩ := ih hbefore
      exact ⟨e', by simp [he'], hadmitted, hkind.trans hsame.symm⟩
    · exact ⟨e, by simp, hadmitted, hkind⟩

end Life.Run

end Ziggurat
