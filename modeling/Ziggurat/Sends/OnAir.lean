import Ziggurat.Sends.Conservation

/-!
# A verdict of success, and the radio

Success reaches a unicast in three ways: the radio's report, an APS ack that
arrives while the frame is in the radio, and an APS ack matched by its key against
a record in any other stage.  The first two find a frame that was lent.  The third
does not ask for the stage: `ack_received` settles the oldest record with the key,
and the key of an ack is no proof that its frame was ever sent.

`delivered_only_on_air_iff` is the exact condition.  The verdicts of success of a
send all come after a loan if and only if no ack was matched to the send before
its first loan.
-/

namespace Ziggurat

open Lib.TagLog

variable {F W E : Type}

/-- Some event lends the frame of `id` to the radio. -/
def lentIn (id : SendId) (es : List (Event F W E)) : Prop :=
  ∃ e ∈ es, e.lentId = some id

/-- A stage that only a loan leads to. -/
def Unicasts.Stage.pastLoan : Unicasts.Stage → Bool
  | .transmitting _ | .retrying _ | .awaitingApsAck => true
  | .queued | .awaitingPoll => false

/-- The state of the send shows that it was lent. -/
def Life.pastLoan (l : Life F W E) : Bool :=
  l.unicast.any (·.stage.pastLoan) ||
    l.broadcast.any (fun r => r.copy = .transmitting || r.handedOff)

/-! ## One step -/

/-- A verdict of success. -/
def Action.isSuccess : Action F W E → Bool
  | .settled _ (.ok ()) _ _ => true
  | _ => false

theorem Life.Step.pastLoan [FromSendFailure E] {id : SendId} {e : Event F W E}
    {l l' : Life F W E} {actions : Actions F W E} (h : Life.Step id e l actions l')
    (hl' : l'.pastLoan = true) : l.pastLoan = true ∨ e.lentId = some id := by
  cases h with
  | idle | tickIdle => exact Or.inl hl'
  | abandoned | ackSettle | dropUnicast | cancelUnicast | lapseUnicast | routeFailed
  | lapseUnrouted | failUnrouted | cancelUnrouted | quorumSettle | cancelBroadcast
  | lapseBroadcast => simp [Life.pastLoan, absent] at hl'
  | admitUnicast | routed =>
    simp only [Life.pastLoan, Option.any_some, Unicasts.stage_newRecord] at hl'
    split at hl' <;> simp [Unicasts.Stage.pastLoan] at hl'
  | admitUnrouted | tickUnrouted => simp [Life.pastLoan] at hl'
  | @admitBroadcast broadcast =>
    unfold Life.pastLoan Broadcasts.newRecord at hl'
    cases hs : broadcast.schedule <;> simp [hs] at hl'
  | lendUnicast _ lent tokenId => exact Or.inr (by simp [Event.lentId, lent, tokenId])
  | lendBroadcast _ lent tokenId => exact Or.inr (by simp [Event.lentId, lent, tokenId])
  | reportUnicast _ _ _ stage =>
    exact Or.inl (by simp [Life.pastLoan, stage, Unicasts.Stage.pastLoan])
  | reportBroadcast _ _ _ copy => exact Or.inl (by simp [Life.pastLoan, copy])
  | pollUnicast => simp [Life.pastLoan, Unicasts.Record.polled, Unicasts.Stage.pastLoan] at hl'
  | @ackTransmitting r _ _ _ _ _ stage =>
    refine Or.inl ?_
    cases hs : r.stage <;>
      simp_all [Life.pastLoan, Unicasts.Stage.isTransmitting, Unicasts.Stage.pastLoan]
  | @tickUnicast r now =>
    refine Or.inl ?_
    unfold Life.pastLoan Unicasts.Record.requeue at *
    cases hs : r.stage <;> simp_all [Unicasts.Stage.pastLoan]
  | quorumNoted => exact Or.inl (by simpa [Life.pastLoan] using hl')
  | @tickBroadcast r now _ copy =>
    refine Or.inl ?_
    have hcopy : (r.advance now).1.copy ≠ .transmitting :=
      fun heq => copy (Broadcasts.Record.copy_advance_transmitting.mp heq)
    simpa [Life.pastLoan, hcopy, copy] using hl'

theorem Unicasts.Record.isSuccess_verdict {r : Unicasts.Record F W} {err : E} {frame : F}
    {failedHop : Option Nwk} {action : Action F W E}
    (h : action ∈ r.verdict (.error err) frame failedHop) : action.isSuccess = false := by
  rcases r.verdict_cases (.error err) frame failedHop with ⟨heq, -⟩ | heq <;>
    simp only [heq, List.mem_cons, List.not_mem_nil, or_false] at h
  · exact h ▸ rfl
  · rcases h with rfl | rfl <;> rfl

theorem Broadcasts.Record.isSuccess_settlement {r : Broadcasts.Record F W E} {err : E}
    {frame : F} {action : Action F W E} (h : action ∈ r.settlement (.error err) frame) :
    action.isSuccess = false := by
  rcases r.settlement_cases (.error err) frame with ⟨heq, -⟩ | heq <;>
    simp only [heq, List.mem_cons, List.not_mem_nil, or_false] at h
  · exact h ▸ rfl
  · rcases h with rfl | rfl <;> rfl

/-- Success comes to a send that was lent, or by an ack. -/
theorem Life.Step.pastLoan_of_success [FromSendFailure E] {id : SendId} {e : Event F W E}
    {l l' : Life F W E} {actions : Actions F W E} (h : Life.Step id e l actions l')
    (hsuccess : ∃ action ∈ actions, action.isSuccess = true) :
    l.pastLoan = true ∨ e.ackedId = some id := by
  obtain ⟨action, hmem, hsuccess⟩ := hsuccess
  cases h with
  | idle | tickIdle | abandoned | admitUnicast | lendUnicast | pollUnicast | ackTransmitting
  | tickUnicast | admitUnrouted | routed | tickUnrouted | admitBroadcast | lendBroadcast
  | quorumNoted | tickBroadcast => simp at hmem
  | reportUnicast _ _ _ stage =>
    exact Or.inl (by simp [Life.pastLoan, stage, Unicasts.Stage.pastLoan])
  | ackSettle _ acked => exact Or.inr acked
  | dropUnicast | cancelUnicast | lapseUnicast =>
    simp [Unicasts.Record.isSuccess_verdict hmem] at hsuccess
  | routeFailed | lapseUnrouted | failUnrouted | cancelUnrouted =>
    simp only [List.mem_singleton] at hmem
    simp [hmem, UnroutedUnicasts.settled, Action.isSuccess] at hsuccess
  | reportBroadcast _ _ _ copy => exact Or.inl (by simp [Life.pastLoan, copy])
  | quorumSettle _ _ _ _ handedOff => exact Or.inl (by simp [Life.pastLoan, handedOff])
  | cancelBroadcast => simp [Broadcasts.Record.isSuccess_settlement hmem] at hsuccess
  | @lapseBroadcast r now result frame _ verdict =>
    rcases Broadcasts.Record.result_of_verdict verdict with ⟨handedOff, -⟩ | ⟨-, err, rfl⟩
    · exact Or.inl (by simpa [Life.pastLoan] using Or.inr handedOff)
    · simp [Broadcasts.Record.isSuccess_settlement hmem] at hsuccess

/-! ## Whole runs -/

/-- A state past the loan was reached by one. -/
theorem Life.Run.lent_of_pastLoan [FromSendFailure E] {id : SendId} {es : List (Event F W E)}
    {batches : List (Actions F W E)} {l : Life F W E} (h : Life.Run id es batches l)
    (hl : l.pastLoan = true) : lentIn id es := by
  induction h with
  | start => simp [Life.pastLoan, Life.absent] at hl
  | @step es _ _ _ e _ _ _ _ _ _ hstep ih =>
    rcases hstep.pastLoan hl with hbefore | hlent
    · obtain ⟨e', he', hlent⟩ := ih hbefore
      exact ⟨e', by simp [he'], hlent⟩
    · exact ⟨e, by simp, hlent⟩

/-- An ack that is matched to a send settles it, unless its frame is in the radio. -/
theorem Life.Step.settled_of_acked [FromSendFailure E] {id : SendId} {e : Event F W E}
    {l l' : Life F W E} {actions : Actions F W E} (h : Life.Step id e l actions l')
    (hacked : e.ackedId = some id) (hl : l.pastLoan = false) :
    ∃ waiter frame, .settled waiter (.ok ()) frame none ∈ actions := by
  have hop : ∃ ack, e.op = .apsAckReceived ack := by
    unfold Event.ackedId at hacked
    cases hop : e.op <;> simp [hop] at hacked
    exact ⟨_, rfl⟩
  obtain ⟨ack, hop⟩ := hop
  cases h with
  | idle quiet => exact absurd hacked quiet.acked
  | @ackSettle r _ frame =>
    exact ⟨r.waiter, frame, by simp [Unicasts.Record.verdict]⟩
  | @ackTransmitting r _ _ _ _ _ stage =>
    cases hs : r.stage <;>
      simp_all [Life.pastLoan, Unicasts.Stage.isTransmitting, Unicasts.Stage.pastLoan]
  | _ => simp_all

/-- The verdicts of success of a send come after a loan of its frame, exactly if no
ack was matched to the send before the first loan. -/
theorem delivered_only_on_air_iff [FromSendFailure E] {w : World F W E}
    {es : List (Event F W E)} (hrun : Run w es) {id : SendId} {waiter : W}
    (hown : Owns es id waiter) :
    (∀ pre e post, es = pre ++ e :: post →
        (∃ frame failedHop, .settled waiter (.ok ()) frame failedHop ∈ e.out.actions) →
        lentIn id pre) ↔
      ∀ pre e post, es = pre ++ e :: post → e.ackedId = some id → lentIn id pre := by
  constructor
  · intro hair pre e post hsplit hacked
    obtain ⟨batches, actions, hlife, hstep, hactions⟩ := hown.event hrun hsplit
    cases hl : (e.before.life id).pastLoan with
    | true => exact hlife.lent_of_pastLoan hl
    | false =>
      obtain ⟨other, frame, hsettled⟩ := hstep.settled_of_acked hacked hl
      obtain ⟨hsettled, rfl⟩ := (hactions _).mp hsettled
      exact hair pre e post hsplit ⟨frame, none, hsettled⟩
  · rintro hacks pre e post hsplit ⟨frame, failedHop, hsettled⟩
    obtain ⟨batches, actions, hlife, hstep, hactions⟩ := hown.event hrun hsplit
    have hmem := (hactions _).mpr ⟨hsettled, rfl⟩
    rcases hstep.pastLoan_of_success ⟨_, hmem, rfl⟩ with hl | hacked
    · exact hlife.lent_of_pastLoan hl
    · exact hacks pre e post hsplit hacked

/-- A send whose ack arrives while its frame still waits for the radio. -/
def earlyAckCalls : List (Op Nat Nat SendFailure) :=
  let ack : ApsAckData := ⟨5, some 1, some 6, some 260, some 1, 3⟩
  let unicast : Unicast Nat Nat :=
    { frame := 7, priority := .userNormal, waiter := 100, confirm := .apsAck ack 1000,
      nextHop := 1, pollAddress := none }
  [.enqueueUnicast unicast 0 {}, .apsAckReceived ack]

theorem earlyAckCalls_return : (replay World.empty earlyAckCalls).isSome = true := by
  decide +kernel

/-- A queued unicast is reported delivered although no frame was ever lent. -/
theorem delivered_without_loan :
    ∃ (w : World Nat Nat SendFailure) (es : List (Event Nat Nat SendFailure)),
      Run w es ∧ Owns es 0 100 ∧ ∃ pre e post, es = pre ++ e :: post ∧
        (∃ frame failedHop, .settled 100 (.ok ()) frame failedHop ∈ e.out.actions) ∧
        ¬ lentIn 0 pre := by
  have hrun := run_outcome earlyAckCalls earlyAckCalls_return
  have hown : Owns (outcome earlyAckCalls earlyAckCalls_return).2 0 100 :=
    ⟨by decide +kernel, by decide +kernel⟩
  have hlent : ∀ e ∈ (outcome earlyAckCalls earlyAckCalls_return).2, e.lentId ≠ some 0 := by
    decide +kernel
  have hsettled : ∃ e ∈ (outcome earlyAckCalls earlyAckCalls_return).2,
      .settled 100 (.ok ()) 7 none ∈ e.out.actions := by
    decide +kernel
  obtain ⟨e, he, hsettled⟩ := hsettled
  obtain ⟨pre, post, hsplit⟩ := List.append_of_mem he
  refine ⟨_, _, hrun, hown, pre, e, post, hsplit, ⟨7, none, hsettled⟩, ?_⟩
  rintro ⟨e', he', hid⟩
  exact hlent e' (by simp [hsplit, he']) hid

/-- A send that is acked after its handoff. -/
theorem delivered_only_on_air_acked :
    ∃ (w : World Nat Nat SendFailure) (es : List (Event Nat Nat SendFailure)),
      Run w es ∧ Owns es 0 100 ∧ verdicts 100 es = 1 ∧ ∀ pre e post, es = pre ++ e :: post →
        (∃ frame failedHop, .settled 100 (.ok ()) frame failedHop ∈ e.out.actions) →
        lentIn 0 pre := by
  have hrun := run_outcome ackedCalls ackedCalls_return
  have hown : Owns (outcome ackedCalls ackedCalls_return).2 0 100 :=
    ⟨by decide +kernel, by decide +kernel⟩
  refine ⟨_, _, hrun, hown, by decide +kernel, (delivered_only_on_air_iff hrun hown).mpr ?_⟩
  intro pre e post hsplit hacked
  have hacks : ∀ n < (outcome ackedCalls ackedCalls_return).2.length,
      (outcome ackedCalls ackedCalls_return).2[n]?.bind Event.ackedId = some 0 →
      ∃ e' ∈ (outcome ackedCalls ackedCalls_return).2.take n, e'.lentId = some 0 := by
    decide +kernel
  have hlent := hacks pre.length (by simp [hsplit]) (by simp [hsplit, hacked])
  rwa [hsplit, List.take_left] at hlent

end Ziggurat
