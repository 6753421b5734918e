import Ziggurat.Sends.Basic

/-!
# The slot of a send

The driver's waiter of a send is a slot that two verdicts are written into: that
the mesh accepted the frame, and how the send ended.  `SendSlot::handed_off`
writes the first unless it is there, and `SendSlot::settled` writes the second and
back-fills the first.  Each of them runs under the slot's own lock, so it is one
step, and `runAction` is one iteration of the loop of `run_send_actions`.

The wakes that the slot notifies are left out: a notify makes a sleeping task look
again, and the tasks here may look at any time.
-/

namespace Ziggurat

variable {F W E : Type}

/-- The outcome of a transmit, after the radio's own MAC retries. -/
inductive TxResult where
  | acked
  | noAck
  | channelAccessFailure
  | aborted
  | failed
  deriving DecidableEq, Repr

inductive RadioError where
  | timeout
  | transportClosed
  | rejected (reason : String)
  | other (reason : String)
  deriving DecidableEq, Repr

/-- A send's terminal verdict, if it failed. -/
inductive DeliveryError where
  | routeDiscoveryTimeout
  | routeInactiveAfterDiscovery
  | nwkNoAck (nextHop : Ieee802154Address)
  | ccaFailure
  | transmitFailed (result : TxResult)
  | apsAckTimeout
  | handoffTimeout
  | broadcastQuorumNotReached
  | indirectExpired (destination : Ieee802154Address)
  | cancelled
  | radio (err : RadioError)
  deriving DecidableEq

instance : FromSendFailure DeliveryError where
  ofFailure
    | .handoffTimeout => .handoffTimeout
    | .apsAckTimeout => .apsAckTimeout
    | .indirectExpired destination => .indirectExpired destination
    | .routeDiscoveryTimeout => .routeDiscoveryTimeout
    | .broadcastQuorumNotReached => .broadcastQuorumNotReached
    | .cancelled => .cancelled

/-- The two verdicts of a slot. -/
structure Progress (E : Type) where
  handedOff : Option (Except E Unit) := none
  delivered : Option (Except E Unit) := none

/-- What is written in `p` is still there in `q`. -/
structure Progress.Le (p q : Progress E) : Prop where
  handedOff : ∀ result, p.handedOff = some result → q.handedOff = some result
  delivered : ∀ result, p.delivered = some result → q.delivered = some result

theorem Progress.Le.refl (p : Progress E) : p.Le p := ⟨fun _ => id, fun _ => id⟩

theorem Progress.Le.trans {p q r : Progress E} (h : p.Le q) (h' : q.Le r) : p.Le r :=
  ⟨fun result => h'.handedOff result ∘ h.handedOff result,
    fun result => h'.delivered result ∘ h.delivered result⟩

namespace SendSlot

/-- The mesh accepted the frame. -/
def handedOff (progress : Progress E) : Progress E :=
  if progress.handedOff.isSome then progress
  else { progress with handedOff := some (.ok ()) }

/-- The send's final verdict, which back-fills an unset handoff. -/
def settled (progress : Progress E) (result : Except E Unit) : Progress E :=
  { handedOff := if progress.handedOff.isNone then some result else progress.handedOff
    delivered := some result }

end SendSlot

/-- A view over one send: its slot, and its id for cancellation. -/
structure SendHandle (W : Type) where
  slot : W
  id : SendId

/-- The write of an action into the slot of its waiter. -/
def Action.write (progress : Progress E) : Action F W E → Progress E
  | .handedOff _ => SendSlot.handedOff progress
  | .settled _ result _ _ => SendSlot.settled progress result

/-- One iteration of the loop of `run_send_actions`. -/
def runAction [DecidableEq W] (slots : W → Progress E) (action : Action F W E) :
    W → Progress E :=
  fun slot => if action.waiter = slot then action.write (slots slot) else slots slot

/-- A slot that is settled once keeps what was written into it. -/
theorem le_runAction [DecidableEq W] {slots : W → Progress E} {action : Action F W E}
    (once : action.isSettled = true → (slots action.waiter).delivered = none) (slot : W) :
    (slots slot).Le (runAction slots action slot) := by
  unfold runAction
  split_ifs with hslot
  · subst hslot
    cases action with
    | handedOff waiter =>
      change Progress.Le _ (SendSlot.handedOff _)
      unfold SendSlot.handedOff
      split_ifs with hsome
      · exact .refl _
      · exact ⟨by simp_all, fun _ => id⟩
    | settled waiter result frame failedHop =>
      have hnone := once rfl
      refine ⟨fun r hr => ?_, by simp_all⟩
      change (if _ then _ else _) = _
      rw [hr]
      rfl
  · exact .refl _

end Ziggurat
