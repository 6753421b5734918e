import Ziggurat.FlatMap
import Ziggurat.Lib.TagLog
import Ziggurat.Driver.SendSlot

/-!
# The send tracker

The protocol layer keeps a map from the host's request ids to the sends they
started, and turns the verdicts in their slots into confirm frames.  `sweep` looks
at every slot once, emits what is owed now, and drops the entries that owe nothing
more.  `Reactor.confirms_eq_last` says that it makes no difference when it looks.
-/

namespace Ziggurat

open Lib.TagLog

variable {W : Type}

abbrev RequestId := Fin (2 ^ 16)

/-- The wire status of a send. -/
inductive SendStatus where
  | success
  | routeDiscoveryTimeout
  | routeDiscoveryNoEntry
  | routeInactiveAfterDiscovery
  | nwkNoAck
  | ccaFailure
  | transmitFailed
  | apsAckTimeout
  | broadcastQuorumNotReached
  | indirectExpired
  | frameBudgetExhausted
  | cancelled
  | radioError
  | handoffTimeout
  deriving DecidableEq, Repr

/-- Mirror a send's terminal result onto its wire status. -/
def sendStatus : Except DeliveryError Unit → SendStatus
  | .ok () => .success
  | .error .routeDiscoveryTimeout => .routeDiscoveryTimeout
  | .error .routeInactiveAfterDiscovery => .routeInactiveAfterDiscovery
  | .error (.nwkNoAck _) => .nwkNoAck
  | .error .ccaFailure => .ccaFailure
  | .error (.transmitFailed _) => .transmitFailed
  | .error .apsAckTimeout => .apsAckTimeout
  | .error .handoffTimeout => .handoffTimeout
  | .error .broadcastQuorumNotReached => .broadcastQuorumNotReached
  | .error (.indirectExpired _) => .indirectExpired
  | .error .cancelled => .cancelled
  | .error (.radio _) => .radioError

/-- The confirm frames of the wire, under the request id they answer. -/
inductive Notification where
  | sendConfirm (id : RequestId) (status : SendStatus)
  | apsAckConfirm (id : RequestId) (status : SendStatus)
  | broadcastConfirm (id : RequestId) (status : SendStatus)
  deriving DecidableEq, Repr

/-- Which confirm frames a tracked send owes. -/
inductive ConfirmKind where
  | unicastNoAck
  | unicastApsAck
  | broadcast
  deriving DecidableEq, Repr

structure TrackedSend (W : Type) where
  handle : SendHandle W
  confirmKind : ConfirmKind
  emittedSendConfirm : Bool

/-- What the body of the loop of `sweep` does with one entry. -/
structure Swept (W : Type) where
  out : List Notification := []
  entry : TrackedSend W
  done : Bool := false

/-- The body of the loop of `sweep`. -/
def TrackedSend.sweep (entry : TrackedSend W) (id : RequestId)
    (progress : Progress DeliveryError) : Swept W :=
  match entry.confirmKind with
  | .unicastNoAck =>
    match progress.delivered with
    | some delivered =>
      { out := [.sendConfirm id (sendStatus delivered)], entry, done := true }
    | none => { entry }
  | .broadcast =>
    match progress.delivered with
    | some delivered =>
      { out := [.broadcastConfirm id (sendStatus delivered)], entry, done := true }
    | none => { entry }
  | .unicastApsAck =>
    if entry.emittedSendConfirm then
      match progress.delivered with
      | some delivered =>
        { out := [.apsAckConfirm id (sendStatus delivered)], entry, done := true }
      | none => { entry }
    else
      match progress.handedOff with
      | none => { entry }
      | some (.error err) =>
        -- A failed handoff is terminal: no end-to-end ack will follow.
        { out := [.sendConfirm id (sendStatus (.error err))]
          entry := { entry with emittedSendConfirm := true }
          done := true }
      | some (.ok ()) =>
        match progress.delivered with
        | some delivered =>
          { out := [.sendConfirm id (sendStatus (.ok ())),
              .apsAckConfirm id (sendStatus delivered)]
            entry := { entry with emittedSendConfirm := true }
            done := true }
        | none =>
          { out := [.sendConfirm id (sendStatus (.ok ()))]
            entry := { entry with emittedSendConfirm := true } }

/-- The entry that is left of a pass. -/
def Swept.left (swept : Swept W) : Option (TrackedSend W) :=
  if swept.done then none else some swept.entry

/-- The request that a confirm answers. -/
def Notification.id : Notification → RequestId
  | .sendConfirm id _ | .apsAckConfirm id _ | .broadcastConfirm id _ => id

namespace TrackedSend

variable (e : TrackedSend W) (id : RequestId)

theorem id_of_mem_sweep {id : RequestId} {progress : Progress DeliveryError} {n : Notification}
    (h : n ∈ (e.sweep id progress).out) : n.id = id := by
  revert n
  unfold sweep
  split <;> (repeat' split) <;> simp [Notification.id]

theorem handle_sweep (progress : Progress DeliveryError) :
    (e.sweep id progress).entry.handle = e.handle := by
  unfold sweep
  split <;> (repeat' split) <;> rfl

/-- A pass that comes after another one says what is new since then. -/
theorem sweep_later {p q : Progress DeliveryError} (h : p.Le q) :
    e.sweep id q =
      let first := e.sweep id p
      if first.done then first
      else
        let second := first.entry.sweep id q
        { second with out := first.out ++ second.out } := by
  obtain ⟨handle, confirmKind, emitted⟩ := e
  have hdelivered := h.delivered
  have hhandedOff := h.handedOff
  cases confirmKind with
  | unicastNoAck | broadcast => cases hp : p.delivered <;> simp_all [sweep]
  | unicastApsAck =>
    cases emitted with
    | true => cases hp : p.delivered <;> simp_all [sweep]
    | false =>
      cases hp : p.handedOff with
      | none => simp [sweep, hp]
      | some result =>
        cases result with
        | error err => simp_all [sweep]
        | ok => cases hd : p.delivered <;> cases hq : q.delivered <;> simp_all [sweep]

end TrackedSend

/-- The map of in-flight tracked sends. -/
structure SendTracker (W : Type) where
  entries : FlatMap RequestId (TrackedSend W)

namespace SendTracker

def new : SendTracker W := ⟨.new⟩

/-- Begin tracking a send under its request id. -/
def insert (t : SendTracker W) (id : RequestId) (handle : SendHandle W)
    (confirmKind : ConfirmKind) : SendTracker W :=
  ⟨t.entries.insert id { handle, confirmKind, emittedSendConfirm := false }⟩

/-- The entries that owe nothing more after a pass. -/
def done (t : SendTracker W) (status : W → Progress DeliveryError) : List RequestId :=
  (t.entries.entries.filter
    (fun e => (e.2.sweep e.1 (status e.2.handle.slot)).done)).map Prod.fst

/-- One reactor pass: emit every confirm frame now owed, and drop the entries that
emitted their last. -/
def sweep (t : SendTracker W) (status : W → Progress DeliveryError) :
    List Notification × SendTracker W :=
  let out := t.entries.entries.flatMap
    (fun e => (e.2.sweep e.1 (status e.2.handle.slot)).out)
  let swept := t.entries.mapVal
    (fun id e => (e.sweep id (status e.handle.slot)).entry)
  (out, ⟨(t.done status).foldl (fun entries id => entries.remove id) swept⟩)

/-- What a pass does with the entry of a request. -/
def swept (t : SendTracker W) (status : W → Progress DeliveryError) (id : RequestId) :
    Option (Swept W) :=
  (t.entries.get id).map fun e => e.sweep id (status e.handle.slot)

/-- What a pass emits for one request. -/
def confirms (t : SendTracker W) (status : W → Progress DeliveryError) (id : RequestId) :
    List Notification :=
  (t.sweep status).1.filter (·.id = id)

theorem confirms_eq (t : SendTracker W) (status : W → Progress DeliveryError) (id : RequestId) :
    t.confirms status id = (t.swept status id).elim [] Swept.out := by
  let emit (e : RequestId × TrackedSend W) := (e.2.sweep e.1 (status e.2.handle.slot)).out
  have hlog : t.confirms status id =
      project id (t.entries.entries.flatMap fun e => tagAll e.1 (emit e)) := by
    change (t.entries.entries.flatMap emit).filter _ = _
    rw [project, List.filter_flatMap, List.filter_flatMap, List.map_flatMap]
    refine congrArg t.entries.entries.flatMap (funext fun e => ?_)
    rw [tagAll, List.filter_map, List.map_map, List.filter_congr fun n hn =>
      congrArg (decide <| · = id) (e.2.id_of_mem_sweep hn)]
    exact (List.map_id _).symm
  rw [hlog, swept]
  cases hget : t.entries.get id with
  | none =>
    refine project_flatMap_ne Prod.fst emit fun e he hid => ?_
    rw [← hid, FlatMap.mem_entries.mp he] at hget
    cases hget
  | some e =>
    exact project_flatMap Prod.fst emit t.entries.nodup_keys (FlatMap.mem_entries.mpr hget)

/-- What a pass leaves under a request id. -/
theorem get_sweep (t : SendTracker W) (status : W → Progress DeliveryError) (id : RequestId) :
    (t.sweep status).2.entries.get id = (t.swept status id).bind Swept.left := by
  have hdone {e : TrackedSend W} (hget : t.entries.get id = some e) :
      id ∈ t.done status ↔ (e.sweep id (status e.handle.slot)).done = true := by
    simp only [done, List.mem_map, List.mem_filter, Prod.exists, exists_and_right,
      exists_eq_right]
    constructor
    · rintro ⟨e', hmem, hdone⟩
      obtain rfl := Option.some.inj (hget.symm.trans (FlatMap.mem_entries.mp hmem))
      exact hdone
    · exact fun hdone => ⟨e, FlatMap.mem_entries.mpr hget, hdone⟩
  simp only [sweep, swept, FlatMap.get_foldl_remove, FlatMap.get_mapVal]
  cases hget : t.entries.get id with
  | none => simp
  | some e => simp [hdone hget, Swept.left]

variable {t : SendTracker W} {status later : W → Progress DeliveryError} {id : RequestId}

/-- An early pass takes nothing away from a later one, and leaves nothing for it to repeat. -/
theorem sweep_later (h : ∀ slot, (status slot).Le (later slot)) :
    t.confirms status id ++ (t.sweep status).2.confirms later id = t.confirms later id ∧
      ((t.sweep status).2.sweep later).2.entries.get id = (t.sweep later).2.entries.get id := by
  have hthen : (t.sweep status).2.swept later id = ((t.swept status id).bind Swept.left).map
      fun e => e.sweep id (later e.handle.slot) := by
    rw [swept, get_sweep]
  rw [confirms_eq, confirms_eq, confirms_eq, get_sweep, get_sweep, hthen, swept, swept]
  cases t.entries.get id with
  | none => exact ⟨rfl, rfl⟩
  | some e =>
    have hboth := e.sweep_later id (h e.handle.slot)
    have hslot := e.handle_sweep id (status e.handle.slot)
    cases hdone : (e.sweep id (status e.handle.slot)).done with
    | true => simp [hboth, hdone, Swept.left]
    | false => simp [hboth, hdone, hslot, Swept.left]

/-- The reactor of a request: actions of the driver, other requests, and passes at any time. -/
inductive Reactor [DecidableEq W] (id : RequestId) (t : SendTracker W) :
    (W → Progress DeliveryError) → SendTracker W → List Notification → Prop where
  | start (slots : W → Progress DeliveryError) : Reactor id t slots t []
  | act {F : Type} {slots : W → Progress DeliveryError} {t' : SendTracker W}
      {log : List Notification} (run : Reactor id t slots t' log)
      (action : Action F W DeliveryError)
      (once : action.isSettled = true → (slots action.waiter).delivered = none) :
      Reactor id t (runAction slots action) t' log
  | track {slots : W → Progress DeliveryError} {t' : SendTracker W} {log : List Notification}
      (run : Reactor id t slots t' log) {other : RequestId} (hother : other ≠ id)
      (handle : SendHandle W) (confirmKind : ConfirmKind) :
      Reactor id t slots (t'.insert other handle confirmKind) log
  | sweep {slots : W → Progress DeliveryError} {t' : SendTracker W} {log : List Notification}
      (run : Reactor id t slots t' log) :
      Reactor id t slots (t'.sweep slots).2 (log ++ (t'.sweep slots).1)

/-- The host is told the same however often and whenever the reactor looked: with one more pass,
the confirms of a request are those of that pass alone, and so is what is left of it. -/
theorem Reactor.confirms_eq_last [DecidableEq W] {id : RequestId} {t t' : SendTracker W}
    {slots : W → Progress DeliveryError} {log : List Notification}
    (run : Reactor id t slots t' log) :
    log.filter (·.id = id) ++ t'.confirms slots id = t.confirms slots id ∧
      (t'.sweep slots).2.entries.get id = (t.sweep slots).2.entries.get id := by
  -- the induction needs it for every pass from now on
  suffices h : ∀ later, (∀ slot, (slots slot).Le (later slot)) →
      log.filter (·.id = id) ++ t'.confirms later id = t.confirms later id ∧
        (t'.sweep later).2.entries.get id = (t.sweep later).2.entries.get id from
    h slots fun _ => .refl _
  induction run with
  | start slots => exact fun _ _ => ⟨rfl, rfl⟩
  | act run action once ih =>
    exact fun later h => ih later fun slot => (le_runAction once slot).trans (h slot)
  | @track _ t' _ run other hother handle confirmKind ih =>
    intro later h
    have hsame : (t'.insert other handle confirmKind).swept later id = t'.swept later id := by
      simp [swept, insert, hother.symm]
    rw [confirms_eq, get_sweep, hsame, ← confirms_eq, ← get_sweep]
    exact ih later h
  | sweep run ih =>
    intro later h
    obtain ⟨hconfirms, hleft⟩ := @sweep_later _ _ _ _ id h
    rw [List.filter_append, List.append_assoc, ← confirms, hconfirms, hleft]
    exact ih later h

/-- A pass sees the handoff of a unicast, and the next one its acknowledgement. -/
theorem Reactor.confirms_eq_last_acked : ∃ slots t' log,
    Reactor 7 (new.insert 7 ⟨(), 0⟩ .unicastApsAck) slots t' log ∧
      log.filter (·.id = 7) ++ t'.confirms slots 7 =
        [.sendConfirm 7 .success, .apsAckConfirm 7 .success] := by
  have hstart := @Reactor.start Unit _ 7 (new.insert 7 ⟨(), 0⟩ .unicastApsAck) fun _ => {}
  have hhanded := (hstart.act (.handedOff () : Action Unit _ _) nofun).sweep
  have hrun := hhanded.act (.settled () (.ok ()) () none : Action Unit _ _) fun _ => rfl
  exact ⟨_, _, _, hrun, hrun.confirms_eq_last.1⟩

end SendTracker

end Ziggurat
