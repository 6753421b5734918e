import Ziggurat.Driver.Network
import Ziggurat.Sends.Verdicts

/-!
# How many copies a broadcast gets

The driver gives a broadcast one copy more than the retries that a tunable asks for, in the
arithmetic of a `u8`.  A schedule without a copy runs out before the radio was ever asked, and
the timer then takes an error out of a record that has none.

`BroadcastCall` has the four functions that build such a schedule.  `broadcast_copies_iff` says
when the schedule is right, and that the send tables it is right for never panic on a timer pass.
-/

namespace Ziggurat.Driver

open Lib.Stateful

/-! ## The tables that the driver reaches -/

/-- The send tables after some run of calls with schedules of at least one copy. -/
def Reachable (sends : SendTable) : Prop := ∃ inFlight es, Ziggurat.Run ⟨sends, inFlight⟩ es

/-- No timer pass reaches a panic, in particular not the `unwrap` of a last error. -/
theorem Reachable.tick {sends : SendTable} (h : Reachable sends) (now : Instant) :
    ∃ result, sends.tick now = .ok result := by
  obtain ⟨inFlight, es, hrun⟩ := h
  have hlegal : (Op.tick now : Op Frame Unit DeliveryError).Legal ⟨sends, inFlight⟩ := trivial
  have hfits : (Op.tick now : Op Frame Unit DeliveryError).Fits ⟨sends, inFlight⟩ := nofun
  obtain ⟨w', out, log, hrefines⟩ := step_refines hrun.ok hlegal hfits
  obtain ⟨result, hresult, -⟩ := Checked.bind_eq_ok.mp hrefines.returned
  exact ⟨result, hresult⟩

/-- Sends are admitted by legal calls, `count` of them at most. -/
structure Admits (count : Nat) (sends sends' : SendTable) : Prop where
  reachable : Reachable sends → Reachable sends'
  nextId_le : sends.nextId ≤ sends'.nextId
  le_nextId : sends'.nextId ≤ sends.nextId + count

theorem Admits.refl (count : Nat) (sends : SendTable) : Admits count sends sends :=
  ⟨id, le_refl _, Nat.le_add_right _ _⟩

theorem Admits.trans {count count' : Nat} {sends sends' sends'' : SendTable}
    (h : Admits count sends sends') (h' : Admits count' sends' sends'') :
    Admits (count + count') sends sends'' := by
  have hlow := h.nextId_le
  have hlow' := h'.nextId_le
  have hhigh := h.le_nextId
  have hhigh' := h'.le_nextId
  exact ⟨h'.reachable ∘ h.reachable, by lia, by lia⟩

/-- One legal admission to the tables. -/
theorem admits_of_step {sends sends' : SendTable} {op : Op Frame Unit DeliveryError}
    (hlegal : ∀ inFlight, op.Legal ⟨sends, inFlight⟩)
    (hreturned : ∀ inFlight, ∃ out, step ⟨sends, inFlight⟩ op = .ok (⟨sends', inFlight⟩, out))
    (hnextId : sends'.nextId = sends.nextId + 1) : Admits 1 sends sends' := by
  refine ⟨fun ⟨inFlight, es, hrun⟩ => ?_, by lia, by lia⟩
  obtain ⟨out, hreturned⟩ := hreturned inFlight
  exact ⟨inFlight, _, hrun.call (hlegal inFlight) hreturned⟩

section

variable {env : Env} {net : Net}

theorem enqueueUnicast_returns (hroom : net.sends.nextId + 1 < 2 ^ 32) (frame : Frame)
    (policy : TxPolicy) (confirm : Confirm) (nextHop : Nwk)
    (pollAddress : Option Ieee802154Address) :
    Returns net (enqueueUnicast env frame policy confirm nextHop pollAddress)
      fun _ net' => Admits 1 net.sends net'.sends ∧
        net'.sends.broadcasts = net.sends.broadcasts := by
  refine ⟨_, _, enqueueUnicast_eq_ok env net hroom frame policy confirm nextHop pollAddress, ?_,
    rfl⟩
  refine @admits_of_step _ _ (.enqueueUnicast ⟨frame, policy.priority, (), confirm, nextHop,
    pollAddress⟩ env.now env.tunables) (fun _ => trivial)
    (fun inFlight => ⟨{ admitted := some net.sends.nextId }, ?_⟩) rfl
  rw [step, Sends.enqueueUnicast, Sends.allocate_eq_ok hroom]
  rfl

theorem enqueueBroadcastCopy_returns (hroom : net.sends.nextId + 1 < 2 ^ 32) (broadcast : SendId)
    (frame : Frame) (priority : TxPriority) (nextHop : Nwk)
    (pollAddress : Option Ieee802154Address) :
    Returns net (enqueueBroadcastCopy env broadcast frame priority nextHop pollAddress)
      fun _ net' => Admits 1 net.sends net'.sends ∧
        net'.sends.broadcasts = net.sends.broadcasts := by
  refine ⟨_, _, enqueueBroadcastCopy_eq_ok env net hroom broadcast frame priority nextHop
    pollAddress, ?_, rfl⟩
  refine @admits_of_step _ _ (.enqueueBroadcastCopy broadcast ⟨frame, priority, (),
    .onHandoff, nextHop, pollAddress⟩ env.now env.tunables) (fun _ => trivial)
    (fun inFlight => ⟨{ admitted := some net.sends.nextId }, ?_⟩) rfl
  rw [step, Sends.enqueueBroadcastCopy, Sends.allocate_eq_ok hroom]
  rfl

theorem enqueueBroadcast_returns (hroom : net.sends.nextId + 1 < 2 ^ 32) (frame : Frame)
    (policy : TxPolicy) {schedule : Schedule} (hone : 1 ≤ schedule.copies) :
    Returns net (enqueueBroadcast env frame policy schedule)
      fun _ net' => Admits 1 net.sends net'.sends ∧ net'.neighbors = net.neighbors ∧
        net'.sends.broadcasts = net.sends.broadcasts.enqueue net.sends.nextId
          ⟨frame, policy.priority, (), schedule⟩ env.now env.tunables := by
  refine ⟨_, _, enqueueBroadcast_eq_ok env net hroom frame policy schedule, ?_, rfl, rfl⟩
  refine @admits_of_step _ _ (.enqueueBroadcast ⟨frame, policy.priority, (), schedule⟩
    env.now env.tunables) (fun _ => hone)
    (fun inFlight => ⟨{ admitted := some net.sends.nextId }, ?_⟩) rfl
  rw [step, Sends.enqueueBroadcast, Sends.allocate_eq_ok hroom]
  rfl

/-- A loop of admissions of unicasts. -/
theorem forM_admits {α : Type} {f : α → NetM Unit}
    (hf : ∀ a (net : Net), net.sends.nextId + 1 < 2 ^ 32 →
      Returns net (f a) fun _ net' => Admits 1 net.sends net'.sends ∧
        net'.sends.broadcasts = net.sends.broadcasts)
    {l : List α} {net : Net} (hroom : net.sends.nextId + l.length < 2 ^ 32) :
    Returns net (l.forM f) fun _ net' => Admits l.length net.sends net'.sends ∧
      net'.sends.broadcasts = net.sends.broadcasts := by
  induction l generalizing net with
  | nil => exact .pure ⟨.refl 0 net.sends, rfl⟩
  | cons a l ih =>
    rw [List.length_cons] at hroom
    refine .bind (hf a net (by lia)) fun _ net₁ ⟨h₁, hsame₁⟩ => ?_
    have hle := h₁.le_nextId
    refine (ih (by lia)).mono fun _ net₂ ⟨h₂, hsame₂⟩ => ⟨?_, hsame₂.trans hsame₁⟩
    have h := h₁.trans h₂
    rwa [Nat.add_comm] at h

/-- The children that sleep and get a copy of a broadcast. -/
def sleepyCopies (neighbors : Neighbors) (frame : NwkFrame) : List (Eui64 × Nwk) :=
  if frame.nwkHeader.destination = broadcastAllDevices then
    neighbors.sleepyChildren.filter (·.2 ≠ frame.nwkHeader.source)
  else []

theorem length_sleepyCopies_le (neighbors : Neighbors) (frame : NwkFrame) :
    (sleepyCopies neighbors frame).length ≤ neighbors.sleepyChildren.length := by
  unfold sleepyCopies
  split
  · exact List.length_filter_le _ _
  · exact Nat.zero_le _

theorem maybeFanOut_eq (env : Env) (net : Net) (frame : NwkFrame) (security : NwkSecurityMode)
    (copyOf : Option SendId) :
    maybeFanOutBroadcastToSleepyChildren env frame security copyOf net =
      ((sleepyCopies net.neighbors frame).forM fun (childEui64, childNwk) =>
        match copyOf with
        | some broadcast =>
          enqueueBroadcastCopy env broadcast (.nwk frame security) .userNormal childNwk
            (some (.eui64 childEui64))
        | none => do
          let _ ← enqueueUnicast env (.nwk frame security) ⟨.userNormal, .forwarding⟩ .onHandoff
            childNwk (some (.eui64 childEui64)) : NetM Unit) net := by
  unfold maybeFanOutBroadcastToSleepyChildren sleepyCopies
  split <;> rfl

/-- The copies for the children that sleep are admitted one by one. -/
theorem maybeFanOut_returns (frame : NwkFrame) (security : NwkSecurityMode)
    (copyOf : Option SendId)
    (hroom : net.sends.nextId + (sleepyCopies net.neighbors frame).length < 2 ^ 32) :
    Returns net (maybeFanOutBroadcastToSleepyChildren env frame security copyOf)
      fun _ net' => Admits (sleepyCopies net.neighbors frame).length net.sends net'.sends ∧
        net'.sends.broadcasts = net.sends.broadcasts := by
  rw [Returns, maybeFanOut_eq]
  refine forM_admits (fun child net hroom => ?_) hroom
  cases copyOf with
  | some broadcast => exact enqueueBroadcastCopy_returns hroom ..
  | none => exact .bind (enqueueUnicast_returns hroom ..) fun _ _ h => .pure h

theorem bind_nextSequenceNumber {β : Type} {f : UInt8 → NetM β} {S : β → Net → Prop}
    (h : ∀ sequenceNumber, Returns { net with sequenceNumber } (f sequenceNumber) S) :
    Returns net (nextSequenceNumber >>= f) S :=
  h _

theorem of_nextSequenceNumber {β : Type} {f : UInt8 → NetM β} {S : β → Net → Prop}
    (h : Returns net (nextSequenceNumber >>= f) S) :
    ∃ sequenceNumber, Returns { net with sequenceNumber } (f sequenceNumber) S :=
  ⟨_, h⟩

end

/-! ## The calls -/

/-- The functions that give a broadcast one copy more than a tunable says. -/
inductive BroadcastCall where
  /-- `send_broadcast`. -/
  | send (send : Broadcast)
  /-- `maybe_relay_broadcast`. -/
  | relay (frame : NwkFrame)
  /-- `start_route_discovery`. -/
  | discover (destination : Nwk)
  /-- `handle_route_request`. -/
  | request (frame : NwkFrame) (command : NwkRouteRequestCommand) (senderNwk : Nwk)

namespace BroadcastCall

def run (env : Env) : BroadcastCall → NetM Unit
  | .send broadcast => do
    let _ ← sendBroadcast env broadcast
  | .relay frame => maybeRelayBroadcast env frame
  | .discover destination => startRouteDiscovery env destination
  | .request frame command senderNwk => handleRouteRequest env frame command senderNwk

/-- The tunable that the call reads. -/
def retries (tunables : Tunables) : BroadcastCall → UInt8
  | .send _ | .relay _ => tunables.maxBroadcastRetries
  | .discover _ => tunables.initialRreqRetries
  | .request .. => tunables.rreqRetries

/-- The call comes to its broadcast: the budget admits it, the frame is another device's and has a
hop left, or the request is to be relayed. -/
def Broadcasts (env : Env) (net : Net) : BroadcastCall → Prop
  | .send broadcast => (net.broadcastBudget.take broadcast.policy.trafficClass env.now
      env.tunables.broadcastBudgetTokens env.tunables.broadcastTokenRefill
      env.tunables.broadcastCriticalReserve env.tunables.broadcastForwardingReserve).1 = .admitted
  | .relay frame => frame.nwkHeader.frameControl.frameType = .data ∧
      frame.nwkHeader.source ≠ env.networkAddress ∧
      UInt8.saturatingSub frame.nwkHeader.radius 1 ≠ 0
  | .discover _ => True
  | .request frame command senderNwk => ∃ relayed,
      (answerRouteRequest env net.neighbors net.routing frame command senderNwk).1 = .relay relayed

end BroadcastCall

theorem copies_eq_ok {retries : UInt8} (h : retries ≠ 255) :
    copies retries = .ok (retries.toNat + 1) := by
  have hlt : retries.toNat + 1 < 2 ^ 8 := by
    have hne : retries.toNat ≠ 255 := fun heq => h (UInt8.toNat_inj.mp heq)
    have hlt := retries.toNat_lt
    omega
  rw [copies, Checked.ensure_of _ hlt]
  rfl

/-- A broadcast with one copy more than the retries is admitted, and nothing else but unicasts. -/
def Schedules (env : Env) (retries : UInt8) (sends sends' : SendTable) : Prop :=
  (∃ count, Admits count sends sends') ∧
  ∃ id broadcast, sends.nextId ≤ id ∧ broadcast.schedule.copies = retries.toNat + 1 ∧
    sends'.broadcasts = sends.broadcasts.enqueue id broadcast env.now env.tunables

theorem broadcastRouteRequest_schedules {env : Env} {net : Net} (retries : UInt8)
    (hroom : net.sends.nextId + 1 < 2 ^ 32) (frame : NwkFrame) (initialDelay : Duration) :
    Returns net (broadcastRouteRequest env frame (retries.toNat + 1) initialDelay)
      fun _ net' => Schedules env retries net.sends net'.sends := by
  refine .bind (enqueueBroadcast_returns hroom _ _ (Nat.le_add_left 1 _)) fun _ net' h => ?_
  obtain ⟨hadmits, -, hbroadcasts⟩ := h
  exact .pure ⟨⟨1, hadmits⟩, _, _, le_refl _, rfl, hbroadcasts⟩

theorem BroadcastCall.Broadcasts.take_eq {env : Env} {net : Net} {broadcast : Broadcast}
    (h : (BroadcastCall.send broadcast).Broadcasts env net) : ∃ budget,
      net.broadcastBudget.take broadcast.policy.trafficClass env.now
        env.tunables.broadcastBudgetTokens env.tunables.broadcastTokenRefill
        env.tunables.broadcastCriticalReserve env.tunables.broadcastForwardingReserve =
          (.admitted, budget) :=
  ⟨_, Prod.ext h rfl⟩

theorem BroadcastCall.Broadcasts.answer_eq {env : Env} {net : Net} {frame : NwkFrame}
    {command : NwkRouteRequestCommand} {senderNwk : Nwk}
    (h : (BroadcastCall.request frame command senderNwk).Broadcasts env net) :
    ∃ relayed routing, answerRouteRequest env net.neighbors net.routing frame command senderNwk =
      (.relay relayed, routing) := by
  obtain ⟨relayed, hrelay⟩ := h
  exact ⟨relayed, _, Prod.ext hrelay rfl⟩

/-- Each call admits its broadcast if there is room for the copies. -/
theorem BroadcastCall.run_schedules {env : Env} {net : Net} (call : BroadcastCall)
    (hroom : net.sends.nextId + net.neighbors.sleepyChildren.length + 1 < 2 ^ 32)
    (hbroadcasts : call.Broadcasts env net) (hretries : call.retries env.tunables ≠ 255) :
    Returns net (call.run env) fun _ net' =>
      Schedules env (call.retries env.tunables) net.sends net'.sends := by
  cases call with
  | send broadcast =>
    obtain ⟨budget, htake⟩ := hbroadcasts.take_eq
    refine .bind ?_ fun _ _ h => .pure h
    unfold sendBroadcast
    refine .bind_get ?_
    rw [htake]
    refine .bind_set (bind_nextSequenceNumber fun sequenceNumber => .bind_modify ?_)
    refine .bind_lift (copies_eq_ok hretries) ?_
    refine .bind (enqueueBroadcast_returns (by dsimp only; lia) _ _ (Nat.le_add_left 1 _))
      fun id net₁ ⟨h₁, hneighbors, hbroadcasts₁⟩ => ?_
    have hle := h₁.le_nextId
    dsimp only at hle hneighbors
    have hcopies := length_sleepyCopies_le net.neighbors
      (broadcast.frame.withSequenceNumber sequenceNumber)
    rw [← hneighbors] at hcopies
    refine .bind (maybeFanOut_returns _ _ _ (by rw [← hneighbors] at hroom; lia))
      fun _ net₂ ⟨h₂, hbroadcasts₂⟩ => .pure ?_
    exact ⟨⟨_, h₁.trans h₂⟩, _, _, le_refl _, rfl, hbroadcasts₂.trans hbroadcasts₁⟩
  | relay frame =>
    obtain ⟨htype, hsource, hradius⟩ := hbroadcasts
    obtain ⟨initiator, hclear⟩ :=
      net.neighbors.clearEndDeviceInitiatorForRelay_eq frame.nwkHeader
    change Returns net (maybeRelayBroadcast env frame) _
    unfold maybeRelayBroadcast
    rw [if_pos ⟨htype, hsource⟩]
    refine .bind_get ?_
    dsimp only
    rw [hclear]
    have hcopies := length_sleepyCopies_le net.neighbors
      { frame with nwkHeader.frameControl.endDeviceInitiator := initiator }
    refine .bind (maybeFanOut_returns _ _ _ (by lia)) fun _ net₁ ⟨h₁, hbroadcasts₁⟩ => ?_
    have hle := h₁.le_nextId
    rw [if_pos hradius]
    refine .bind_lift (copies_eq_ok hretries) ?_
    refine .bind (enqueueBroadcast_returns (by lia) _ _ (Nat.le_add_left 1 _))
      fun _ net₂ ⟨h₂, _, hbroadcasts₂⟩ => .pure ?_
    rw [hbroadcasts₁] at hbroadcasts₂
    exact ⟨⟨_, h₁.trans h₂⟩, _, _, h₁.nextId_le, rfl, hbroadcasts₂⟩
  | discover destination =>
    change Returns net (startRouteDiscovery env destination) _
    unfold startRouteDiscovery
    refine .bind_get (.bind_set (bind_nextSequenceNumber fun sequenceNumber => ?_))
    refine .bind_lift (copies_eq_ok hretries) ?_
    exact broadcastRouteRequest_schedules _ (by dsimp only; lia) _ _
  | request frame command senderNwk =>
    obtain ⟨relayed, routing, hanswer⟩ := hbroadcasts.answer_eq
    change Returns net (handleRouteRequest env frame command senderNwk) _
    unfold handleRouteRequest
    refine .bind_get ?_
    rw [hanswer]
    refine .bind_set (.bind_lift (copies_eq_ok hretries) ?_)
    exact broadcastRouteRequest_schedules _ (by dsimp only; lia) _ _

/-- A call that comes to its broadcast counts the copies on the way. -/
theorem BroadcastCall.copies_of_returns {env : Env} {net : Net} {call : BroadcastCall}
    {Q : Unit → Net → Prop} (hbroadcasts : call.Broadcasts env net)
    (h : Returns net (call.run env) Q) :
    ∃ count, copies (call.retries env.tunables) = .ok count := by
  cases call with
  | send broadcast =>
    obtain ⟨budget, htake⟩ := hbroadcasts.take_eq
    change Returns net (sendBroadcast env broadcast >>= _) Q at h
    have hsend := h.of_bind
    unfold sendBroadcast at hsend
    change Returns net (MonadState.get >>= _) _ at hsend
    replace hsend := hsend.of_get
    rw [htake] at hsend
    obtain ⟨sequenceNumber, hsend⟩ := of_nextSequenceNumber hsend.of_set
    obtain ⟨_, _, -, hsend⟩ := hsend.of_bind
    exact hsend.of_bind_lift
  | relay frame =>
    obtain ⟨htype, hsource, hradius⟩ := hbroadcasts
    obtain ⟨initiator, hclear⟩ :=
      net.neighbors.clearEndDeviceInitiatorForRelay_eq frame.nwkHeader
    change Returns net (maybeRelayBroadcast env frame) _ at h
    unfold maybeRelayBroadcast at h
    rw [if_pos ⟨htype, hsource⟩] at h
    replace h := h.of_get
    dsimp only at h
    rw [hclear] at h
    obtain ⟨_, net', -, h⟩ := h.of_bind
    rw [if_pos hradius] at h
    exact h.of_bind_lift
  | discover destination =>
    change Returns net (startRouteDiscovery env destination) _ at h
    unfold startRouteDiscovery at h
    obtain ⟨sequenceNumber, h⟩ := of_nextSequenceNumber h.of_get.of_set
    exact h.of_bind_lift
  | request frame command senderNwk =>
    obtain ⟨relayed, routing, hanswer⟩ := hbroadcasts.answer_eq
    change Returns net (handleRouteRequest env frame command senderNwk) _ at h
    unfold handleRouteRequest at h
    replace h := h.of_get
    rw [hanswer] at h
    exact h.of_set.of_bind_lift

theorem BroadcastCall.retries_ne_of_returns {env : Env} {net : Net} {call : BroadcastCall}
    {Q : Unit → Net → Prop} (hbroadcasts : call.Broadcasts env net)
    (h : Returns net (call.run env) Q) : call.retries env.tunables ≠ 255 := by
  obtain ⟨count, hcount⟩ := copies_of_returns hbroadcasts h
  intro hretries
  rw [hretries] at hcount
  cases hcount

/-! ## The schedule, and the runs from there on -/

/-- What a broadcast with a given number of retries is to become: a record in the table with at
least one copy and at most one more than the retries, in a table from which no timer pass of any
run panics. -/
structure Scheduled (retries : UInt8) (sends sends' : SendTable) : Prop where
  enqueued : ∃ id record, sends.nextId ≤ id ∧ sends'.broadcasts.records.get id = some record
  copies : ∀ id record, sends.nextId ≤ id → sends'.broadcasts.records.get id = some record →
    1 ≤ record.schedule.copies ∧ record.schedule.copies ≤ retries.toNat + 1
  timer : ∃ inFlight es, Ziggurat.Run ⟨sends', inFlight⟩ es ∧
    ∀ w es', Ziggurat.Run w (es ++ es') → ∀ now, ∃ result, w.sends.tick now = .ok result

theorem Schedules.scheduled {env : Env} {retries : UInt8} {sends sends' : SendTable}
    (h : Schedules env retries sends sends') (hreach : Reachable sends) :
    Scheduled retries sends sends' := by
  obtain ⟨⟨count, hadmits⟩, id, broadcast, hid, hcopies, hbroadcasts⟩ := h
  have hget : ∀ other, sends'.broadcasts.records.get other =
      if other = id then some (Broadcasts.newRecord broadcast env.now env.tunables)
      else sends.broadcasts.records.get other := by
    intro other
    rw [hbroadcasts]
    exact FlatMap.get_insert ..
  constructor
  · exact ⟨id, _, hid, by rw [hget, if_pos rfl]⟩
  · intro other record hother hrecord
    obtain ⟨inFlight, es, hrun⟩ := hreach
    have hfresh := hrun.ok.broadcasts_fresh other hother
    rw [hget] at hrecord
    split_ifs at hrecord with heq
    · cases hrecord
      exact ⟨by rw [Broadcasts.newRecord, hcopies]; omega, hcopies.le⟩
    · cases hfresh.symm.trans hrecord
  · obtain ⟨inFlight, es, hrun⟩ := hadmits.reachable hreach
    exact ⟨inFlight, es, hrun, fun w es' hrun' => Reachable.tick ⟨w.inFlight, _, hrun'⟩⟩

/-- The schedule of a broadcast is right for every number of retries but the largest. -/
theorem broadcast_copies_iff (env : Env) (net : Net) (call : BroadcastCall)
    (hreach : Reachable net.sends)
    (hroom : net.sends.nextId + net.neighbors.sleepyChildren.length + 1 < 2 ^ 32)
    (hbroadcasts : call.Broadcasts env net) :
    Returns net (call.run env)
        (fun _ net' => Scheduled (call.retries env.tunables) net.sends net'.sends) ↔
      call.retries env.tunables ≠ 255 := by
  constructor
  · exact BroadcastCall.retries_ne_of_returns hbroadcasts
  · intro hretries
    exact (call.run_schedules hroom hbroadcasts hretries).mono fun _ _ h => h.scheduled hreach

theorem reachable_empty : Reachable (.empty : SendTable) := ⟨[], [], .start⟩

namespace Example

/-- A coordinator whose host set the retries of a discovery. -/
def withRreqRetries (initialRreqRetries : UInt8) : Env :=
  { Env.plain .coordinator 0 1 with tunables := { initialRreqRetries } }

/-- The network layer of a coordinator that has just started. -/
def started : Net := (ZigbeeStack.plain (.plain .coordinator 0 1) 7).net

/-- The request of a discovery, with a schedule of so many copies. -/
def requestWith (copies : Nat) : Ziggurat.Broadcast Frame Unit where
  frame := .nwk (routeRequestFrame (.plain .coordinator 0 1) 0x1234 1 none) .networkKey
  priority := .userNormal
  waiter := ()
  schedule := .fixedInterval 254000 copies 0

end Example

/-- With 254 retries a discovery is scheduled. -/
theorem broadcast_copies_iff_discover :
    Returns Example.started ((BroadcastCall.discover 0x1234).run (Example.withRreqRetries 254))
      (fun _ net' => Scheduled 254 Example.started.sends net'.sends) :=
  (broadcast_copies_iff (Example.withRreqRetries 254) Example.started (.discover 0x1234)
    reachable_empty (by decide) trivial).mpr (by decide)

/-- With 255 retries the sum overflows.  Where the arithmetic wraps instead, the schedule has no
copy, and the first timer pass takes an error that was never recorded. -/
theorem broadcast_copies_overflow :
    ((BroadcastCall.discover 0x1234).run (Example.withRreqRetries 255)).run Example.started =
        .error .overflow ∧
      (255 + 1 : UInt8).toNat = 0 ∧
      ((Sends.empty : SendTable).enqueueBroadcast (Example.requestWith 0) 0 {} >>= fun enqueued =>
        enqueued.2.2.tick 0) = .error .unwrap := by
  refine ⟨rfl, by decide, rfl⟩

end Ziggurat.Driver
