import Ziggurat.Sends.Sends

/-!
# Runs of the send tables

The driver calls the tables one operation at a time, under one lock.  `Op` has
one constructor for each mutating verb of `Sends`, `Output` has what a call
returns, and `step` runs one call.

A `World` is the tables together with the tokens that `dequeue` issued and
`transmitted` has not yet consumed.  In Rust the ownership of the token makes
each one usable once; here `Op.Legal` asks that a report hands back an
outstanding token, whose frame the sender may have rewritten in place.  `abandon`
leaves the frames on loan with the sender, and none of them is ever reported on
again, so it leaves no token that a later report could use.

`Run w es` holds when the events `es`, in order, lead from the empty tables to
`w` and every call in it was legal and returned.
-/

namespace Ziggurat

variable {F W E : Type}

/-- The copies a schedule is admitted with. -/
def Schedule.copies : Schedule → Nat
  | .once => 1
  | .passiveAck _ copies _ => copies
  | .fixedInterval _ copies _ => copies

/-- A call of a mutating verb of `Sends`. -/
inductive Op (F W E : Type) where
  | enqueueUnicast (unicast : Unicast F W) (now : Instant) (tunables : Tunables)
  | enqueueBroadcastCopy (broadcast : SendId) (unicast : Unicast F W) (now : Instant)
      (tunables : Tunables)
  | enqueueUnroutedUnicast (send : UnroutedUnicast F W) (now : Instant)
      (tunables : Tunables)
  | enqueueBroadcast (broadcast : Broadcast F W) (now : Instant) (tunables : Tunables)
  | dequeue (now : Instant)
  | transmitted (inFlight : InFlight F) (result : Except E Unit) (now : Instant)
      (retryDelay passiveAckInterval : Duration)
  | poll (eui64 : Option Eui64) (nwk : Option Nwk) (now : Instant)
  | apsAckReceived (ack : ApsAckData)
  | retryDiscovery (destination : Nwk)
  | failUnrouted (destination : Nwk)
  | routeUnicasts (destination : Nwk) (now : Instant) (tunables : Tunables)
      (resolve : Resolve F E)
  | broadcastDelivered (key : Nwk × UInt8)
  | dropIndirectUnicasts (eui64 : Option Eui64) (nwk : Nwk)
  | cancel (id : SendId)
  | tick (now : Instant)
  | abandon

/-- What a call returns. -/
structure Output (F W E : Type) where
  /-- The id of an admitted send. -/
  admitted : Option SendId := none
  /-- The token of a lent frame. -/
  lent : Option (InFlight F) := none
  /-- The answer of `poll` and of `retry_discovery`; whether a cancel was carried out. -/
  answer : Bool := false
  /-- The actions, in order. -/
  actions : Actions F W E := []
  /-- The waiters that `abandon` returns. -/
  abandoned : List W := []

/-- The tables, and the tokens that may still be reported on. -/
structure World (F W E : Type) where
  sends : Sends F W E
  inFlight : List (InFlight F)

/-- The tables at the start. -/
def World.empty : World F W E := ⟨.empty, []⟩

/-- One call on the tables. -/
def step [FromSendFailure E] (w : World F W E) : Op F W E → Checked (World F W E × Output F W E)
  | .enqueueUnicast unicast now tunables => do
    let (id, actions, sends) ← w.sends.enqueueUnicast unicast now tunables
    return ({ w with sends }, { admitted := some id, actions })
  | .enqueueBroadcastCopy broadcast unicast now tunables => do
    let (id, actions, sends) ← w.sends.enqueueBroadcastCopy broadcast unicast now tunables
    return ({ w with sends }, { admitted := some id, actions })
  | .enqueueUnroutedUnicast send now tunables => do
    let (id, actions, sends) ← w.sends.enqueueUnroutedUnicast send now tunables
    return ({ w with sends }, { admitted := some id, actions })
  | .enqueueBroadcast broadcast now tunables => do
    let (id, actions, sends) ← w.sends.enqueueBroadcast broadcast now tunables
    return ({ w with sends }, { admitted := some id, actions })
  | .dequeue now => do
    let (lent, sends) ← w.sends.dequeue now
    return ({ sends, inFlight := w.inFlight ++ lent.toList }, { lent })
  | .transmitted inFlight result now retryDelay passiveAckInterval => do
    let (sends, actions) ←
      w.sends.transmitted inFlight result now retryDelay passiveAckInterval
    return ({ sends, inFlight := w.inFlight.eraseP (fun t => t.id = inFlight.id) },
      { actions })
  | .poll eui64 nwk now => do
    let (answer, actions, sends) ← w.sends.poll eui64 nwk now
    return ({ w with sends }, { answer, actions })
  | .apsAckReceived ack => do
    let (sends, actions) ← w.sends.apsAckReceived ack
    return ({ w with sends }, { actions })
  | .retryDiscovery destination => do
    let (answer, sends) ← w.sends.retryDiscovery destination
    return ({ w with sends }, { answer })
  | .failUnrouted destination => do
    let (sends, actions) ← w.sends.failUnrouted destination
    return ({ w with sends }, { actions })
  | .routeUnicasts destination now tunables resolve => do
    let (sends, actions) ← w.sends.routeUnicasts destination now tunables resolve
    return ({ w with sends }, { actions })
  | .broadcastDelivered key => do
    let (sends, actions) ← w.sends.broadcastDelivered key
    return ({ w with sends }, { actions })
  | .dropIndirectUnicasts eui64 nwk => do
    let (sends, actions) ← w.sends.dropIndirectUnicasts eui64 nwk
    return ({ w with sends }, { actions })
  | .cancel id => do
    match ← w.sends.cancel id with
    | none => return (w, {})
    | some (sends, actions) => return ({ w with sends }, { answer := true, actions })
  | .tick now => do
    let (sends, actions) ← w.sends.tick now
    return ({ w with sends }, { actions })
  | .abandon =>
    let (abandoned, sends) := w.sends.abandon
    .ok (⟨sends, []⟩, { abandoned })

/-- What the callers of the tables respect. -/
def Op.Legal (w : World F W E) : Op F W E → Prop
  | .enqueueBroadcast broadcast _ _ => 1 ≤ broadcast.schedule.copies
  | .transmitted inFlight _ _ _ _ =>
    ∃ token ∈ w.inFlight, token.id = inFlight.id ∧ token.transmit = inFlight.transmit
  | .retryDiscovery destination => destination ∈ w.sends.unroutedDestinations
  | _ => True

/-- The waiter of the send that an operation admits. -/
def Op.waiter : Op F W E → Option W
  | .enqueueUnicast unicast _ _ => some unicast.waiter
  | .enqueueBroadcastCopy _ unicast _ _ => some unicast.waiter
  | .enqueueUnroutedUnicast send _ _ => some send.waiter
  | .enqueueBroadcast broadcast _ _ => some broadcast.waiter
  | _ => none

/-- The frame of the send that an operation admits. -/
def Op.frame : Op F W E → Option F
  | .enqueueUnicast unicast _ _ => some unicast.frame
  | .enqueueBroadcastCopy _ unicast _ _ => some unicast.frame
  | .enqueueUnroutedUnicast send _ _ => some send.frame
  | .enqueueBroadcast broadcast _ _ => some broadcast.frame
  | _ => none

/-- One call of a run: the world it found, the call, what it returned, and the
world it left. -/
structure Event (F W E : Type) where
  before : World F W E
  op : Op F W E
  out : Output F W E
  after : World F W E

/-- The events `es` lead from the empty tables to `w`. -/
inductive Run [FromSendFailure E] : World F W E → List (Event F W E) → Prop where
  | start : Run World.empty []
  | call {w w' : World F W E} {es : List (Event F W E)} {op : Op F W E}
      {out : Output F W E} (run : Run w es) (legal : op.Legal w)
      (returned : step w op = .ok (w', out)) : Run w' (es ++ [⟨w, op, out, w'⟩])

/-- Every event of a run is a call that returned. -/
theorem Run.returned [FromSendFailure E] {w : World F W E} {es : List (Event F W E)}
    (h : Run w es) : ∀ e ∈ es, step e.before e.op = .ok (e.after, e.out) := by
  induction h with
  | start => simp
  | call _ _ hreturned ih =>
    intro e he
    rcases List.mem_append.mp he with he | he
    · exact ih e he
    · rw [List.mem_singleton.mp he]
      exact hreturned

/-- A call returns an id exactly if it is an admission. -/
theorem step_admitted [FromSendFailure E] {w w' : World F W E} {op : Op F W E}
    {out : Output F W E} (h : step w op = .ok (w', out)) :
    out.admitted.isSome = op.waiter.isSome := by
  cases op with
  | abandon =>
    cases h
    rfl
  | cancel id =>
    obtain ⟨answer, -, h⟩ := Checked.bind_eq_ok.mp h
    cases answer <;> cases h <;> rfl
  | _ =>
    obtain ⟨result, -, h⟩ := Checked.bind_eq_ok.mp h
    cases h
    rfl

/-- The number of sends a run admitted. -/
def admissions (es : List (Event F W E)) : Nat :=
  es.countP (fun e => e.out.admitted.isSome)

/-! ## Replaying calls -/

instance (w : World F W E) (op : Op F W E) : Decidable (op.Legal w) :=
  match op with
  | .enqueueBroadcast .. => inferInstanceAs (Decidable (1 ≤ _))
  | .transmitted .. => inferInstanceAs (Decidable (∃ token ∈ w.inFlight, _))
  | .retryDiscovery .. => inferInstanceAs (Decidable (_ ∈ _))
  | .enqueueUnicast .. | .enqueueBroadcastCopy .. | .enqueueUnroutedUnicast .. | .dequeue ..
  | .poll .. | .apsAckReceived .. | .failUnrouted .. | .routeUnicasts ..
  | .broadcastDelivered .. | .dropIndirectUnicasts .. | .cancel .. | .tick .. | .abandon =>
    inferInstanceAs (Decidable True)

/-- Run a list of calls from a world, if each of them is legal and returns. -/
def replay [FromSendFailure E] (w : World F W E) :
    List (Op F W E) → Option (World F W E × List (Event F W E))
  | [] => some (w, [])
  | op :: ops =>
    if op.Legal w then
      match step w op with
      | .ok (w', out) => (replay w' ops).map fun (last, es) => (last, ⟨w, op, out, w'⟩ :: es)
      | .error _ => none
    else none

/-- A replay continues a run. -/
theorem Run.replay [FromSendFailure E] {w w' : World F W E} {es es' : List (Event F W E)}
    {ops : List (Op F W E)} (h : Run w es) (hreplay : replay w ops = some (w', es')) :
    Run w' (es ++ es') := by
  induction ops generalizing w es es' with
  | nil =>
    cases hreplay
    simpa using h
  | cons op ops ih =>
    unfold Ziggurat.replay at hreplay
    split_ifs at hreplay with hlegal
    split at hreplay
    · rename_i w₁ out hreturned
      obtain ⟨⟨last, rest⟩, hrest, heq⟩ := Option.map_eq_some_iff.mp hreplay
      cases heq
      simpa using ih (h.call hlegal hreturned) hrest
    · cases hreplay

/-- What the calls lead to from the empty tables. -/
def outcome [FromSendFailure E] (ops : List (Op F W E))
    (h : (replay World.empty ops).isSome = true) : World F W E × List (Event F W E) :=
  (replay World.empty ops).get h

theorem replay_eq_outcome [FromSendFailure E] (ops : List (Op F W E))
    (h : (replay World.empty ops).isSome = true) :
    replay World.empty ops = some (outcome ops h) :=
  (Option.some_get h).symm

theorem run_outcome [FromSendFailure E] (ops : List (Op F W E))
    (h : (replay World.empty ops).isSome = true) : Run (outcome ops h).1 (outcome ops h).2 :=
  Run.start.replay (replay_eq_outcome ops h)

/-- A replay makes the calls it was given. -/
theorem map_op_replay [FromSendFailure E] {w w' : World F W E} {es : List (Event F W E)}
    {ops : List (Op F W E)} (h : replay w ops = some (w', es)) : es.map (·.op) = ops := by
  induction ops generalizing w es with
  | nil =>
    cases h
    rfl
  | cons op ops ih =>
    unfold replay at h
    split_ifs at h with hlegal
    split at h
    · obtain ⟨⟨last, rest⟩, hrest, heq⟩ := Option.map_eq_some_iff.mp h
      cases heq
      simp [ih hrest]
    · cases h

/-! ## What an event does to a send -/

namespace Event

/-- The send whose frame the event lends to the radio. -/
def lentId (e : Event F W E) : Option SendId :=
  e.out.lent.map (·.id)

/-- The send on whose transmit the event reports. -/
def reportedId (e : Event F W E) : Option SendId :=
  match e.op with
  | .transmitted inFlight _ _ _ _ => some inFlight.id
  | _ => none

/-- The send that a poll queues: the oldest pollable one. -/
def polledId (e : Event F W E) : Option SendId :=
  match e.op with
  | .poll eui64 nwk now =>
    (e.before.sends.unicasts.records.entries.find?
      (fun entry => entry.2.pollable eui64 nwk now)).map Prod.fst
  | _ => none

/-- The send that an APS ack is matched to: the oldest one expecting it. -/
def ackedId (e : Event F W E) : Option SendId :=
  match e.op with
  | .apsAckReceived ack =>
    (e.before.sends.unicasts.records.entries.find?
      (fun entry => entry.2.expects ack)).map Prod.fst
  | _ => none

/-- The send that a passive-ack quorum is matched to: the oldest one with its key. -/
def quorumId (e : Event F W E) : Option SendId :=
  match e.op with
  | .broadcastDelivered key =>
    (e.before.sends.broadcasts.records.entries.find?
      (fun entry => entry.2.awaits key)).map Prod.fst
  | _ => none

/-- The event reports a successful transmit of `id`. -/
def reportsOk (e : Event F W E) (id : SendId) : Bool :=
  match e.op with
  | .transmitted inFlight (.ok ()) _ _ _ => inFlight.id = id
  | _ => false

end Event

end Ziggurat
