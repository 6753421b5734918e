import Ziggurat.Sends.Runs

/-!
# The life of one send

What the tables are for, one send at a time.  `Life` is everything a world knows
about one id: its record in each table and its outstanding tokens.  `Life.Step`
is the small state machine of a single send.  Each constructor is one thing that
can happen to a send, with the actions its waiter sees, and says nothing about
any other send; which of several sends an operation picks is left open, except
that the event records the pick.

`Sends.Refinement` proves that every call on the tables is, for every id at
once, a step of this machine.  The temporal properties of a send are then
inductions over `Life.Run`, with the record itself as the state.

`Life.Ok` is the invariant of the machine: a send is in at most one table, its
frame is out of the record exactly while one token for it is outstanding, and a
broadcast that has nothing left to send has had a report.
-/

namespace Ziggurat

variable {F W E : Type}

/-! ## Transitions of a unicast record -/

namespace Unicasts.Record

/-- The record while its frame is on loan. -/
def lend (r : Record F W) : Record F W :=
  { r with frame := none, stage := .transmitting false }

/-- What `settle` reports: a send waiting for its ack repeats the handoff. -/
def verdict (r : Record F W) (result : Except E Unit) (frame : F)
    (failedHop : Option Nwk) : Actions F W E :=
  (if r.stage = .awaitingApsAck then [.handedOff r.waiter] else []) ++
    [.settled r.waiter result frame failedHop]

/-- The frame reached its next hop.  `none` is a settled send. -/
def accept (r : Record F W) (frame : F) (now : Instant) (acked : Bool) :
    Option (Record F W) × Actions F W E :=
  match r.confirm, acked with
  | .apsAck _ wait, false =>
    (some { r with
        frame := some frame
        stage := .awaitingApsAck
        deadline := Instant.add now wait }, [.handedOff r.waiter])
  | _, _ => (none, [.settled r.waiter (.ok ()) frame none])

/-- A failed transmit. -/
def reject (r : Record F W) (frame : F) (err : E) (now : Instant) (retryDelay : Duration) :
    Option (Record F W) × Actions F W E :=
  match r.pollAddress with
  | some _ =>
    if now < r.deadline then
      (some { r with frame := some frame, stage := .awaitingPoll }, [])
    else (none, [.settled r.waiter (.error err) frame none])
  | none =>
    if r.attemptsRemaining = 0 then
      (none, [.settled r.waiter (.error err) frame (some r.nextHop)])
    else
      (some { r with
          frame := some frame
          attemptsRemaining := r.attemptsRemaining - 1
          stage := .retrying (Instant.add now retryDelay) }, [])

/-- The radio's report. -/
def report (r : Record F W) (acked : Bool) (frame : F) (result : Except E Unit)
    (now : Instant) (retryDelay : Duration) : Option (Record F W) × Actions F W E :=
  match result with
  | .ok () => r.accept frame now acked
  | .error err => if acked then r.accept frame now acked else r.reject frame err now retryDelay

end Unicasts.Record

/-! ## Transitions of a broadcast record -/

namespace Broadcasts.Record

/-- The record while its copy is on loan. -/
def lend (r : Record F W E) : Record F W E :=
  { r with frame := none, copy := .transmitting }

/-- What `settle` reports: a send that was handed off repeats the handoff. -/
def settlement (r : Record F W E) (result : Except E Unit) (frame : F) : Actions F W E :=
  (if r.handedOff then [.handedOff r.waiter] else []) ++
    [.settled r.waiter result frame none]

/-- The record after a report on a scheduled copy, before any verdict. -/
def reported (r : Record F W E) (frame : F) (result : Except E Unit) (now : Instant)
    (passiveAckInterval : Duration) : Record F W E :=
  { r with
    copy := .idle
    frame := some frame
    schedule := rearm r.schedule now passiveAckInterval
    handedOff := r.handedOff || result.isOk
    lastError := match result with
      | .ok () => r.lastError
      | .error err => some err }

/-- The radio's report.  `none` is a settled send. -/
def report (r : Record F W E) (frame : F) (result : Except E Unit) (now : Instant)
    (passiveAckInterval : Duration) : Option (Record F W E) × Actions F W E :=
  if r.schedule = .once then
    (none, settlement r result frame)
  else
    let r' := r.reported frame result now passiveAckInterval
    if r'.quorumHeard && r'.handedOff then (none, r'.settlement (.ok ()) frame)
    else if result.isOk && !r.handedOff then (some r', [.handedOff r.waiter])
    else (some r', [])

end Broadcasts.Record

/-! ## The machine -/

/-- What a world knows about one send. -/
@[ext]
structure Life (F W E : Type) where
  unicast : Option (Unicasts.Record F W) := none
  unrouted : Option (UnroutedUnicasts.Record F W) := none
  broadcast : Option (Broadcasts.Record F W E) := none
  tokens : List (InFlight F) := []

/-- A send that is not admitted, or over. -/
def Life.absent : Life F W E := {}

/-- The life of `id` in a world. -/
def World.life (w : World F W E) (id : SendId) : Life F W E :=
  { unicast := w.sends.unicasts.records.get id
    unrouted := w.sends.unroutedUnicasts.records.get id
    broadcast := w.sends.broadcasts.records.get id
    tokens := w.inFlight.filter (fun token => token.id = id) }

/-- A send is live while a table holds it. -/
def Life.live (l : Life F W E) : Bool :=
  l.unicast.isSome || l.unrouted.isSome || l.broadcast.isSome

/-- The operation is a timer pass or the end of the tables, which touch every
record. -/
def Op.sweeps : Op F W E → Bool
  | .tick _ => true
  | .abandon => true
  | _ => false

/-- The event singles out some other send, or none, and is not a sweep. -/
structure Event.Quiet (e : Event F W E) (id : SendId) : Prop where
  sweeps : e.op.sweeps = false
  admitted : e.out.admitted ≠ some id
  lent : e.lentId ≠ some id
  reported : e.reportedId ≠ some id
  polled : e.polledId ≠ some id
  acked : e.ackedId ≠ some id
  quorum : e.quorumId ≠ some id

namespace Life

/-- One step of the life of `id` in the event `e`, with the actions for its
waiter. -/
inductive Step [FromSendFailure E] (id : SendId) (e : Event F W E) :
    Life F W E → Actions F W E → Life F W E → Prop where
  /-- The event does not concern the send. -/
  | idle {l : Life F W E} (quiet : e.Quiet id) : Step id e l [] l
  /-- A timer pass finds nothing to do: no record, or one in the radio. -/
  | tickIdle {l : Life F W E} {now : Instant} (op : e.op = .tick now)
      (unrouted : l.unrouted = none)
      (unicast : ∀ r, l.unicast = some r → r.stage.isTransmitting = true)
      (broadcast : ∀ r, l.broadcast = some r → r.copy = .transmitting) : Step id e l [] l
  /-- The tables are emptied. -/
  | abandoned {l : Life F W E} (op : e.op = .abandon) : Step id e l [] absent
  -- Unicasts
  | admitUnicast {unicast : Unicast F W} {now : Instant} {tunables : Tunables}
      {copyOf : Option SendId} (admitted : e.out.admitted = some id)
      (waiter : e.op.waiter = some unicast.waiter) (frame : e.op.frame = some unicast.frame)
      (op : e.op = .enqueueUnicast unicast now tunables ∧ copyOf = none ∨
        ∃ b, e.op = .enqueueBroadcastCopy b unicast now tunables ∧ copyOf = some b) :
      Step id e absent []
        { unicast := some (Unicasts.newRecord unicast now none copyOf tunables) }
  | lendUnicast {r : Unicasts.Record F W} {now : Instant} {token : InFlight F}
      (op : e.op = .dequeue now) (lent : e.out.lent = some token) (tokenId : token.id = id)
      (ready : r.ready now = true) (frame : r.frame = some token.frame)
      (unicast : token.transmit ≠ .broadcast) :
      Step id e { unicast := some r } []
        { unicast := some r.lend, tokens := [token] }
  | reportUnicast {r : Unicasts.Record F W} {acked : Bool} {token inFlight : InFlight F}
      {result : Except E Unit} {now : Instant} {retryDelay interval : Duration}
      (op : e.op = .transmitted inFlight result now retryDelay interval)
      (tokenId : inFlight.id = id) (issued : token ∈ e.before.inFlight)
      (stage : r.stage = .transmitting acked) :
      Step id e { unicast := some r, tokens := [token] }
        (r.report acked inFlight.frame result now retryDelay).2
        { unicast := (r.report acked inFlight.frame result now retryDelay (E := E)).1 }
  | pollUnicast {r : Unicasts.Record F W} {eui64 : Option Eui64} {nwk : Option Nwk}
      {now : Instant} (op : e.op = .poll eui64 nwk now) (answer : e.out.answer = true)
      (polled : e.polledId = some id) (pollable : r.pollable eui64 nwk now = true) :
      Step id e { unicast := some r } [] { unicast := some r.polled }
  | ackTransmitting {r : Unicasts.Record F W} {ack : ApsAckData} {tokens : List (InFlight F)}
      (op : e.op = .apsAckReceived ack) (acked : e.ackedId = some id)
      (expects : r.expects ack = true) (stage : r.stage.isTransmitting = true) :
      Step id e { unicast := some r, tokens := tokens } []
        { unicast := some { r with stage := .transmitting true }, tokens := tokens }
  | ackSettle {r : Unicasts.Record F W} {ack : ApsAckData} {frame : F}
      (op : e.op = .apsAckReceived ack) (acked : e.ackedId = some id)
      (expects : r.expects ack = true) (stage : r.stage.isTransmitting = false)
      (hframe : r.frame = some frame) :
      Step id e { unicast := some r } (r.verdict (.ok ()) frame none) absent
  | dropUnicast {r : Unicasts.Record F W} {eui64 : Option Eui64} {nwk : Nwk}
      {destination : Ieee802154Address} {frame : F}
      (op : e.op = .dropIndirectUnicasts eui64 nwk)
      (dropped : r.dropped eui64 nwk = some destination) (hframe : r.frame = some frame) :
      Step id e { unicast := some r }
        (r.verdict (.error (ofFailure (.indirectExpired destination))) frame none) absent
  | cancelUnicast {r : Unicasts.Record F W} {other : SendId} {frame : F}
      (op : e.op = .cancel other) (stage : r.stage.isTransmitting = false)
      (target : other = id ∨ r.copyOf = some other) (hframe : r.frame = some frame) :
      Step id e { unicast := some r }
        (r.verdict (.error (ofFailure .cancelled)) frame none) absent
  | tickUnicast {r : Unicasts.Record F W} {now : Instant} (op : e.op = .tick now)
      (stage : r.stage.isTransmitting = false) (lapse : (r.requeue now).lapse now = none) :
      Step id e { unicast := some r } [] { unicast := some (r.requeue now) }
  | lapseUnicast {r : Unicasts.Record F W} {now : Instant} {failure : SendFailure} {frame : F}
      (op : e.op = .tick now) (lapse : (r.requeue now).lapse now = some failure)
      (hframe : r.frame = some frame) :
      Step id e { unicast := some r }
        ((r.requeue now).verdict (.error (ofFailure failure)) frame none) absent
  -- Unrouted unicasts
  | admitUnrouted {send : UnroutedUnicast F W} {now : Instant} {tunables : Tunables}
      (admitted : e.out.admitted = some id)
      (op : e.op = .enqueueUnroutedUnicast send now tunables) :
      Step id e absent [] { unrouted := some (UnroutedUnicasts.newRecord send now tunables) }
  | routed {r : UnroutedUnicasts.Record F W} {now : Instant} {tunables : Tunables}
      {resolve : Resolve F E} {k : Nat} {frame : F} {nextHop : Nwk}
      {pollAddress : Option Ieee802154Address}
      (op : e.op = .routeUnicasts r.destination now tunables resolve)
      (deadline : now < r.deadline)
      (resolved : resolve k r.frame = (frame, .ok (nextHop, pollAddress))) :
      Step id e { unrouted := some r } []
        { unicast := some (Unicasts.newRecord (Sends.routed r frame nextHop pollAddress) now
            (some r.deadline) none tunables) }
  | routeFailed {r : UnroutedUnicasts.Record F W} {now : Instant} {tunables : Tunables}
      {resolve : Resolve F E} {k : Nat} {frame : F} {err : E}
      (op : e.op = .routeUnicasts r.destination now tunables resolve)
      (deadline : now < r.deadline)
      (resolved : resolve k r.frame = (frame, .error err)) :
      Step id e { unrouted := some r } [.settled r.waiter (.error err) frame none] absent
  | lapseUnrouted {r : UnroutedUnicasts.Record F W} {now : Instant}
      (op : e.op = .tick now ∨
        ∃ destination tunables resolve,
          e.op = .routeUnicasts destination now tunables resolve)
      (deadline : r.deadline ≤ now) :
      Step id e { unrouted := some r } [UnroutedUnicasts.settled r .handoffTimeout] absent
  | tickUnrouted {r : UnroutedUnicasts.Record F W} {now : Instant} (op : e.op = .tick now)
      (deadline : now < r.deadline) : Step id e { unrouted := some r } [] { unrouted := some r }
  | failUnrouted {r : UnroutedUnicasts.Record F W} (op : e.op = .failUnrouted r.destination) :
      Step id e { unrouted := some r }
        [UnroutedUnicasts.settled r .routeDiscoveryTimeout] absent
  | cancelUnrouted {r : UnroutedUnicasts.Record F W} (op : e.op = .cancel id) :
      Step id e { unrouted := some r } [UnroutedUnicasts.settled r .cancelled] absent
  -- Broadcasts
  | admitBroadcast {broadcast : Broadcast F W} {now : Instant} {tunables : Tunables}
      (admitted : e.out.admitted = some id)
      (op : e.op = .enqueueBroadcast broadcast now tunables)
      (copies : 1 ≤ broadcast.schedule.copies) :
      Step id e absent [] { broadcast := some (Broadcasts.newRecord broadcast now tunables) }
  | lendBroadcast {r : Broadcasts.Record F W E} {now : Instant} {token : InFlight F}
      (op : e.op = .dequeue now) (lent : e.out.lent = some token) (tokenId : token.id = id)
      (ready : r.ready now = true) (frame : r.frame = some token.frame)
      (broadcast : token.transmit = .broadcast) :
      Step id e { broadcast := some r } []
        { broadcast := some r.lend, tokens := [token] }
  | reportBroadcast {r : Broadcasts.Record F W E} {token inFlight : InFlight F}
      {result : Except E Unit} {now : Instant} {retryDelay interval : Duration}
      (op : e.op = .transmitted inFlight result now retryDelay interval)
      (tokenId : inFlight.id = id) (issued : token ∈ e.before.inFlight)
      (copy : r.copy = .transmitting) :
      Step id e { broadcast := some r, tokens := [token] }
        (r.report inFlight.frame result now interval).2
        { broadcast := (r.report inFlight.frame result now interval).1 }
  | quorumNoted {r : Broadcasts.Record F W E} {key : Nwk × UInt8} {tokens : List (InFlight F)}
      (op : e.op = .broadcastDelivered key) (quorum : e.quorumId = some id)
      (awaits : r.awaits key = true) (early : r.copy = .transmitting ∨ r.handedOff = false) :
      Step id e { broadcast := some r, tokens := tokens } []
        { broadcast := some { r with quorumHeard := true }, tokens := tokens }
  | quorumSettle {r : Broadcasts.Record F W E} {key : Nwk × UInt8} {frame : F}
      (op : e.op = .broadcastDelivered key) (quorum : e.quorumId = some id)
      (awaits : r.awaits key = true) (copy : r.copy ≠ .transmitting)
      (handedOff : r.handedOff = true) (hframe : r.frame = some frame) :
      Step id e { broadcast := some r } (r.settlement (.ok ()) frame) absent
  | cancelBroadcast {r : Broadcasts.Record F W E} {frame : F} (op : e.op = .cancel id)
      (copy : r.copy ≠ .transmitting) (hframe : r.frame = some frame) :
      Step id e { broadcast := some r }
        (r.settlement (.error (ofFailure .cancelled)) frame) absent
  | tickBroadcast {r : Broadcasts.Record F W E} {now : Instant} (op : e.op = .tick now)
      (copy : r.copy ≠ .transmitting)
      (verdict : (r.advance now).1.verdict now (r.advance now).2 = .ok none) :
      Step id e { broadcast := some r } [] { broadcast := some (r.advance now).1 }
  | lapseBroadcast {r : Broadcasts.Record F W E} {now : Instant} {result : Except E Unit}
      {frame : F} (op : e.op = .tick now)
      (verdict : (r.advance now).1.verdict now (r.advance now).2 = .ok (some result))
      (hframe : r.frame = some frame) :
      Step id e { broadcast := some r } ((r.advance now).1.settlement result frame) absent

/-- The life of `id` along a run: the actions of each event for its waiter.  An id
is admitted at most once. -/
inductive Run [FromSendFailure E] (id : SendId) :
    List (Event F W E) → List (Actions F W E) → Life F W E → Prop where
  | start : Run id [] [] absent
  | step {es : List (Event F W E)} {batches : List (Actions F W E)} {l l' : Life F W E}
      {e : Event F W E} {actions : Actions F W E} (run : Run id es batches l)
      (before : e.before.life id = l) (after : e.after.life id = l')
      (returned : Ziggurat.step e.before e.op = .ok (e.after, e.out))
      (once : e.out.admitted = some id → ∀ e' ∈ es, e'.out.admitted ≠ some id)
      (step : Step id e l actions l') : Run id (es ++ [e]) (batches ++ [actions]) l'

/-! ## The invariant of the machine -/

/-- A unicast record with its tokens. -/
structure UnicastOk (r : Unicasts.Record F W) (tokens : List (InFlight F)) : Prop where
  lent : r.stage.isTransmitting = true →
    r.frame = none ∧ ∃ token, tokens = [token] ∧ token.transmit ≠ .broadcast
  held : r.stage.isTransmitting = false → r.frame.isSome = true ∧ tokens = []
  /-- A held frame never waits out a retry delay. -/
  polls : r.pollAddress.isSome = true → ∀ due, r.stage ≠ .retrying due

/-- A broadcast record with its tokens. -/
structure BroadcastOk (r : Broadcasts.Record F W E) (tokens : List (InFlight F)) : Prop where
  lent : r.copy = .transmitting →
    r.frame = none ∧ ∃ token, tokens = [token] ∧ token.transmit = .broadcast
  held : r.copy ≠ .transmitting → r.frame.isSome = true ∧ tokens = []
  /-- A single copy settles on its own report. -/
  once : r.schedule = .once → r.handedOff = false ∧ r.copy ≠ .idle
  /-- A schedule that ran out has had a report. -/
  spent : r.copy = .idle → r.handedOff = false → r.schedule.copies = 0 →
    r.lastError.isSome = true
  /-- A quorum heard after the handoff settles the send unless it is in the radio. -/
  quorum : r.quorumHeard = true → r.handedOff = true → r.copy = .transmitting

/-- The invariant of a life. -/
structure Ok (l : Life F W E) : Prop where
  unicast : ∀ r, l.unicast = some r →
    l.unrouted = none ∧ l.broadcast = none ∧ UnicastOk r l.tokens
  unrouted : ∀ r, l.unrouted = some r → l.broadcast = none ∧ l.tokens = []
  broadcast : ∀ r, l.broadcast = some r → BroadcastOk r l.tokens
  tokens : l.unicast = none → l.broadcast = none → l.tokens = []

theorem ok_absent : (absent : Life F W E).Ok :=
  ⟨by simp [absent], by simp [absent], by simp [absent], by simp [absent]⟩

theorem ok_unicast_iff {r : Unicasts.Record F W} {tokens : List (InFlight F)} :
    ({ unicast := some r, tokens := tokens } : Life F W E).Ok ↔ UnicastOk r tokens := by
  constructor
  · intro h
    exact (h.unicast r rfl).2.2
  · intro h
    exact ⟨by simpa using h, by simp, by simp, by simp⟩

theorem ok_unrouted {r : UnroutedUnicasts.Record F W} :
    ({ unrouted := some r } : Life F W E).Ok :=
  ⟨by simp, by simp, by simp, by simp⟩

theorem ok_broadcast_iff {r : Broadcasts.Record F W E} {tokens : List (InFlight F)} :
    ({ broadcast := some r, tokens := tokens } : Life F W E).Ok ↔ BroadcastOk r tokens := by
  constructor
  · intro h
    exact h.broadcast r rfl
  · intro h
    exact ⟨by simp, by simp, by simpa using h, by simp⟩

/-! ### Unicast records keep the invariant -/

theorem unicastOk_newRecord (unicast : Unicast F W) (now : Instant)
    (admittedDeadline : Option Instant) (copyOf : Option SendId) (tunables : Tunables) :
    UnicastOk (Unicasts.newRecord unicast now admittedDeadline copyOf tunables) [] := by
  unfold Unicasts.newRecord Unicasts.admission
  cases unicast.pollAddress <;> cases admittedDeadline <;>
    constructor <;> simp [Unicasts.Stage.isTransmitting]

theorem unicastOk_lend {r : Unicasts.Record F W} {token : InFlight F}
    (h : token.transmit ≠ .broadcast) : UnicastOk r.lend [token] := by
  constructor
  · exact fun _ => ⟨rfl, token, rfl, h⟩
  · simp [Unicasts.Record.lend, Unicasts.Stage.isTransmitting]
  · simp [Unicasts.Record.lend]

theorem unicastOk_polled {r : Unicasts.Record F W} (h : UnicastOk r [])
    (hstage : r.stage.isTransmitting = false) : UnicastOk r.polled [] := by
  constructor
  · simp [Unicasts.Record.polled, Unicasts.Stage.isTransmitting]
  · exact fun _ => ⟨(h.held hstage).1, rfl⟩
  · simp [Unicasts.Record.polled]

theorem unicastOk_acked {r : Unicasts.Record F W} {tokens : List (InFlight F)}
    (h : UnicastOk r tokens) (hstage : r.stage.isTransmitting = true) :
    UnicastOk { r with stage := .transmitting true } tokens := by
  constructor
  · exact fun _ => h.lent hstage
  · simp [Unicasts.Stage.isTransmitting]
  · simp

theorem unicastOk_requeue {r : Unicasts.Record F W} {tokens : List (InFlight F)}
    (h : UnicastOk r tokens) (now : Instant) : UnicastOk (r.requeue now) tokens := by
  unfold Unicasts.Record.requeue
  cases hs : r.stage with
  | retrying due =>
    dsimp only
    split
    · have hheld := h.held (by rw [hs]; rfl)
      exact ⟨by simp [Unicasts.Stage.isTransmitting], fun _ => hheld, by simp⟩
    · exact h
  | _ => exact h

/-- A record that survives its report waits for its ack, for the next poll, or for its
next attempt. -/
theorem unicast_report_eq_some {r r' : Unicasts.Record F W} {acked : Bool} {frame : F}
    {result : Except E Unit} {now : Instant} {retryDelay : Duration}
    (h : (r.report acked frame result now retryDelay).1 = some r') :
    (∃ ack wait, r.confirm = .apsAck ack wait ∧ result = .ok () ∧ r' = { r with
        frame := some frame
        stage := .awaitingApsAck
        deadline := Instant.add now wait }) ∨
    (r.pollAddress.isSome = true ∧ now < r.deadline ∧
      r' = { r with frame := some frame, stage := .awaitingPoll }) ∨
    (r.pollAddress = none ∧ r.attemptsRemaining ≠ 0 ∧ r' = { r with
        frame := some frame
        attemptsRemaining := r.attemptsRemaining - 1
        stage := .retrying (Instant.add now retryDelay) }) := by
  unfold Unicasts.Record.report at h
  cases result with
  | ok =>
    dsimp only [Unicasts.Record.accept] at h
    split at h
    · rename_i ack wait hconfirm
      cases h
      exact Or.inl ⟨ack, wait, hconfirm, rfl, rfl⟩
    · cases h
  | error err =>
    dsimp only at h
    split at h
    · rename_i hacked
      dsimp only [Unicasts.Record.accept] at h
      split at h
      · simp at hacked
      · cases h
    · unfold Unicasts.Record.reject at h
      cases hp : r.pollAddress with
      | some address =>
        simp only [hp] at h
        split at h
        · rename_i hdeadline
          cases h
          exact Or.inr (Or.inl ⟨rfl, hdeadline, rfl⟩)
        · cases h
      | none =>
        simp only [hp] at h
        split at h
        · cases h
        · rename_i hattempts
          cases h
          exact Or.inr (Or.inr ⟨rfl, hattempts, rfl⟩)

/-- A record that survives its report holds its frame again. -/
theorem unicastOk_report {r r' : Unicasts.Record F W} {acked : Bool} {frame : F}
    {result : Except E Unit} {now : Instant} {retryDelay : Duration}
    (h : (r.report acked frame result now retryDelay).1 = some r') : UnicastOk r' [] := by
  rcases unicast_report_eq_some h with ⟨ack, wait, -, -, rfl⟩ | ⟨-, -, rfl⟩ | ⟨hpoll, -, rfl⟩
  · exact ⟨by simp [Unicasts.Stage.isTransmitting], by simp, by simp⟩
  · exact ⟨by simp [Unicasts.Stage.isTransmitting], by simp, by simp⟩
  · exact ⟨by simp [Unicasts.Stage.isTransmitting], by simp, by simp [hpoll]⟩

/-! ### Broadcast records keep the invariant -/

theorem broadcastOk_newRecord (broadcast : Broadcast F W) (now : Instant) (tunables : Tunables)
    (h : 1 ≤ broadcast.schedule.copies) :
    BroadcastOk (Broadcasts.newRecord broadcast now tunables : Broadcasts.Record F W E) [] := by
  unfold Broadcasts.newRecord
  cases hs : broadcast.schedule with
  | once => constructor <;> simp
  | passiveAck key copies next =>
    rw [hs] at h
    simp only [Schedule.copies] at h
    constructor <;> simp [Schedule.copies]; omega
  | fixedInterval interval copies next =>
    rw [hs] at h
    simp only [Schedule.copies] at h
    constructor <;> simp [Schedule.copies]; omega

theorem broadcastOk_lend {r : Broadcasts.Record F W E} {token : InFlight F}
    (h : BroadcastOk r []) (htoken : token.transmit = .broadcast) :
    BroadcastOk r.lend [token] := by
  constructor
  · exact fun _ => ⟨rfl, token, rfl, htoken⟩
  · simp [Broadcasts.Record.lend]
  · intro hs
    exact ⟨(h.once hs).1, by simp [Broadcasts.Record.lend]⟩
  · simp [Broadcasts.Record.lend]
  · simp [Broadcasts.Record.lend]

theorem rearm_eq_once {schedule : Schedule} {now : Instant} {interval : Duration} :
    Broadcasts.rearm schedule now interval = .once ↔ schedule = .once := by
  cases schedule <;> simp [Broadcasts.rearm]

/-- A record that survives its report has a schedule of several copies. -/
theorem report_eq_some {r r' : Broadcasts.Record F W E} {frame : F}
    {result : Except E Unit} {now : Instant} {interval : Duration}
    (h : (r.report frame result now interval).1 = some r') :
    r.schedule ≠ .once ∧ r' = r.reported frame result now interval ∧
      (r'.quorumHeard && r'.handedOff) = false := by
  unfold Broadcasts.Record.report at h
  split at h
  · cases h
  · rename_i honce
    dsimp only at h
    split at h
    · cases h
    · rename_i hquorum
      have hr' : r' = r.reported frame result now interval := by
        split at h <;> cases h <;> rfl
      exact ⟨honce, hr', hr' ▸ by simpa using hquorum⟩

/-- A record that survives its report holds its frame again. -/
theorem broadcastOk_report {r r' : Broadcasts.Record F W E} {frame : F}
    {result : Except E Unit} {now : Instant} {interval : Duration}
    (h : (r.report frame result now interval).1 = some r') : BroadcastOk r' [] := by
  obtain ⟨honce, rfl, hquorum⟩ := report_eq_some h
  constructor
  · simp [Broadcasts.Record.reported]
  · simp [Broadcasts.Record.reported]
  · intro hs
    exact absurd (rearm_eq_once.mp hs) honce
  · intro _ hoff _
    cases result <;> simp_all [Broadcasts.Record.reported, Except.isOk, Except.toBool]
  · intro hq hoff
    simp [hq, hoff] at hquorum

theorem broadcastOk_quorumNoted {r : Broadcasts.Record F W E} {tokens : List (InFlight F)}
    (h : BroadcastOk r tokens) (hearly : r.copy = .transmitting ∨ r.handedOff = false) :
    BroadcastOk { r with quorumHeard := true } tokens := by
  refine ⟨h.lent, h.held, h.once, h.spent, ?_⟩
  intro _ hoff
  rcases hearly with hcopy | hnot
  · exact hcopy
  · simp [hnot] at hoff

/-- Advancing a schedule at most uses up one copy, and then queues it. -/
theorem broadcastOk_advance {r : Broadcasts.Record F W E} {now : Instant}
    (h : BroadcastOk r []) (hcopy : r.copy ≠ .transmitting) :
    BroadcastOk (r.advance now).1 [] := by
  have hheld := h.held hcopy
  cases hc : r.copy with
  | transmitting => exact absurd hc hcopy
  | queued => simpa [Broadcasts.Record.advance, hc] using h
  | idle =>
    have hquorum : r.quorumHeard = true → r.handedOff = false := by
      intro hq
      by_contra hoff
      have := h.quorum hq (by simpa using hoff)
      simp [hc] at this
    have hnotOnce : r.schedule ≠ .once := fun hs => (h.once hs).2 hc
    have hspent := h.spent hc
    cases hs : r.schedule with
    | once => exact absurd hs hnotOnce
    | passiveAck key copies next =>
      rw [hs] at hspent
      simp only [Broadcasts.Record.advance, hc, hs, Broadcasts.scheduleDue]
      split_ifs <;> constructor <;> simp_all [Schedule.copies]
    | fixedInterval interval copies next =>
      rw [hs] at hspent
      simp only [Broadcasts.Record.advance, hc, hs, Broadcasts.scheduleDue]
      split_ifs <;> constructor <;> simp_all [Schedule.copies]

/-- Every step of the machine keeps the invariant. -/
theorem Step.ok [FromSendFailure E] {id : SendId} {e : Event F W E} {l l' : Life F W E}
    {actions : Actions F W E} (h : Step id e l actions l') (hl : l.Ok) : l'.Ok := by
  cases h with
  | idle | tickIdle => exact hl
  | abandoned | ackSettle | dropUnicast | cancelUnicast | lapseUnicast | routeFailed
  | lapseUnrouted | failUnrouted | cancelUnrouted | quorumSettle | cancelBroadcast
  | lapseBroadcast => exact ok_absent
  | admitUnrouted | tickUnrouted => exact ok_unrouted
  | admitUnicast | routed => exact ok_unicast_iff.mpr (unicastOk_newRecord ..)
  | lendUnicast _ _ _ _ _ hunicast => exact ok_unicast_iff.mpr (unicastOk_lend hunicast)
  | @reportUnicast r acked token inFlight result now retryDelay _ =>
    cases hr : (r.report acked inFlight.frame result now retryDelay).1 with
    | none => exact ok_absent
    | some r' => exact ok_unicast_iff.mpr (unicastOk_report hr)
  | @pollUnicast r _ _ _ _ _ _ hpollable =>
    refine ok_unicast_iff.mpr (unicastOk_polled (ok_unicast_iff.mp hl) ?_)
    unfold Unicasts.Record.pollable at hpollable
    cases hs : r.stage <;> simp_all [Unicasts.Stage.isTransmitting]
  | ackTransmitting _ _ _ hstage =>
    exact ok_unicast_iff.mpr (unicastOk_acked (ok_unicast_iff.mp hl) hstage)
  | tickUnicast => exact ok_unicast_iff.mpr (unicastOk_requeue (ok_unicast_iff.mp hl) _)
  | admitBroadcast _ _ hcopies =>
    exact ok_broadcast_iff.mpr (broadcastOk_newRecord _ _ _ hcopies)
  | lendBroadcast _ _ _ _ _ hbroadcast =>
    exact ok_broadcast_iff.mpr (broadcastOk_lend (ok_broadcast_iff.mp hl) hbroadcast)
  | @reportBroadcast r token inFlight result now _ interval =>
    cases hr : (r.report inFlight.frame result now interval).1 with
    | none => exact ok_absent
    | some r' => exact ok_broadcast_iff.mpr (broadcastOk_report hr)
  | quorumNoted _ _ _ hearly =>
    exact ok_broadcast_iff.mpr (broadcastOk_quorumNoted (ok_broadcast_iff.mp hl) hearly)
  | tickBroadcast _ hcopy =>
    exact ok_broadcast_iff.mpr (broadcastOk_advance (ok_broadcast_iff.mp hl) hcopy)

/-- The invariant holds along every run of the machine. -/
theorem Run.ok [FromSendFailure E] {id : SendId} {es : List (Event F W E)}
    {batches : List (Actions F W E)} {l : Life F W E} (h : Run id es batches l) : l.Ok := by
  induction h with
  | start => exact ok_absent
  | step _ _ _ _ _ hstep ih => exact hstep.ok ih

end Life

end Ziggurat
