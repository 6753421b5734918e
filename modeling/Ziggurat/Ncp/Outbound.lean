import Mathlib.Data.List.GetD
import Mathlib.Logic.Function.Basic
import Ziggurat.Lib.Channel

/-!
# The frames that the firmware has for its host

The tasks of the firmware share one channel of 64 frames to the host.  `push_outbound` never
waits: on a full channel it takes the oldest frame out, and tries again.  `send_outbound` waits
for room, and its documentation promises that no frame is lost.

A step of `Outbound` is one operation on the channel, by a task or by the transport, so that the
steps of tasks come in any order.  The frames in the channel carry the task and the function that
queued them, and `completed` and `taken` are the history: the source keeps none of these.

`outbound_lossless_iff` says when the promise of `send_outbound` is kept.  Both functions share
the channel, so it is when no push comes to a channel whose oldest frame was sent.
-/

namespace Ziggurat.Ncp

open Lib

variable {F : Type}

def outboundDepth : Nat := 64

/-- The function that queued a frame. -/
inductive Via where
  | push
  | send
  deriving DecidableEq, Repr

/-- A frame in the channel. -/
structure Item (F : Type) where
  sender : Nat
  via : Via
  frame : F
  deriving DecidableEq, Repr

/-- Where a task is. -/
inductive Activity (F : Type) where
  | idle
  /-- In `push_outbound`, before `try_send`. -/
  | pushing (frame : F)
  /-- In `push_outbound`, with the frame that the full channel returned. -/
  | discarding (frame : F)
  /-- In `send_outbound`, perhaps suspended. -/
  | sending (frame : F)

/-- How a frame left the channel. -/
inductive Fate where
  | received
  | dropped
  deriving DecidableEq, Repr

structure Outbound (F : Type) where
  channel : Channel (Item F) outboundDepth
  tasks : Nat → Activity F
  /-- The frames whose `send_outbound` returned. -/
  completed : List (Item F)
  /-- The frames that left the channel. -/
  taken : List (Item F × Fate)

/-- One operation. -/
inductive Op (F : Type) where
  /-- A task calls `push_outbound`. -/
  | push (task : Nat) (frame : F)
  /-- `OUTBOUND.try_send` of a push. -/
  | trySend (task : Nat)
  /-- `OUTBOUND.try_receive` of a push whose frame was returned. -/
  | discard (task : Nat)
  /-- A task calls `send_outbound`. -/
  | send (task : Nat) (frame : F)
  /-- `OUTBOUND.send` finds room. -/
  | complete (task : Nat)
  /-- The transport takes a frame, if there is one. -/
  | receive

namespace Outbound

def init : Outbound F := ⟨.empty, fun _ => .idle, [], []⟩

def setTask (s : Outbound F) (task : Nat) (activity : Activity F) : Outbound F :=
  { s with tasks := Function.update s.tasks task activity }

/-- The oldest frame leaves the channel. -/
def take (s : Outbound F) (fate : Fate) : Outbound F :=
  match s.channel.tryReceive with
  | some (item, channel) => { s with channel, taken := s.taken ++ [(item, fate)] }
  | none => s

/-- What an operation does.  It is none where the task is not at that operation. -/
def step (s : Outbound F) : Op F → Option (Outbound F)
  | .push task frame =>
    match s.tasks task with
    | .idle => some (s.setTask task (.pushing frame))
    | _ => none
  | .trySend task =>
    match s.tasks task with
    | .pushing frame =>
      match s.channel.trySend ⟨task, .push, frame⟩ with
      | some channel => some { s.setTask task .idle with channel }
      | none => some (s.setTask task (.discarding frame))
    | _ => none
  | .discard task =>
    match s.tasks task with
    | .discarding frame => some ((s.take .dropped).setTask task (.pushing frame))
    | _ => none
  | .send task frame =>
    match s.tasks task with
    | .idle => some (s.setTask task (.sending frame))
    | _ => none
  | .complete task =>
    match s.tasks task with
    | .sending frame =>
      let item := ⟨task, .send, frame⟩
      (s.channel.trySend item).map fun channel =>
        { s.setTask task .idle with channel, completed := s.completed ++ [item] }
    | _ => none
  | .receive => some (s.take .received)

/-- The frames with a fate. -/
def withFate (s : Outbound F) (fate : Fate) : List (Item F) :=
  (s.taken.filter (·.2 = fate)).map Prod.fst

/-- The frames that came to the transport. -/
def received (s : Outbound F) : List (Item F) := s.withFate .received

/-- The frames that pushes took out. -/
def dropped (s : Outbound F) : List (Item F) := s.withFate .dropped

/-- The frames that were ever queued. -/
def queued (s : Outbound F) : List (Item F) := s.taken.map Prod.fst ++ s.channel.items

end Outbound

/-! ## What a step does to the channel -/

/-- The fate of the frame that an operation takes out. -/
def Op.takes : Op F → Option Fate
  | .receive => some .received
  | .discard _ => some .dropped
  | _ => none

theorem Op.eq_discard {op : Op F} (h : op.takes = some .dropped) : ∃ task, op = .discard task := by
  cases op with
  | discard task => exact ⟨task, rfl⟩
  | _ => cases h

/-- What a step does to the channel and to its history. -/
inductive Effect (s s' : Outbound F) : Op F → Prop where
  | none {op : Op F} (channel : s'.channel = s.channel) (completed : s'.completed = s.completed)
      (taken : s'.taken = s.taken) (empty : op.takes ≠ none → s.channel.items = []) :
      Effect s s' op
  | queue {op : Op F} (item : Item F) (channel : s'.channel.items = s.channel.items ++ [item])
      (completed : s'.completed = s.completed ++ [item].filter (·.via = .send))
      (taken : s'.taken = s.taken) (takes : op.takes = none) : Effect s s' op
  | take {op : Op F} (item : Item F) (fate : Fate)
      (channel : s.channel.items = item :: s'.channel.items)
      (completed : s'.completed = s.completed)
      (taken : s'.taken = s.taken ++ [(item, fate)])
      (takes : op.takes = some fate) : Effect s s' op

open Outbound

theorem take_effect (s : Outbound F) {fate : Fate} {op : Op F} (htakes : op.takes = some fate) :
    Effect s (s.take fate) op := by
  unfold take
  cases h : s.channel.tryReceive with
  | none => exact .none rfl rfl rfl fun _ => Channel.tryReceive_eq_none.mp h
  | some taken =>
    exact .take taken.1 fate (Channel.items_of_tryReceive h) rfl rfl htakes

theorem Effect.setTask {s s' : Outbound F} {op : Op F} (h : Effect s s' op) (task : Nat)
    (activity : Activity F) : Effect s (s'.setTask task activity) op := by
  cases h with
  | none channel completed taken empty => exact .none channel completed taken empty
  | queue item channel completed taken takes => exact .queue item channel completed taken takes
  | take item fate channel completed taken takes =>
    exact .take item fate channel completed taken takes

theorem step_effect {s s' : Outbound F} {op : Op F} (h : s.step op = some s') :
    Effect s s' op := by
  cases op with
  | push task frame =>
    cases hactivity : s.tasks task <;> simp only [step, hactivity] at h <;> cases h
    exact .none rfl rfl rfl fun h => absurd rfl h
  | trySend task =>
    cases hactivity : s.tasks task <;> simp only [step, hactivity] at h <;> try cases h
    split at h
    · rename_i hsend
      cases h
      refine .queue _ (Channel.items_of_trySend hsend) ?_ rfl rfl
      exact (List.append_nil _).symm
    · cases h
      exact .none rfl rfl rfl fun h => absurd rfl h
  | discard task =>
    cases hactivity : s.tasks task <;> simp only [step, hactivity] at h <;> cases h
    exact (take_effect s rfl).setTask task _
  | send task frame =>
    cases hactivity : s.tasks task <;> simp only [step, hactivity] at h <;> cases h
    exact .none rfl rfl rfl fun h => absurd rfl h
  | complete task =>
    cases hactivity : s.tasks task <;> simp only [step, hactivity] at h <;> try cases h
    obtain ⟨channel, hsend, rfl⟩ := Option.map_eq_some_iff.mp h
    exact .queue _ (Channel.items_of_trySend hsend) rfl rfl rfl
  | receive =>
    cases h
    exact take_effect s rfl

/-! ## Executions -/

/-- An endless run of the tasks and the transport. -/
structure Execution (F : Type) where
  state : ℕ → Outbound F
  op : ℕ → Op F
  start : state 0 = .init
  step : ∀ n, (state n).step (op n) = some (state (n + 1))

/-- A frame that a task sent. -/
def Item.sentBy (sender : Nat) (item : Item F) : Bool := item.via = .send ∧ item.sender = sender

namespace Execution

variable (x : Execution F)

/-- The transport keeps draining the channel. -/
def Drains : Prop := ∀ n, ∃ m ≥ n, x.op m = .receive

/-- What `send_outbound` promises. -/
structure Lossless : Prop where
  /-- Only frames given to `push_outbound` are dropped. -/
  dropped : ∀ n, ∀ item ∈ (x.state n).dropped, item.via = .push
  /-- The frames of a task are received in the order in which it queued them. -/
  inOrder : ∀ n sender, (x.state n).received.filter (Item.sentBy sender) <+:
    (x.state n).completed.filter (Item.sentBy sender)
  /-- The frames of a task are all received in the end. -/
  received : ∀ n sender, ∃ m ≥ n, (x.state n).completed.filter (Item.sentBy sender) <+:
    (x.state m).received.filter (Item.sentBy sender)

/-- A push that makes room finds a pushed frame at the head of the channel. -/
def DiscardsPushed : Prop :=
  ∀ n task, x.op n = .discard task →
    ∀ item, (x.state n).channel.items.head? = some item → item.via = .push

/-! ## The history of an execution -/

variable {x}

theorem effect (n : ℕ) : Effect (x.state n) (x.state (n + 1)) (x.op n) := step_effect (x.step n)

theorem queued_prefix (n : ℕ) : (x.state n).queued <+: (x.state (n + 1)).queued := by
  unfold queued
  cases x.effect n with
  | none channel _ taken _ => rw [channel, taken]
  | queue item channel _ taken _ =>
    rw [channel, taken, ← List.append_assoc]
    exact List.prefix_append ..
  | take item fate channel _ taken _ => rw [channel, taken, List.map_append, List.append_assoc]; rfl

theorem taken_prefix (n : ℕ) :
    (x.state n).taken.map Prod.fst <+: (x.state (n + 1)).taken.map Prod.fst := by
  cases x.effect n with
  | none _ _ taken _ | queue _ _ _ taken _ => rw [taken]
  | take item fate _ _ taken _ =>
    rw [taken, List.map_append]
    exact List.prefix_append ..

/-- The sends that completed are the sent frames among all that were queued. -/
theorem completed_eq (n : ℕ) :
    (x.state n).completed = (x.state n).queued.filter (·.via = .send) := by
  induction n with
  | zero => rw [x.start]; rfl
  | succ n ih =>
    unfold queued at ih ⊢
    cases x.effect n with
    | none channel completed taken _ => rw [channel, completed, taken, ih]
    | queue item channel completed taken _ =>
      rw [channel, completed, taken, ih, ← List.append_assoc, ← List.filter_append]
    | take item fate channel completed taken _ =>
      rw [completed, ih, channel, taken, List.map_append, List.append_assoc]
      rfl

/-- A receive that finds a frame takes it. -/
theorem drained_or_grows (hdrains : x.Drains) (n : ℕ) :
    ∃ m ≥ n, (x.state m).channel.items = [] ∨
      ((x.state m).taken.map Prod.fst).length < ((x.state (m + 1)).taken.map Prod.fst).length := by
  obtain ⟨m, hm, hreceive⟩ := hdrains n
  refine ⟨m, hm, ?_⟩
  cases x.effect m with
  | none _ _ _ empty => exact .inl (empty (by rw [hreceive]; exact nofun))
  | queue _ _ _ _ takes =>
    rw [hreceive] at takes
    cases takes
  | take _ _ _ _ taken _ => exact .inr (by rw [taken]; simp)

/-- Every frame that is queued leaves the channel, whichever way. -/
theorem queued_taken (hdrains : x.Drains) (n : ℕ) :
    ∃ m ≥ n, (x.state n).queued <+: (x.state m).taken.map Prod.fst :=
  drained (fun _ => rfl) queued_prefix taken_prefix (drained_or_grows hdrains) n

/-! ## When no sent frame is dropped -/

theorem mem_dropped {s : Outbound F} {item : Item F} :
    item ∈ s.dropped ↔ (item, Fate.dropped) ∈ s.taken := by
  simp [Outbound.dropped, withFate]

theorem dropped_pushed (h : x.DiscardsPushed) (n : ℕ) :
    ∀ item ∈ (x.state n).dropped, item.via = .push := by
  induction n with
  | zero => rw [x.start]; exact fun _ h => absurd h List.not_mem_nil
  | succ n ih =>
    intro item hitem
    rw [mem_dropped] at hitem
    cases x.effect n with
    | none _ _ taken _ | queue _ _ _ taken _ => exact ih item (mem_dropped.mpr (taken ▸ hitem))
    | take head fate channel _ taken takes =>
      rw [taken, List.mem_append, List.mem_singleton] at hitem
      rcases hitem with hitem | hitem
      · exact ih item (mem_dropped.mpr hitem)
      · cases hitem
        obtain ⟨task, hop⟩ := Op.eq_discard takes
        exact h n task hop item (by rw [channel]; rfl)

/-- If only pushed frames were dropped, the sent frames that left the channel were received. -/
theorem received_filter {s : Outbound F} (h : ∀ item ∈ s.dropped, item.via = .push)
    (sender : Nat) :
    s.received.filter (Item.sentBy sender) =
      (s.taken.map Prod.fst).filter (Item.sentBy sender) := by
  have hfate : ∀ entry ∈ s.taken, Item.sentBy sender entry.1 = true → entry.2 = .received := by
    intro entry hentry hsent
    cases hdropped : entry.2 with
    | received => rfl
    | dropped =>
      have hpush := h entry.1 (mem_dropped.mpr (hdropped ▸ hentry))
      simp [Item.sentBy, hpush] at hsent
  unfold Outbound.received withFate
  rw [List.filter_map, List.filter_map, List.filter_filter]
  refine congrArg _ (List.filter_congr fun entry hentry => ?_)
  by_cases hsent : Item.sentBy sender entry.1 = true
  · simp [hsent, hfate entry hentry hsent]
  · simp [hsent]

theorem completed_filter (n sender : ℕ) :
    (x.state n).completed.filter (Item.sentBy sender) =
      (x.state n).queued.filter (Item.sentBy sender) := by
  rw [completed_eq, List.filter_filter]
  refine List.filter_congr fun item _ => ?_
  simp only [Item.sentBy, Bool.decide_and, Bool.and_assoc]
  cases item.via <;> simp

theorem lossless (hdrains : x.Drains) (h : x.DiscardsPushed) : x.Lossless where
  dropped := dropped_pushed h
  inOrder n sender := by
    rw [received_filter (dropped_pushed h n), completed_filter]
    exact List.IsPrefix.filter _ (List.prefix_append ..)
  received n sender := by
    obtain ⟨m, hm, hprefix⟩ := queued_taken hdrains n
    refine ⟨m, hm, ?_⟩
    rw [received_filter (dropped_pushed h m), completed_filter]
    exact hprefix.filter _

theorem discardsPushed (h : x.Lossless) : x.DiscardsPushed := by
  intro n task hop item hhead
  have heffect := x.effect n
  rw [hop] at heffect
  cases heffect with
  | none _ _ _ empty => rw [empty nofun] at hhead; cases hhead
  | queue _ _ _ _ takes => cases takes
  | take head fate channel _ taken takes =>
    cases takes
    rw [channel] at hhead
    cases hhead
    exact h.dropped (n + 1) item (mem_dropped.mpr (by rw [taken]; simp))

end Execution

/-- The promise of `send_outbound` is kept along a run just when no push finds a sent frame at
the head of the channel that it makes room in. -/
theorem outbound_lossless_iff (x : Execution F) (hdrains : x.Drains) :
    x.Lossless ↔ x.DiscardsPushed :=
  ⟨Execution.discardsPushed, Execution.lossless hdrains⟩

namespace Example

variable (ops : List (Op F))

/-- The operations of a list, and then receives only. -/
def opAt (n : ℕ) : Op F := ops.getD n .receive

def stateAt : ℕ → Outbound F
  | 0 => .init
  | n + 1 => ((stateAt n).step (opAt ops n)).getD (stateAt n)

/-- An execution that begins with a list of operations, and that the transport drains then. -/
def thenDrain (h : ∀ n < ops.length, ((stateAt ops n).step (opAt ops n)).isSome) :
    Execution F where
  state := stateAt ops
  op := opAt ops
  start := rfl
  step n := by
    have hsome : ((stateAt ops n).step (opAt ops n)).isSome := by
      by_cases hn : n < ops.length
      · exact h n hn
      · rw [opAt, List.getD_eq_default _ _ (not_lt.mp hn)]
        rfl
    obtain ⟨s', hs'⟩ := Option.isSome_iff_exists.mp hsome
    rw [stateAt, hs']
    rfl

theorem thenDrain_drains (h : ∀ n < ops.length, ((stateAt ops n).step (opAt ops n)).isSome) :
    (thenDrain ops h).Drains := by
  intro n
  exact ⟨max n ops.length, le_max_left .., List.getD_eq_default _ _ (le_max_right ..)⟩

theorem thenDrain_discardsPushed
    (h : ∀ n < ops.length, ((stateAt ops n).step (opAt ops n)).isSome)
    (hpushed : ∀ n < ops.length, (opAt ops n).takes = some .dropped →
      (stateAt ops n).channel.items.head?.all (·.via = .push)) :
    (thenDrain ops h).DiscardsPushed := by
  intro n task hop item hhead
  change opAt ops n = .discard task at hop
  have hn : n < ops.length := by
    by_contra hn
    rw [opAt, List.getD_eq_default _ _ (not_lt.mp hn)] at hop
    cases hop
  have hall := hpushed n hn (by rw [hop]; rfl)
  change (stateAt ops n).channel.items.head? = some item at hhead
  rw [hhead] at hall
  exact of_decide_eq_true hall

theorem thenDrain_not_lossless
    (h : ∀ n < ops.length, ((stateAt ops n).step (opAt ops n)).isSome) {n : ℕ} {item : Item F}
    (hdropped : item ∈ (stateAt ops n).dropped) (hvia : item.via = .send) :
    ¬ (thenDrain ops h).Lossless := by
  intro hlossless
  have hpush : item.via = .push := hlossless.dropped n item hdropped
  exact absurd (hvia.symm.trans hpush) nofun

/-- The task 0 streams the entries of a table. -/
def scan (entries : Nat) : List (Op Nat) :=
  (List.range entries).flatMap fun i => [.send 0 i, .complete 0]

/-- The task 1 queues notifications while there is room. -/
def notifications (count : Nat) : List (Op Nat) :=
  (List.range count).flatMap fun i => [.push 1 i, .trySend 1]

/-- The task 1 has one more notification, and no room. -/
def oneMore : List (Op Nat) := [.push 1 64, .trySend 1, .discard 1]

/-- The notifications fill the channel, and the next one replaces the oldest.  The transport
then makes room for a scan. -/
def replaced : List (Op Nat) := notifications 64 ++ oneMore ++ [.trySend 1, .receive] ++ scan 1

end Example

open Example in
/-- A notification that replaces another one leaves a scan alone. -/
theorem outbound_lossless_iff_replaced :
    ∃ h, (thenDrain replaced h).Drains ∧ (thenDrain replaced h).Lossless := by
  have h : ∀ n < replaced.length, ((stateAt replaced n).step (opAt replaced n)).isSome := by
    decide +kernel
  have hdrains := thenDrain_drains replaced h
  refine ⟨h, hdrains, (outbound_lossless_iff _ hdrains).mpr ?_⟩
  exact thenDrain_discardsPushed replaced h (by decide +kernel)

open Example in
/-- After a scan of 64 entries that the transport did not take yet, a notification drops the
first of them. -/
theorem outbound_send_dropped :
    ∃ h, (thenDrain (scan 64 ++ oneMore) h).Drains ∧
      ¬ (thenDrain (scan 64 ++ oneMore) h).Lossless ∧
      ⟨0, .send, 0⟩ ∈ (stateAt (scan 64 ++ oneMore) 131).dropped := by
  have h : ∀ n < (scan 64 ++ oneMore).length,
      ((stateAt (scan 64 ++ oneMore) n).step (opAt (scan 64 ++ oneMore) n)).isSome := by
    decide +kernel
  have hdropped : ⟨0, .send, 0⟩ ∈ (stateAt (scan 64 ++ oneMore) 131).dropped := by
    decide +kernel
  exact ⟨h, thenDrain_drains _ h, thenDrain_not_lossless _ h hdropped rfl, hdropped⟩

end Ziggurat.Ncp
