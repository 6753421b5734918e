import Ziggurat.Spinel.Client

/-!
# Responses and requests

A response is matched to a request by its transaction identifier, of which there are seven.  An
identifier is free for another request as soon as its entry leaves the table.  But the radio may
still answer the earlier request, and its call may still cancel what it takes for its own entry:
such a request still *claims* its identifier.

`Step` says what one step can do.  Every step but `start` only takes entries and claims away
(`Shrinks`).  So all that matters is that a new request gets an identifier that no earlier request
claims, `Unclaimed`: then every response goes to its own request and a call cancels only its own
entry, in every run.  And a request that gets a claimed identifier can go wrong in a few steps.
-/

namespace Ziggurat.SpinelClient

variable {client client' : SpinelClient} {id : Nat} {call call' : Call}

/-- What a table has after an update is the new value, or was there before. -/
theorem of_update_eq_some {ι α : Type} [DecidableEq ι] {f : ι → Option α} {i j : ι}
    {o : Option α} {a : α} (h : Function.update f i o j = some a) :
    j = i ∧ o = some a ∨ j ≠ i ∧ f j = some a := by
  by_cases hj : j = i
  · rw [hj, Function.update_self] at h
    exact .inl ⟨hj, h⟩
  · rw [Function.update_of_ne hj] at h
    exact .inr ⟨hj, h⟩

/-! ## Steps -/

/-- What a step can do. -/
inductive Step (client : SpinelClient) : Event → SpinelClient → Prop
  | start {commandId : SpinelCommandId} {payload : Bytes} {frame : SpinelFrame}
      {protocol : SpinelProtocol}
      (hprepare : client.protocol.prepareRequest client.nextCall commandId payload =
        .ok (frame, protocol)) :
    Step client (.start commandId payload)
      { client.setCall client.nextCall ⟨frame, .sending, none⟩ with
        protocol, nextCall := client.nextCall + 1 }
  | transmit {id : Nat} {call : Call} (hcall : client.calls id = some call)
      (hstage : call.stage = .sending) :
    Step client (.transmit id)
      { client.setCall id { call with stage := .sent } with
        unanswered := Function.update client.unanswered id true }
  | written {id : Nat} {call : Call} (hcall : client.calls id = some call)
      (hstage : call.stage = .sent) :
    Step client (.written id) (client.setCall id { call with stage := .waiting })
  | writeFailed {id : Nat} {call : Call} (hcall : client.calls id = some call)
      (hstage : call.stage = .sending ∨ call.stage = .sent) :
    Step client (.writeFailed id) (client.setCall id { call with stage := .failed .ioError })
  | matched {id channel : Nat} {call target : Call} {frame : SpinelFrame}
      (hcall : client.calls id = some call) (hunanswered : client.unanswered id = true)
      (hpending : client.protocol.pendingFrames call.tid = some channel)
      (htarget : client.calls channel = some target) :
    Step client (.respond id frame)
      { client.setCall channel { target with response := some (id, frame) } with
        protocol := client.protocol.cancelRequest call.tid
        unanswered := Function.update client.unanswered id false }
  | unmatched {id : Nat} {call : Call} {frame : SpinelFrame}
      (hcall : client.calls id = some call) (hunanswered : client.unanswered id = true)
      (hpending : client.protocol.pendingFrames call.tid = none) :
    Step client (.respond id frame)
      { client with
        protocol := client.protocol.cancelRequest call.tid
        unanswered := Function.update client.unanswered id false }
  | ignored {frame : SpinelFrame} : Step client (.unsolicited frame) client
  | reset {frame : SpinelFrame} :
    Step client (.unsolicited frame)
      { client with protocol := client.protocol.failAllPendingRequests }
  | returned {id request : Nat} {call : Call} {frame : SpinelFrame}
      (hcall : client.calls id = some call) (hstage : call.stage = .waiting)
      (hresponse : call.response = some (request, frame)) :
    Step client (.poll id)
      { client.setCall id { call with stage := .returned request frame } with
        consecutiveTimeouts := 0 }
  | closed {id : Nat} {call : Call} (hcall : client.calls id = some call)
      (hstage : call.stage = .waiting) (hresponse : call.response = none)
      (halive : ¬client.Alive id call) :
    Step client (.poll id) (client.setCall id { call with stage := .cancelling .reset })
  | timeout {id : Nat} {call : Call} (hcall : client.calls id = some call)
      (hstage : call.stage = .waiting) (hresponse : call.response = none)
      (halive : client.Alive id call) :
    Step client (.timeout id) (client.setCall id { call with stage := .cancelling .timeout })
  | cancel {id : Nat} {call : Call} {cause : Cancellation} {stage : Stage}
      (hcall : client.calls id = some call) (hstage : call.stage = .cancelling cause)
      (hnext : stage = .failed .cancelledByReset ∨ stage = .counting) :
    Step client (.cancel id)
      { client.setCall id { call with stage } with
        protocol := client.protocol.cancelRequest call.tid }
  | count {id : Nat} {call : Call} {stage : Stage} {timeouts : UInt32}
      (hcall : client.calls id = some call) (hstage : call.stage = .counting)
      (hnext : stage = .recovering ∨ stage = .failed .timeout) :
    Step client (.count id)
      { client.setCall id { call with stage } with consecutiveTimeouts := timeouts }
  | recover {id : Nat} {call : Call} (hcall : client.calls id = some call)
      (hstage : call.stage = .recovering) :
    Step client (.recover id)
      { client.setCall id { call with stage := .failed .timeout } with
        protocol := client.protocol.failAllPendingRequests }

/-- What holds in every run. -/
structure Consistent (client : SpinelClient) : Prop where
  nextTid : client.protocol.nextTid ≠ 0
  fresh : ∀ id, client.nextCall ≤ id → client.calls id = none
  tid_ne : ∀ id call, client.calls id = some call → call.tid ≠ 0
  pending : ∀ tid id, client.protocol.pendingFrames tid = some id →
    ∃ call, client.calls id = some call ∧ call.tid = tid

theorem Consistent.ne_nextCall (hclient : client.Consistent) (hcall : client.calls id = some call) :
    id ≠ client.nextCall := by
  rintro rfl
  rw [hclient.fresh _ (le_refl _)] at hcall
  cases hcall

/-- A response goes to the call that its identifier is registered for. -/
theorem Consistent.step_respond (hclient : client.Consistent) {frame : SpinelFrame}
    (h : client.step (.respond id frame) = some client') :
    client.Step (.respond id frame) client' := by
  simp only [step, Option.bind_eq_bind, Option.bind_eq_some_iff, Option.guard_eq_some',
    Option.pure_def, Option.some.injEq, exists_const] at h
  obtain ⟨call, hcall, ⟨hunanswered, htid⟩, rfl⟩ := h
  have hne : frame.header.transactionId ≠ 0 := htid ▸ hclient.tid_ne id call hcall
  rw [SpinelProtocol.handleInboundFrame_of_ne hne, htid]
  cases hpending : client.protocol.pendingFrames call.tid with
  | none => exact .unmatched hcall hunanswered hpending
  | some channel =>
    obtain ⟨target, htarget, -⟩ := hclient.pending _ _ hpending
    let routed : SpinelClient := { client with
      protocol := client.protocol.cancelRequest call.tid
      unanswered := Function.update client.unanswered id false }
    have hdeliver : routed.deliver id [.response channel frame] =
        routed.setCall channel { target with response := some (id, frame) } := by
      rw [deliver, htarget]
      rfl
    change Step client _ (routed.deliver id [.response channel frame])
    rw [hdeliver]
    exact .matched hcall hunanswered hpending htarget

theorem step_unsolicited {frame : SpinelFrame}
    (h : client.step (.unsolicited frame) = some client') :
    client.Step (.unsolicited frame) client' := by
  simp only [step, Option.bind_eq_bind, Option.bind_eq_some_iff, Option.guard_eq_some',
    Option.pure_def, Option.some.injEq, exists_const] at h
  obtain ⟨htid, rfl⟩ := h
  generalize hresult : client.protocol.handleInboundFrame frame.header frame.commandId
    frame.payload = result
  obtain _ | _ | _ := hresult ▸ SpinelProtocol.unsolicited_handleInboundFrame htid
    frame.commandId frame.payload
  · exact .ignored
  · exact .ignored
  · exact .reset

theorem step_poll (h : client.step (.poll id) = some client') : client.Step (.poll id) client' := by
  simp only [step, Option.bind_eq_bind, Option.bind_eq_some_iff, Option.guard_eq_some',
    exists_const] at h
  obtain ⟨call, hcall, hstage, h⟩ := h
  split at h
  next request frame hresponse =>
    cases h
    exact .returned hcall hstage hresponse
  next hresponse =>
    simp only [Option.bind_eq_some_iff, Option.guard_eq_some', Option.pure_def,
      Option.some.injEq, exists_const] at h
    obtain ⟨halive, rfl⟩ := h
    exact .closed hcall hstage hresponse halive

theorem Consistent.step_cases (hclient : client.Consistent) {event : Event}
    (h : client.step event = some client') : client.Step event client' := by
  cases event with
  | start commandId payload =>
    rw [step] at h
    split at h
    next hprepare =>
      cases h
      exact .start hprepare
    next => cases h
  | transmit id =>
    simp only [step, Option.bind_eq_bind, Option.bind_eq_some_iff, Option.guard_eq_some',
      Option.pure_def, Option.some.injEq, exists_const] at h
    obtain ⟨call, hcall, hstage, rfl⟩ := h
    exact .transmit hcall hstage
  | written id =>
    simp only [step, Option.bind_eq_bind, Option.bind_eq_some_iff, Option.guard_eq_some',
      Option.pure_def, Option.some.injEq, exists_const] at h
    obtain ⟨call, hcall, hstage, rfl⟩ := h
    exact .written hcall hstage
  | writeFailed id =>
    simp only [step, Option.bind_eq_bind, Option.bind_eq_some_iff, Option.guard_eq_some',
      Option.pure_def, Option.some.injEq, exists_const] at h
    obtain ⟨call, hcall, hstage, rfl⟩ := h
    exact .writeFailed hcall hstage
  | respond id frame => exact hclient.step_respond h
  | unsolicited frame => exact step_unsolicited h
  | poll id => exact step_poll h
  | timeout id =>
    simp only [step, Option.bind_eq_bind, Option.bind_eq_some_iff, Option.guard_eq_some',
      Option.pure_def, Option.some.injEq, exists_const] at h
    obtain ⟨call, hcall, ⟨hstage, hresponse, halive⟩, rfl⟩ := h
    exact .timeout hcall hstage hresponse halive
  | cancel id =>
    simp only [step, Option.bind_eq_bind, Option.bind_eq_some_iff] at h
    obtain ⟨call, hcall, h⟩ := h
    split at h
    next hstage =>
      cases h
      exact .cancel hcall hstage (.inl rfl)
    next hstage =>
      cases h
      exact .cancel hcall hstage (.inr rfl)
    next => cases h
  | count id =>
    simp only [step, Option.bind_eq_bind, Option.bind_eq_some_iff, Option.guard_eq_some',
      exists_const] at h
    obtain ⟨call, hcall, hstage, h⟩ := h
    split_ifs at h
    · cases h
      exact .count hcall hstage (.inl rfl)
    · cases h
      exact .count hcall hstage (.inr rfl)
  | recover id =>
    simp only [step, Option.bind_eq_bind, Option.bind_eq_some_iff, Option.guard_eq_some',
      Option.pure_def, Option.some.injEq, exists_const] at h
    obtain ⟨call, hcall, hstage, rfl⟩ := h
    exact .recover hcall hstage

/-! ## The next identifier -/

/-- The order in which identifiers are tried. -/
def tidAfter (tid : UInt8) : Nat → UInt8
  | 0 => tid
  | n + 1 => tidAfter (1 + tid % 7) n

/-- The first identifier from `next_tid` on that has no entry in the table. -/
def FirstFree (protocol : SpinelProtocol) (tid : UInt8) : Prop :=
  ∃ n, tid = tidAfter protocol.nextTid n ∧ protocol.pendingFrames tid = none ∧
    ∀ m < n, (protocol.pendingFrames (tidAfter protocol.nextTid m)).isSome = true

theorem FirstFree.unique {protocol : SpinelProtocol} {tid tid' : UInt8}
    (h : FirstFree protocol tid) (h' : FirstFree protocol tid') : tid = tid' := by
  obtain ⟨n, rfl, hfree, hbefore⟩ := h
  obtain ⟨n', rfl, hfree', hbefore'⟩ := h'
  obtain hlt | rfl | hgt := Nat.lt_trichotomy n n'
  · have hsome := hbefore' n hlt
    rw [hfree] at hsome
    cases hsome
  · rfl
  · have hsome := hbefore n' hgt
    rw [hfree'] at hsome
    cases hsome

theorem tid_ne_zero (tid : UInt8) : 1 + tid % 7 ≠ 0 := by
  intro h
  have hnat := congrArg UInt8.toNat h
  rw [UInt8.toNat_add, UInt8.toNat_mod] at hnat
  have hlt : tid.toNat % 7 < 7 := Nat.mod_lt _ (by decide)
  change (1 + tid.toNat % 7) % 256 = 0 at hnat
  omega

theorem tidAfter_ne_zero {tid : UInt8} (h : tid ≠ 0) (n : Nat) : tidAfter tid n ≠ 0 := by
  induction n generalizing tid with
  | zero => exact h
  | succ n ih => exact ih (tid_ne_zero tid)

theorem freeTid_spec {pendingFrames : UInt8 → Option Nat} {nextTid tid free : UInt8} {fuel : Nat}
    (h : SpinelProtocol.freeTid pendingFrames nextTid fuel tid = .ok free) :
    ∃ n, free = tidAfter tid n ∧ pendingFrames free = none ∧
      ∀ m < n, (pendingFrames (tidAfter tid m)).isSome = true := by
  induction fuel generalizing tid with
  | zero => cases h
  | succ fuel ih =>
    rw [SpinelProtocol.freeTid] at h
    split_ifs at h with hpending
    · obtain ⟨_, -, h⟩ := Checked.bind_eq_ok.mp h
      obtain ⟨n, hfree, hnone, hbefore⟩ := ih h
      refine ⟨n + 1, hfree, hnone, fun m hm => ?_⟩
      cases m with
      | zero => exact hpending
      | succ m => exact hbefore m (Nat.lt_of_succ_lt_succ hm)
    · cases h
      exact ⟨0, rfl, Option.not_isSome_iff_eq_none.mp hpending, fun _ hm => (by cases hm)⟩

/-- A request gets the first free identifier, and an entry for it. -/
theorem prepareRequest_spec {protocol protocol' : SpinelProtocol} {channel : Nat}
    {commandId : SpinelCommandId} {payload : Bytes} {frame : SpinelFrame}
    (h : protocol.prepareRequest channel commandId payload = .ok (frame, protocol')) :
    FirstFree protocol frame.header.transactionId ∧
      protocol'.nextTid = 1 + frame.header.transactionId % 7 ∧
      protocol'.pendingFrames =
        Function.update protocol.pendingFrames frame.header.transactionId (some channel) := by
  obtain ⟨tid, htid, h⟩ := Checked.bind_eq_ok.mp h
  cases h
  exact ⟨freeTid_spec htid, rfl, rfl⟩

/-! ## Claims -/

/-- The identifier of a request is still in use: the radio may still answer it, or its call may
still cancel it. -/
def Claims (client : SpinelClient) (id : Nat) (call : Call) : Prop :=
  client.unanswered id = true ∨ call.stage = .sending ∨
    ((call.stage = .sent ∨ call.stage = .waiting) ∧ call.response = none) ∨
    ∃ cause, call.stage = .cancelling cause

/-- The call is behind the await of its response. -/
def Stage.past : Stage → Bool
  | .sending | .sent | .waiting => false
  | _ => true

/-- Nothing keeps the call from going on. -/
def Settled (client : SpinelClient) (id : Nat) (call : Call) : Prop :=
  call.response.isSome = true ∨ ¬client.Alive id call ∨ call.stage.past = true

/-- Entries and claims only go away, and a call that is settled stays so. -/
structure Shrinks (client client' : SpinelClient) : Prop where
  nextTid : client'.protocol.nextTid = client.protocol.nextTid
  nextCall : client'.nextCall = client.nextCall
  pending : ∀ tid id, client'.protocol.pendingFrames tid = some id →
    client.protocol.pendingFrames tid = some id
  calls : ∀ id, (client.calls id = none ∧ client'.calls id = none) ∨
    ∃ call call', client.calls id = some call ∧ client'.calls id = some call' ∧
      call'.tid = call.tid ∧ (client'.Claims id call' → client.Claims id call) ∧
      (client.Settled id call → client'.Settled id call')

/-- A call that does not change keeps its claim and stays settled. -/
theorem Shrinks.kept (hcall : client'.calls id = client.calls id)
    (hpending : ∀ tid id, client'.protocol.pendingFrames tid = some id →
      client.protocol.pendingFrames tid = some id)
    (hunanswered : client'.unanswered id = true → client.unanswered id = true) :
    (client.calls id = none ∧ client'.calls id = none) ∨
      ∃ call call', client.calls id = some call ∧ client'.calls id = some call' ∧
        call'.tid = call.tid ∧ (client'.Claims id call' → client.Claims id call) ∧
        (client.Settled id call → client'.Settled id call') := by
  rw [hcall]
  cases client.calls id with
  | none => exact .inl ⟨rfl, rfl⟩
  | some call =>
    refine .inr ⟨call, call, rfl, rfl, rfl, ?_, ?_⟩
    · exact Or.imp_left hunanswered
    · exact Or.imp_right (Or.imp_left fun halive h => halive (hpending _ _ h))

/-- No call changes. -/
theorem Shrinks.of_calls_eq (hcalls : client'.calls = client.calls)
    (hnextTid : client'.protocol.nextTid = client.protocol.nextTid)
    (hnextCall : client'.nextCall = client.nextCall)
    (hpending : ∀ tid id, client'.protocol.pendingFrames tid = some id →
      client.protocol.pendingFrames tid = some id)
    (hunanswered : ∀ id, client'.unanswered id = true → client.unanswered id = true) :
    Shrinks client client' where
  nextTid := hnextTid
  nextCall := hnextCall
  pending := hpending
  calls id := Shrinks.kept (congrFun hcalls id) hpending (hunanswered id)

/-- One call changes. -/
theorem Shrinks.of_setCall (hcall : client.calls id = some call)
    (hcalls : client'.calls = Function.update client.calls id (some call'))
    (hnextTid : client'.protocol.nextTid = client.protocol.nextTid)
    (hnextCall : client'.nextCall = client.nextCall)
    (hpending : ∀ tid id, client'.protocol.pendingFrames tid = some id →
      client.protocol.pendingFrames tid = some id)
    (hunanswered : ∀ other ≠ id, client'.unanswered other = true → client.unanswered other = true)
    (htid : call'.tid = call.tid) (hclaims : client'.Claims id call' → client.Claims id call)
    (hsettled : client.Settled id call → client'.Settled id call') :
    Shrinks client client' where
  nextTid := hnextTid
  nextCall := hnextCall
  pending := hpending
  calls other := by
    by_cases hother : other = id
    · subst hother
      exact .inr ⟨call, call', hcall, by rw [hcalls, Function.update_self], htid, hclaims, hsettled⟩
    · have hsame : client'.calls other = client.calls other := by
        rw [hcalls, Function.update_of_ne hother]
      exact Shrinks.kept hsame hpending (hunanswered other hother)

theorem unanswered_of_update {unanswered : Nat → Bool} {id other : Nat}
    (h : Function.update unanswered id false other = true) : unanswered other = true := by
  by_cases hother : other = id
  · rw [hother, Function.update_self] at h
    cases h
  · rwa [Function.update_of_ne hother] at h

/-- A call that is through, and does not cancel, has a claim only if the radio has its request. -/
theorem Claims.unanswered (h : client.Claims id call) (hpast : call.stage.past = true)
    (hcancel : ∀ cause, call.stage ≠ .cancelling cause) : client.unanswered id = true := by
  obtain h | h | ⟨h | h, -⟩ | ⟨cause, h⟩ := h
  · exact h
  · rw [h] at hpast
    cases hpast
  · rw [h] at hpast
    cases hpast
  · rw [h] at hpast
    cases hpast
  · exact absurd h (hcancel cause)

theorem pending_cancelRequest {protocol : SpinelProtocol} {tid tid' : UInt8} {id : Nat}
    (h : (protocol.cancelRequest tid').pendingFrames tid = some id) :
    protocol.pendingFrames tid = some id := by
  obtain ⟨-, ⟨⟩⟩ | ⟨-, h⟩ := of_update_eq_some h
  exact h

/-- Every step but the start of a call only takes away. -/
theorem Step.shrinks {event : Event} (h : client.Step event client')
    (hstart : event.isStart = false) : Shrinks client client' := by
  cases h with
  | start => cases hstart
  | @transmit id call hcall hstage =>
    refine .of_setCall hcall rfl rfl rfl (fun _ _ h => h) ?_ rfl ?_ ?_
    · intro other hother h
      change Function.update client.unanswered id true other = true at h
      rwa [Function.update_of_ne hother] at h
    · exact fun _ => .inr (.inl hstage)
    · exact Or.imp_right (Or.imp_right fun hpast => (by rw [hstage] at hpast; cases hpast))
  | written hcall hstage =>
    refine .of_setCall hcall rfl rfl rfl (fun _ _ h => h) (fun _ _ h => h) rfl ?_ ?_
    · rintro (h | h | ⟨-, h⟩ | ⟨cause, h⟩)
      · exact .inl h
      · cases h
      · exact .inr (.inr (.inl ⟨.inl hstage, h⟩))
      · cases h
    · exact Or.imp_right (Or.imp_right fun hpast => (by rw [hstage] at hpast; cases hpast))
  | writeFailed hcall hstage =>
    refine .of_setCall hcall rfl rfl rfl (fun _ _ h => h) (fun _ _ h => h) rfl ?_ ?_
    · exact fun h => .inl (h.unanswered rfl nofun)
    · exact fun _ => .inr (.inr rfl)
  | matched hcall hunanswered hpending htarget =>
    refine .of_setCall htarget rfl rfl rfl (fun _ _ => pending_cancelRequest)
      (fun _ _ => unanswered_of_update) rfl ?_ ?_
    · rintro (h | h | ⟨-, h⟩ | h)
      · exact .inl (unanswered_of_update h)
      · exact .inr (.inl h)
      · cases h
      · exact .inr (.inr (.inr h))
    · exact fun _ => .inl rfl
  | unmatched hcall hunanswered hpending =>
    exact .of_calls_eq rfl rfl rfl (fun _ _ => pending_cancelRequest)
      (fun _ => unanswered_of_update)
  | ignored => exact .of_calls_eq rfl rfl rfl (fun _ _ h => h) (fun _ h => h)
  | reset => exact .of_calls_eq rfl rfl rfl (fun _ _ h => (by cases h)) (fun _ h => h)
  | returned hcall hstage hresponse =>
    refine .of_setCall hcall rfl rfl rfl (fun _ _ h => h) (fun _ _ h => h) rfl ?_ ?_
    · exact fun h => .inl (h.unanswered rfl nofun)
    · exact fun _ => .inr (.inr rfl)
  | closed hcall hstage hresponse halive =>
    refine .of_setCall hcall rfl rfl rfl (fun _ _ h => h) (fun _ _ h => h) rfl ?_ ?_
    · exact fun _ => .inr (.inr (.inl ⟨.inr hstage, hresponse⟩))
    · exact fun _ => .inr (.inr rfl)
  | timeout hcall hstage hresponse halive =>
    refine .of_setCall hcall rfl rfl rfl (fun _ _ h => h) (fun _ _ h => h) rfl ?_ ?_
    · exact fun _ => .inr (.inr (.inl ⟨.inr hstage, hresponse⟩))
    · exact fun _ => .inr (.inr rfl)
  | cancel hcall hstage hnext =>
    refine .of_setCall hcall rfl rfl rfl (fun _ _ => pending_cancelRequest) (fun _ _ h => h) rfl
      ?_ ?_
    · exact fun _ => .inr (.inr (.inr ⟨_, hstage⟩))
    · obtain rfl | rfl := hnext
      · exact fun _ => .inr (.inr rfl)
      · exact fun _ => .inr (.inr rfl)
  | count hcall hstage hnext =>
    obtain rfl | rfl := hnext
    · exact .of_setCall hcall rfl rfl rfl (fun _ _ h => h) (fun _ _ h => h) rfl
        (fun h => .inl (h.unanswered rfl nofun)) (fun _ => .inr (.inr rfl))
    · exact .of_setCall hcall rfl rfl rfl (fun _ _ h => h) (fun _ _ h => h) rfl
        (fun h => .inl (h.unanswered rfl nofun)) (fun _ => .inr (.inr rfl))
  | recover hcall hstage =>
    refine .of_setCall hcall rfl rfl rfl (fun _ _ h => (by cases h)) (fun _ _ h => h) rfl ?_ ?_
    · exact fun h => .inl (h.unanswered rfl nofun)
    · exact fun _ => .inr (.inr rfl)

theorem Shrinks.consistent (h : Shrinks client client') (hclient : client.Consistent) :
    client'.Consistent where
  nextTid := h.nextTid ▸ hclient.nextTid
  fresh id hid := by
    obtain ⟨-, hnone⟩ | ⟨call, -, hcall, -⟩ := h.calls id
    · exact hnone
    · rw [hclient.fresh id (h.nextCall ▸ hid)] at hcall
      cases hcall
  tid_ne id call hcall := by
    obtain ⟨-, hnone⟩ | ⟨before, after, hbefore, hafter, htid, -⟩ := h.calls id
    · rw [hnone] at hcall
      cases hcall
    · cases hafter.symm.trans hcall
      rw [htid]
      exact hclient.tid_ne id before hbefore
  pending tid id hpending := by
    obtain ⟨call, hcall, htid⟩ := hclient.pending tid id (h.pending tid id hpending)
    obtain ⟨hnone, -⟩ | ⟨before, after, hbefore, hafter, hsame, -⟩ := h.calls id
    · rw [hnone] at hcall
      cases hcall
    · cases hbefore.symm.trans hcall
      exact ⟨after, hafter, hsame.trans htid⟩

/-! ## Starting a call -/

/-- The state after the start of a call. -/
structure Starts (client client' : SpinelClient) (started : Call) : Prop where
  free : FirstFree client.protocol started.tid
  stage : started.stage = .sending
  response : started.response = none
  nextTid : client'.protocol.nextTid ≠ 0
  nextCall : client'.nextCall = client.nextCall + 1
  calls : client'.calls = Function.update client.calls client.nextCall (some started)
  pending : client'.protocol.pendingFrames =
    Function.update client.protocol.pendingFrames started.tid (some client.nextCall)
  unanswered : client'.unanswered = client.unanswered

theorem Step.starts {commandId : SpinelCommandId} {payload : Bytes}
    (h : client.Step (.start commandId payload) client') :
    ∃ started, Starts client client' started := by
  cases h with
  | @start _ _ frame protocol hprepare =>
    obtain ⟨hfree, hnext, hpending⟩ := prepareRequest_spec hprepare
    exact ⟨⟨frame, .sending, none⟩, hfree, rfl, rfl, hnext ▸ tid_ne_zero _, rfl, rfl, hpending, rfl⟩

theorem FirstFree.ne_zero {protocol : SpinelProtocol} {tid : UInt8} (h : FirstFree protocol tid)
    (hnext : protocol.nextTid ≠ 0) : tid ≠ 0 := by
  obtain ⟨n, rfl, -⟩ := h
  exact tidAfter_ne_zero hnext n

theorem Starts.consistent {started : Call} (h : Starts client client' started)
    (hclient : client.Consistent) : client'.Consistent where
  nextTid := h.nextTid
  fresh id hid := by
    have hne : id ≠ client.nextCall := by
      rw [h.nextCall] at hid
      omega
    rw [h.calls, Function.update_of_ne hne]
    rw [h.nextCall] at hid
    exact hclient.fresh id (by omega)
  tid_ne id call hcall := by
    rw [h.calls] at hcall
    obtain ⟨-, ⟨⟩⟩ | ⟨-, hcall⟩ := of_update_eq_some hcall
    · exact h.free.ne_zero hclient.nextTid
    · exact hclient.tid_ne id call hcall
  pending tid id hpending := by
    rw [h.pending] at hpending
    rw [h.calls]
    obtain ⟨htid, ⟨⟩⟩ | ⟨-, hpending⟩ := of_update_eq_some hpending
    · exact ⟨started, Function.update_self .., htid.symm⟩
    · obtain ⟨call, hcall, hsame⟩ := hclient.pending tid id hpending
      refine ⟨call, ?_, hsame⟩
      rw [Function.update_of_ne (hclient.ne_nextCall hcall), hcall]

theorem consistent_new : new.Consistent where
  nextTid := by decide
  fresh _ _ := rfl
  tid_ne _ _ h := by cases h
  pending _ _ h := by cases h

/-- A step is the start of a call, or it takes away. -/
theorem Consistent.starts_or_shrinks (hclient : client.Consistent) {event : Event}
    (h : client.step event = some client') :
    (event.isStart = true ∧ ∃ started, Starts client client' started) ∨
      (event.isStart = false ∧ Shrinks client client') := by
  have hstep := hclient.step_cases h
  cases hstart : event.isStart with
  | true =>
    cases event with
    | start commandId payload => exact .inl ⟨rfl, hstep.starts⟩
    | _ => cases hstart
  | false => exact .inr ⟨rfl, hstep.shrinks hstart⟩

theorem Consistent.step (hclient : client.Consistent) {event : Event}
    (h : client.step event = some client') : client'.Consistent := by
  obtain ⟨-, _, hstarts⟩ | ⟨-, hshrinks⟩ := hclient.starts_or_shrinks h
  · exact hstarts.consistent hclient
  · exact hshrinks.consistent hclient

theorem Run.consistent {Allowed : SpinelClient → Event → Prop} (h : Run Allowed client client')
    (hclient : client.Consistent) : client'.Consistent := by
  induction h with
  | refl => exact hclient
  | tail _ hstep _ ih => exact ih.step hstep

/-! ## Runs without a claimed identifier -/

/-- No request claims the identifier that is next. -/
def Unclaimed (client : SpinelClient) : Prop :=
  ∀ tid, FirstFree client.protocol tid → ∀ id call, client.calls id = some call →
    client.Claims id call → call.tid ≠ tid

/-- A call starts only when the next identifier is unclaimed. -/
def Clear (client : SpinelClient) (event : Event) : Prop :=
  event.isStart = true → client.Unclaimed

/-- A call returns only the response to its own request, and cancels only its own entry. -/
def Sound (client : SpinelClient) : Prop :=
  ∀ id call, client.calls id = some call →
    (∀ request frame, call.stage = .returned request frame → request = id) ∧
    ∀ cause id', call.stage = .cancelling cause →
      client.protocol.pendingFrames call.tid = some id' → id' = id

/-- The entry of an identifier that is claimed belongs to the request that claims it, and a channel
holds the response to its own request. -/
structure Exclusive (client : SpinelClient) : Prop extends Consistent client where
  entry : ∀ id call id', client.calls id = some call → client.Claims id call →
    client.protocol.pendingFrames call.tid = some id' → id' = id
  response : ∀ id call request frame, client.calls id = some call →
    call.response = some (request, frame) → request = id
  returned : ∀ id call request frame, client.calls id = some call →
    call.stage = .returned request frame → request = id

theorem Exclusive.sound (h : client.Exclusive) : client.Sound := by
  intro id call hcall
  refine ⟨fun request frame => h.returned id call request frame hcall, ?_⟩
  exact fun cause id' hstage => h.entry id call id' hcall (.inr (.inr (.inr ⟨cause, hstage⟩)))

theorem exclusive_new : new.Exclusive where
  toConsistent := consistent_new
  entry _ _ _ h := by cases h
  response _ _ _ _ h := by cases h
  returned _ _ _ _ h := by cases h

theorem Shrinks.entry (h : Shrinks client client') (hclient : client.Exclusive) {id' : Nat}
    (hcall : client'.calls id = some call) (hclaims : client'.Claims id call)
    (hpending : client'.protocol.pendingFrames call.tid = some id') : id' = id := by
  obtain ⟨-, hnone⟩ | ⟨before, after, hbefore, hafter, htid, hkept, -⟩ := h.calls id
  · rw [hnone] at hcall
    cases hcall
  · cases hafter.symm.trans hcall
    have hentry := h.pending _ _ hpending
    rw [htid] at hentry
    exact hclient.entry id before id' hbefore (hkept hclaims) hentry

/-- One call changes, in a way that keeps what it holds and returns its own. -/
theorem Exclusive.of_setCall (hclient : client.Exclusive) (hshrinks : Shrinks client client')
    (hcalls : client'.calls = Function.update client.calls id (some call'))
    (hresponse : ∀ request frame, call'.response = some (request, frame) → request = id)
    (hreturned : ∀ request frame, call'.stage = .returned request frame → request = id) :
    client'.Exclusive where
  toConsistent := hshrinks.consistent hclient.toConsistent
  entry _ _ _ := hshrinks.entry hclient
  response other call request frame hcall := by
    rw [hcalls] at hcall
    obtain ⟨rfl, ⟨⟩⟩ | ⟨-, hcall⟩ := of_update_eq_some hcall
    · exact hresponse request frame
    · exact hclient.response other call request frame hcall
  returned other call request frame hcall := by
    rw [hcalls] at hcall
    obtain ⟨rfl, ⟨⟩⟩ | ⟨-, hcall⟩ := of_update_eq_some hcall
    · exact hreturned request frame
    · exact hclient.returned other call request frame hcall

theorem Exclusive.of_setStage (hclient : client.Exclusive) (hshrinks : Shrinks client client')
    (hcall : client.calls id = some call) {stage : Stage}
    (hcalls : client'.calls = Function.update client.calls id (some { call with stage }))
    (hreturned : ∀ request frame, stage = .returned request frame → request = id) :
    client'.Exclusive :=
  hclient.of_setCall hshrinks hcalls
    (fun request frame => hclient.response id call request frame hcall)
    hreturned

theorem Exclusive.of_calls_eq (hclient : client.Exclusive) (hshrinks : Shrinks client client')
    (hcalls : client'.calls = client.calls) : client'.Exclusive where
  toConsistent := hshrinks.consistent hclient.toConsistent
  entry _ _ _ := hshrinks.entry hclient
  response := hcalls ▸ hclient.response
  returned := hcalls ▸ hclient.returned

/-- The step that takes away. -/
theorem Exclusive.step_of_shrinks (hclient : client.Exclusive) {event : Event}
    (hstep : client.Step event client')
    (hstart : event.isStart = false) : client'.Exclusive := by
  have hshrinks := hstep.shrinks hstart
  cases hstep with
  | start => cases hstart
  | transmit hcall hstage => exact hclient.of_setStage hshrinks hcall rfl nofun
  | written hcall hstage => exact hclient.of_setStage hshrinks hcall rfl nofun
  | writeFailed hcall hstage => exact hclient.of_setStage hshrinks hcall rfl nofun
  | matched hcall hunanswered hpending htarget =>
    -- the response goes to the entry of the identifier, which its request claims
    have hown := hclient.entry _ _ _ hcall (.inl hunanswered) hpending
    refine hclient.of_setCall hshrinks rfl (fun request frame hresponse => ?_)
      (fun request frame hreturned => hclient.returned _ _ request frame htarget hreturned)
    cases hresponse
    exact hown.symm
  | unmatched => exact hclient.of_calls_eq hshrinks rfl
  | ignored => exact hclient
  | reset => exact hclient.of_calls_eq hshrinks rfl
  | returned hcall hstage hresponse =>
    refine hclient.of_setStage hshrinks hcall rfl fun request frame hreturned => ?_
    cases hreturned
    exact hclient.response _ _ _ _ hcall hresponse
  | closed hcall hstage hresponse halive => exact hclient.of_setStage hshrinks hcall rfl nofun
  | timeout hcall hstage hresponse halive => exact hclient.of_setStage hshrinks hcall rfl nofun
  | cancel hcall hstage hnext =>
    obtain rfl | rfl := hnext
    · exact hclient.of_setStage hshrinks hcall rfl nofun
    · exact hclient.of_setStage hshrinks hcall rfl nofun
  | count hcall hstage hnext =>
    obtain rfl | rfl := hnext
    · exact hclient.of_setStage hshrinks hcall rfl nofun
    · exact hclient.of_setStage hshrinks hcall rfl nofun
  | recover hcall hstage => exact hclient.of_setStage hshrinks hcall rfl nofun

theorem Starts.exclusive {started : Call} (h : Starts client client' started)
    (hclient : client.Exclusive) (hclear : client.Unclaimed) : client'.Exclusive where
  toConsistent := h.consistent hclient.toConsistent
  entry id call id' hcall hclaims hpending := by
    rw [h.calls] at hcall
    rw [h.pending] at hpending
    obtain ⟨hid, ⟨⟩⟩ | ⟨-, hcall⟩ := of_update_eq_some hcall
    · rw [Function.update_self] at hpending
      cases hpending
      exact hid.symm
    · replace hclaims : client.Claims id call := by
        unfold Claims at hclaims
        rwa [h.unanswered] at hclaims
      rw [Function.update_of_ne (hclear _ h.free id call hcall hclaims)] at hpending
      exact hclient.entry id call id' hcall hclaims hpending
  response id call request frame hcall hresponse := by
    rw [h.calls] at hcall
    obtain ⟨-, ⟨⟩⟩ | ⟨-, hcall⟩ := of_update_eq_some hcall
    · rw [h.response] at hresponse
      cases hresponse
    · exact hclient.response id call request frame hcall hresponse
  returned id call request frame hcall hreturned := by
    rw [h.calls] at hcall
    obtain ⟨-, ⟨⟩⟩ | ⟨-, hcall⟩ := of_update_eq_some hcall
    · rw [h.stage] at hreturned
      cases hreturned
    · exact hclient.returned id call request frame hcall hreturned

theorem Exclusive.step (hclient : client.Exclusive) {event : Event} (hclear : client.Clear event)
    (h : client.step event = some client') : client'.Exclusive := by
  obtain ⟨hstart, _, hstarts⟩ | ⟨hother, -⟩ := hclient.starts_or_shrinks h
  · exact hstarts.exclusive hclient (hclear hstart)
  · exact hclient.step_of_shrinks (hclient.step_cases h) hother

theorem Run.exclusive (h : Run Clear client client') (hclient : client.Exclusive) :
    client'.Exclusive := by
  induction h with
  | refl => exact hclient
  | tail _ hstep hclear ih => exact ih.step hclear hstep

/-! ## A claimed identifier -/

/-- The other calls stay as they are. -/
def SameOthers (client client' : SpinelClient) (id : Nat) : Prop :=
  ∀ other ≠ id, client'.calls other = client.calls other

theorem sameOthers_setCall (client : SpinelClient) (id : Nat) (call : Call) :
    SameOthers client (client.setCall id call) id :=
  fun _ hother => Function.update_of_ne hother ..

theorem exists_transmit (hcall : client.calls id = some call) (hstage : call.stage = .sending) :
    ∃ client', client.step (.transmit id) = some client' ∧ SameOthers client client' id ∧
      client'.calls id = some { call with stage := .sent } ∧ client'.unanswered id = true ∧
      client'.protocol = client.protocol := by
  refine ⟨{ client.setCall id { call with stage := .sent } with
    unanswered := Function.update client.unanswered id true }, ?_,
    sameOthers_setCall client id _, Function.update_self .., Function.update_self .., rfl⟩
  simp [step, hcall, hstage]

theorem exists_written (hcall : client.calls id = some call) (hstage : call.stage = .sent) :
    ∃ client', client.step (.written id) = some client' ∧
      client'.calls id = some { call with stage := .waiting } ∧
      client'.protocol = client.protocol := by
  refine ⟨client.setCall id { call with stage := .waiting }, ?_, Function.update_self .., rfl⟩
  simp [step, hcall, hstage]

theorem exists_poll_some {request : Nat} {frame : SpinelFrame}
    (hcall : client.calls id = some call) (hstage : call.stage = .waiting)
    (hresponse : call.response = some (request, frame)) :
    ∃ client', client.step (.poll id) = some client' ∧
      client'.calls id = some { call with stage := .returned request frame } := by
  refine ⟨{ client.setCall id { call with stage := .returned request frame } with
    consecutiveTimeouts := 0 }, ?_, Function.update_self ..⟩
  simp [step, hcall, hstage, hresponse]

theorem exists_poll_none (hcall : client.calls id = some call) (hstage : call.stage = .waiting)
    (hresponse : call.response = none) (halive : ¬client.Alive id call) :
    ∃ client', client.step (.poll id) = some client' ∧
      client'.calls id = some { call with stage := .cancelling .reset } ∧
      client'.protocol = client.protocol := by
  refine ⟨client.setCall id { call with stage := .cancelling .reset }, ?_,
    Function.update_self .., rfl⟩
  simp [step, hcall, hstage, hresponse, halive]

theorem exists_respond {channel : Nat} {target : Call} (frame : SpinelFrame)
    (hcall : client.calls id = some call) (hunanswered : client.unanswered id = true)
    (htid : frame.header.transactionId = call.tid) (hne : call.tid ≠ 0)
    (hpending : client.protocol.pendingFrames call.tid = some channel)
    (htarget : client.calls channel = some target) :
    ∃ client', client.step (.respond id frame) = some client' ∧
      client'.calls channel = some { target with response := some (id, frame) } := by
  have hinbound := @SpinelProtocol.handleInboundFrame_of_ne client.protocol frame.header
    (htid.trans_ne hne) frame.commandId frame.payload
  rw [htid, hpending] at hinbound
  refine ⟨{ client.setCall channel { target with response := some (id, frame) } with
    protocol := client.protocol.cancelRequest call.tid
    unanswered := Function.update client.unanswered id false }, ?_, Function.update_self ..⟩
  simp only [step, hcall, Option.bind_eq_bind, Option.bind_some, hunanswered, htid, hinbound]
  simp [deliver, htarget, setCall, SpinelProtocol.cancelRequest]

/-- No call starts. -/
def NoStart (_ : SpinelClient) (event : Event) : Prop := event.isStart = false

/-- The response to an earlier request goes to the one that has its identifier now. -/
theorem exists_not_sound_of_unanswered {other : Nat} {started : Call}
    (hcall : client.calls id = some call) (hne : call.tid ≠ 0)
    (hunanswered : client.unanswered id = true)
    (hpending : client.protocol.pendingFrames call.tid = some other)
    (hother : client.calls other = some started) (hstage : started.stage = .sending)
    (hid : id ≠ other) :
    ∃ client', Run NoStart client client' ∧ ¬client'.Sound := by
  let frame : SpinelFrame := ⟨⟨0b10, 0, call.tid⟩, .propValueIs, []⟩
  obtain ⟨client₁, h₁, hcall₁⟩ :=
    exists_respond frame hcall hunanswered rfl hne hpending hother
  obtain ⟨client₂, h₂, -, hcall₂, -⟩ := exists_transmit hcall₁ hstage
  obtain ⟨client₃, h₃, hcall₃, -⟩ := exists_written hcall₂ rfl
  obtain ⟨client₄, h₄, hcall₄⟩ := exists_poll_some hcall₃ rfl rfl
  refine ⟨client₄, ((((Run.refl client).tail h₁ rfl).tail h₂ rfl).tail h₃ rfl).tail h₄ rfl,
    fun hsound => hid ?_⟩
  exact (hsound other _ hcall₄).1 id frame rfl

/-- A call that has lost its entry cancels that of the request that has its identifier now. -/
theorem exists_not_sound_of_waiting {other : Nat} (hcall : client.calls id = some call)
    (hstage : call.stage = .waiting) (hresponse : call.response = none)
    (hpending : client.protocol.pendingFrames call.tid = some other) (hid : id ≠ other) :
    ∃ client', Run NoStart client client' ∧ ¬client'.Sound := by
  have halive : ¬client.Alive id call := by
    intro halive
    exact hid (Option.some.inj (halive.symm.trans hpending))
  obtain ⟨client₁, h₁, hcall₁, hprotocol⟩ := exists_poll_none hcall hstage hresponse halive
  refine ⟨client₁, (Run.refl client).tail h₁ rfl, fun hsound => hid ?_⟩
  exact ((hsound id _ hcall₁).2 .reset other rfl (hprotocol ▸ hpending)).symm

/-- A request that gets a claimed identifier can go wrong. -/
theorem Starts.exists_not_sound {started : Call} (h : Starts client client' started)
    (hclient : client.Consistent) (hcall : client.calls id = some call)
    (hclaims : client.Claims id call) (htid : call.tid = started.tid) :
    ∃ client'', Run NoStart client' client'' ∧ ¬client''.Sound := by
  have hid := hclient.ne_nextCall hcall
  have hne := hclient.tid_ne id call hcall
  have hcall' : client'.calls id = some call := by
    rw [h.calls, Function.update_of_ne hid, hcall]
  have hstarted : client'.calls client.nextCall = some started := by
    rw [h.calls, Function.update_self]
  have hpending : client'.protocol.pendingFrames call.tid = some client.nextCall := by
    rw [h.pending, htid, Function.update_self]
  obtain hunanswered | hstage | ⟨hstage | hstage, hresponse⟩ | ⟨cause, hstage⟩ := hclaims
  · rw [← h.unanswered] at hunanswered
    exact exists_not_sound_of_unanswered hcall' hne hunanswered hpending hstarted h.stage hid
  · obtain ⟨client₁, h₁, hothers, hcall₁, hunanswered, hprotocol⟩ :=
      exists_transmit hcall' hstage
    obtain ⟨client₂, hrun, hsound⟩ := exists_not_sound_of_unanswered hcall₁ hne hunanswered
      (hprotocol ▸ hpending) ((hothers _ (Ne.symm hid)).trans hstarted) h.stage hid
    exact ⟨client₂, .head h₁ rfl hrun, hsound⟩
  · obtain ⟨client₁, h₁, hcall₁, hprotocol⟩ := exists_written hcall' hstage
    obtain ⟨client₂, hrun, hsound⟩ := exists_not_sound_of_waiting hcall₁ rfl hresponse
      (hprotocol ▸ hpending) hid
    exact ⟨client₂, .head h₁ rfl hrun, hsound⟩
  · exact exists_not_sound_of_waiting hcall' hstage hresponse hpending hid
  · refine ⟨client', .refl client', fun hsound => hid ?_⟩
    exact ((hsound id call hcall').2 cause _ hstage hpending).symm

/-! ## Resolution -/

/-- The sections that a call runs by itself, and the port finishing its write. -/
def Own (id : Nat) (_ : SpinelClient) (event : Event) : Prop :=
  event = .transmit id ∨ event = .written id ∨ event = .poll id ∨ event = .cancel id ∨
    event = .count id ∨ event = .recover id

theorem Own.isStart {event : Event} (h : Own id client event) : event.isStart = false := by
  obtain rfl | rfl | rfl | rfl | rfl | rfl := h <;> rfl

/-- The call has returned. -/
def Resolved (client : SpinelClient) (id : Nat) : Prop :=
  ∃ call, client.calls id = some call ∧
    ((∃ request frame, call.stage = .returned request frame) ∨ ∃ err, call.stage = .failed err)

/-- How many sections a call has before it at most. -/
def Stage.left : Stage → Nat
  | .sending => 6
  | .sent => 5
  | .waiting => 4
  | .cancelling _ => 3
  | .counting => 2
  | .recovering => 1
  | .returned _ _ | .failed _ => 0

theorem exists_cancel {cause : Cancellation} (hcall : client.calls id = some call)
    (hstage : call.stage = .cancelling cause) :
    ∃ client' call', client.step (.cancel id) = some client' ∧ client'.calls id = some call' ∧
      call'.stage.left < 3 := by
  cases cause with
  | reset =>
    refine ⟨{ client.setCall id { call with stage := .failed .cancelledByReset } with
      protocol := client.protocol.cancelRequest call.tid }, _, ?_, Function.update_self ..,
      Nat.zero_lt_succ 2⟩
    simp [step, hcall, hstage]
  | timeout =>
    refine ⟨{ client.setCall id { call with stage := .counting } with
      protocol := client.protocol.cancelRequest call.tid }, _, ?_, Function.update_self ..,
      Nat.lt_succ_self 2⟩
    simp [step, hcall, hstage]

theorem exists_count (hcall : client.calls id = some call) (hstage : call.stage = .counting) :
    ∃ client' call', client.step (.count id) = some client' ∧ client'.calls id = some call' ∧
      call'.stage.left < 2 := by
  by_cases hmany : client.consecutiveTimeouts + 1 ≥ maxConsecutiveTimeouts
  · refine ⟨{ client.setCall id { call with stage := .recovering } with
      consecutiveTimeouts := 0 }, _, ?_, Function.update_self .., Nat.lt_succ_self 1⟩
    simp [step, hcall, hstage, hmany]
  · refine ⟨{ client.setCall id { call with stage := .failed .timeout } with
      consecutiveTimeouts := client.consecutiveTimeouts + 1 }, _, ?_, Function.update_self ..,
      Nat.zero_lt_succ 1⟩
    simp [step, hcall, hstage, hmany]

theorem exists_recover (hcall : client.calls id = some call) (hstage : call.stage = .recovering) :
    ∃ client' call', client.step (.recover id) = some client' ∧ client'.calls id = some call' ∧
      call'.stage.left < 1 := by
  refine ⟨{ client.setCall id { call with stage := .failed .timeout } with
    protocol := (client.protocol.notifyReset .responseTimeout).1 }, _, ?_, Function.update_self ..,
    Nat.lt_succ_self 0⟩
  simp [step, hcall, hstage]

/-- A call that is settled runs its next section. -/
theorem Settled.progress (h : client.Settled id call) (hcall : client.calls id = some call) :
    client.Resolved id ∨ ∃ event client' call', Own id client event ∧
      client.step event = some client' ∧ client'.calls id = some call' ∧
      call'.stage.left < call.stage.left := by
  cases hstage : call.stage with
  | sending =>
    obtain ⟨client', hstep, -, hcall', -⟩ := exists_transmit hcall hstage
    exact .inr ⟨_, client', _, .inl rfl, hstep, hcall', Nat.lt_succ_self 5⟩
  | sent =>
    obtain ⟨client', hstep, hcall', -⟩ := exists_written hcall hstage
    exact .inr ⟨_, client', _, .inr (.inl rfl), hstep, hcall', Nat.lt_succ_self 4⟩
  | waiting =>
    refine .inr ?_
    cases hresponse : call.response with
    | some response =>
      obtain ⟨request, frame⟩ := response
      obtain ⟨client', hstep, hcall'⟩ := exists_poll_some hcall hstage hresponse
      exact ⟨_, client', _, .inr (.inr (.inl rfl)), hstep, hcall', Nat.zero_lt_succ 3⟩
    | none =>
      have halive : ¬client.Alive id call := by
        obtain hsome | halive | hpast := h
        · rw [hresponse] at hsome
          cases hsome
        · exact halive
        · rw [hstage] at hpast
          cases hpast
      obtain ⟨client', hstep, hcall', -⟩ := exists_poll_none hcall hstage hresponse halive
      exact ⟨_, client', _, .inr (.inr (.inl rfl)), hstep, hcall', Nat.lt_succ_self 3⟩
  | cancelling cause =>
    obtain ⟨client', call', hstep, hcall', hleft⟩ := exists_cancel hcall hstage
    exact .inr ⟨_, client', call', .inr (.inr (.inr (.inl rfl))), hstep, hcall', hleft⟩
  | counting =>
    obtain ⟨client', call', hstep, hcall', hleft⟩ := exists_count hcall hstage
    exact .inr ⟨_, client', call', .inr (.inr (.inr (.inr (.inl rfl)))), hstep, hcall', hleft⟩
  | recovering =>
    obtain ⟨client', call', hstep, hcall', hleft⟩ := exists_recover hcall hstage
    exact .inr ⟨_, client', call', .inr (.inr (.inr (.inr (.inr rfl)))), hstep, hcall', hleft⟩
  | returned request frame => exact .inl ⟨call, hcall, .inl ⟨request, frame, hstage⟩⟩
  | failed err => exact .inl ⟨call, hcall, .inr ⟨err, hstage⟩⟩

/-- A settled call returns by itself. -/
theorem Settled.resolved (hclient : client.Consistent) (h : client.Settled id call)
    (hcall : client.calls id = some call) :
    ∃ client', Run (Own id) client client' ∧ client'.Resolved id := by
  induction hleft : call.stage.left using Nat.strongRecOn generalizing client call with
  | _ left ih =>
    obtain hresolved | ⟨event, client₁, call₁, hown, hstep, hcall₁, hlt⟩ := h.progress hcall
    · exact ⟨client, .refl client, hresolved⟩
    · have hshrinks := (hclient.step_cases hstep).shrinks hown.isStart
      obtain ⟨hnone, -⟩ | ⟨before, after, hbefore, hafter, -, -, hkept⟩ := hshrinks.calls id
      · rw [hnone] at hcall
        cases hcall
      · cases hbefore.symm.trans hcall
        cases hafter.symm.trans hcall₁
        obtain ⟨client₂, hrun, hresolved⟩ :=
          ih _ (hleft ▸ hlt) (hclient.step hstep) (hkept h) hcall₁ rfl
        exact ⟨client₂, .head hstep hown hrun, hresolved⟩

/-- A settled call stays settled, whatever the others do. -/
theorem Settled.step (hclient : client.Consistent) (h : client.Settled id call)
    (hcall : client.calls id = some call) {event : Event}
    (hstep : client.step event = some client') :
    ∃ call', client'.calls id = some call' ∧ client'.Settled id call' := by
  obtain ⟨-, started, hstarts⟩ | ⟨-, hshrinks⟩ := hclient.starts_or_shrinks hstep
  · have hid := hclient.ne_nextCall hcall
    refine ⟨call, by rw [hstarts.calls, Function.update_of_ne hid, hcall], ?_⟩
    refine h.imp_right (Or.imp_left fun halive hpending => ?_)
    -- the new entry is that of another call
    rw [Alive, hstarts.pending] at hpending
    obtain ⟨-, ⟨⟩⟩ | ⟨-, hpending⟩ := of_update_eq_some hpending
    · exact hid rfl
    · exact halive hpending
  · obtain ⟨hnone, -⟩ | ⟨before, after, hbefore, hafter, -, -, hkept⟩ := hshrinks.calls id
    · rw [hnone] at hcall
      cases hcall
    · cases hbefore.symm.trans hcall
      exact ⟨after, hafter, hkept h⟩

theorem Settled.run {Allowed : SpinelClient → Event → Prop} (hrun : Run Allowed client client')
    (hclient : client.Consistent) (h : client.Settled id call)
    (hcall : client.calls id = some call) :
    ∃ call', client'.calls id = some call' ∧ client'.Settled id call' := by
  induction hrun with
  | refl => exact ⟨call, hcall, h⟩
  | tail hrun hstep _ ih =>
    obtain ⟨call₁, hcall₁, hsettled₁⟩ := ih
    exact hsettled₁.step (hrun.consistent hclient) hcall₁ hstep

/-- What resolves a request: its response, its timeout, or the announcement of a reset. -/
def Resolves (client client' : SpinelClient) (id : Nat) (event : Event) : Prop :=
  (∃ frame, event = .respond id frame) ∨ event = .timeout id ∨
    ∃ status, client'.protocol = (client.protocol.notifyReset status).1

theorem Consistent.call_step (hclient : client.Consistent) (hcall : client.calls id = some call)
    {event : Event} (hstep : client.step event = some client') :
    ∃ call', client'.calls id = some call' ∧ call'.tid = call.tid := by
  obtain ⟨-, started, hstarts⟩ | ⟨-, hshrinks⟩ := hclient.starts_or_shrinks hstep
  · have hid := hclient.ne_nextCall hcall
    exact ⟨call, by rw [hstarts.calls, Function.update_of_ne hid, hcall], rfl⟩
  · obtain ⟨hnone, -⟩ | ⟨before, after, hbefore, hafter, htid, -⟩ := hshrinks.calls id
    · rw [hnone] at hcall
      cases hcall
    · cases hbefore.symm.trans hcall
      exact ⟨after, hafter, htid⟩

theorem Resolves.settled {event : Event} (h : Resolves client client' id event)
    (hclient : client.Consistent) (hcall : client.calls id = some call)
    (hstep : client.step event = some client') :
    ∃ call', client'.calls id = some call' ∧ client'.Settled id call' := by
  obtain ⟨call', hcall', htid⟩ := hclient.call_step hcall hstep
  refine ⟨call', hcall', ?_⟩
  obtain ⟨frame, rfl⟩ | rfl | ⟨status, hprotocol⟩ := h
  · have hentry : client'.protocol = client.protocol.cancelRequest call.tid := by
      cases hclient.step_cases hstep with
      | matched hcall₁ =>
        cases hcall₁.symm.trans hcall
        rfl
      | unmatched hcall₁ =>
        cases hcall₁.symm.trans hcall
        rfl
    refine .inr (.inl ?_)
    rw [Alive, hentry, htid]
    change Function.update client.protocol.pendingFrames call.tid none call.tid ≠ some id
    rw [Function.update_self]
    nofun
  · cases hclient.step_cases hstep with
    | timeout =>
      cases (Function.update_self ..).symm.trans hcall'
      exact .inr (.inr rfl)
  · refine .inr (.inl ?_)
    rw [Alive, hprotocol]
    nofun

/-- Responses go to their own requests and a call cancels only its own entry, as long as each call
starts when the next identifier is unclaimed, and a call that starts otherwise can go wrong.  In
every run, a request is resolved once its response arrived, its timeout fired or a reset was
announced. -/
theorem spinel_request_matching (client : SpinelClient) :
    (Run Clear new client → client.Sound ∧
      ∀ event client', event.isStart = true → client.step event = some client' →
        (client.Unclaimed ↔ ∀ client'', Run Clear client' client'' → client''.Sound)) ∧
    (Run (fun _ _ => True) new client → ∀ client' client'' event id,
      (client.calls id).isSome = true → client.step event = some client' →
      Resolves client client' id event → Run (fun _ _ => True) client' client'' →
      ∃ final, Run (Own id) client'' final ∧ final.Resolved id) := by
  refine ⟨fun hrun => ⟨(hrun.exclusive exclusive_new).sound, ?_⟩, ?_⟩
  · intro event client' hstart hstep
    have hclient := hrun.exclusive exclusive_new
    constructor
    · intro hunclaimed client'' hrun'
      have hafter := hclient.step (fun _ => hunclaimed) hstep
      exact (hrun'.exclusive hafter).sound
    · intro hsound tid hfree id call hcall hclaims htid
      obtain ⟨-, started, hstarts⟩ | ⟨hother, -⟩ := hclient.starts_or_shrinks hstep
      · obtain ⟨client'', hrun', hunsound⟩ := hstarts.exists_not_sound hclient.toConsistent hcall
          hclaims (htid.trans (hfree.unique hstarts.free))
        refine hunsound (hsound client'' (hrun'.mono fun _ _ hnone hsome => ?_))
        rw [NoStart, hsome] at hnone
        cases hnone
      · rw [hstart] at hother
        cases hother
  · intro hrun client' client'' event id hsome hstep hresolves hrun'
    have hclient := hrun.consistent consistent_new
    obtain ⟨call, hcall⟩ := Option.isSome_iff_exists.mp hsome
    obtain ⟨call', hcall', hsettled⟩ := hresolves.settled hclient hcall hstep
    have hclient' := hclient.step hstep
    obtain ⟨call'', hcall'', hsettled'⟩ := Settled.run hrun' hclient' hsettled hcall'
    exact hsettled'.resolved (hrun'.consistent hclient') hcall''

namespace Example

def play (events : List Event) : Option SpinelClient := events.foldlM step new

theorem run_of_foldlM {events : List Event} (h : events.foldlM step client = some client') :
    Run (fun _ _ => True) client client' := by
  induction events generalizing client with
  | nil =>
    cases h
    exact .refl _
  | cons event events ih =>
    rw [List.foldlM_cons, Option.bind_eq_bind, Option.bind_eq_some_iff] at h
    obtain ⟨client₁, hstep, h⟩ := h
    exact .head hstep trivial (ih h)

def get : Event := .start .propValueGet [0x02]

/-- The response to the first request. -/
def answer : SpinelFrame := ⟨⟨0b10, 0, 1⟩, .propValueIs, [0x02, 0x00]⟩

/-- `LastStatus = RESET_POWER_ON`. -/
def announcement : SpinelFrame := ⟨⟨0b10, 0, 0⟩, .propValueIs, [0x00, 0x70]⟩

/-- The first of seven requests times out, and the eighth gets its identifier. -/
def late : List Event :=
  [get, get, get, get, get, get, get, .transmit 0, .written 0, .timeout 0, .cancel 0, .count 0,
    get, .transmit 7, .written 7, .respond 0 answer, .poll 7]

/-- The radio resets while the first of seven requests is in flight, and the eighth gets its
identifier before the first call runs again. -/
def interrupted : List Event :=
  [get, get, get, get, get, get, get, .transmit 0, .written 0, .transmit 1, .written 1,
    .respond 1 ⟨⟨0b10, 0, 2⟩, .propValueIs, [0x02, 0x00]⟩, .poll 1, .unsolicited announcement, get,
    .poll 0]

end Example

open SpinelClient.Example in
/-- The eighth call returns the late response to the first request.  And after a reset, the first
call is about to cancel the entry of the eighth. -/
theorem spinel_response_misrouted :
    (∃ client call, Run (fun _ _ => True) new client ∧ client.calls 7 = some call ∧
      call.stage = .returned 0 answer) ∧
    ∃ client call, Run (fun _ _ => True) new client ∧ client.calls 0 = some call ∧
      call.stage = .cancelling .reset ∧ client.protocol.pendingFrames call.tid = some 7 := by
  constructor
  · obtain ⟨client, hplay⟩ : ∃ client, play late = some client := ⟨_, rfl⟩
    refine ⟨client, ⟨⟨⟨0b10, 0, 1⟩, .propValueGet, [0x02]⟩, .returned 0 answer,
      some (0, answer)⟩, run_of_foldlM hplay, ?_, rfl⟩
    cases hplay
    rfl
  · obtain ⟨client, hplay⟩ : ∃ client, play interrupted = some client := ⟨_, rfl⟩
    refine ⟨client, ⟨⟨⟨0b10, 0, 1⟩, .propValueGet, [0x02]⟩, .cancelling .reset, none⟩,
      run_of_foldlM hplay, ?_, rfl, ?_⟩
    · cases hplay
      rfl
    · cases hplay
      rfl

end Ziggurat.SpinelClient
