import Mathlib.Data.Finset.Card
import Ziggurat.Spinel.Matching

/-!
# Released identifiers

`prepare_request` enters a request into the table, and only then is it written to the port.  The
entry leaves the table with the response, with a reset, or when the call cancels its request after
a timeout or a closed channel.  A call whose write fails returns at once, without cancelling.

* `Spends.step`: an answered or cancelled request has no entry, in every run.
* `holds_iff_of_finishes`: a step that ends a call leaves its entry behind exactly if it is the
  failure of a write while the entry is still there.
* `prepareRequest_of_free`: a request is prepared as long as one of the seven identifiers is free.
* `seven_le_active`: entries of unfinished calls cannot fill the table before seven calls run.
-/

namespace Ziggurat.SpinelClient

variable {client client' : SpinelClient} {id : Nat} {call call' : Call} {event : Event}

/-! ## Entries of a call -/

/-- The table has an entry that the call created. -/
def Holds (client : SpinelClient) (id : Nat) : Prop :=
  ∃ tid, client.protocol.pendingFrames tid = some id

theorem Shrinks.holds (h : Shrinks client client') (hholds : client'.Holds id) :
    client.Holds id := by
  obtain ⟨tid, hpending⟩ := hholds
  exact ⟨tid, h.pending tid id hpending⟩

theorem Starts.holds {started : Call} (h : Starts client client' started)
    (hid : id ≠ client.nextCall) (hholds : client'.Holds id) : client.Holds id := by
  obtain ⟨tid, hpending⟩ := hholds
  rw [h.pending] at hpending
  obtain ⟨-, ⟨⟩⟩ | ⟨-, hpending⟩ := of_update_eq_some hpending
  · exact absurd rfl hid
  · exact ⟨tid, hpending⟩

/-- The entry of a call is under its own identifier, so there is none once that is cancelled. -/
theorem Consistent.not_holds_cancelRequest (hclient : client.Consistent)
    (hcall : client.calls id = some call)
    (hprotocol : client'.protocol = client.protocol.cancelRequest call.tid) :
    ¬client'.Holds id := by
  rintro ⟨tid, hpending⟩
  rw [hprotocol] at hpending
  obtain ⟨same, hsame, htid⟩ := hclient.pending tid id (pending_cancelRequest hpending)
  cases hsame.symm.trans hcall
  change Function.update client.protocol.pendingFrames call.tid none tid = some id at hpending
  rw [htid, Function.update_self] at hpending
  cases hpending

/-- A call creates no second entry. -/
theorem Run.not_holds {Allowed : SpinelClient → Event → Prop} (hrun : Run Allowed client client')
    (hclient : client.Consistent) (hcall : client.calls id = some call)
    (hholds : ¬client.Holds id) : ¬client'.Holds id := by
  suffices hboth : (∃ call', client'.calls id = some call') ∧ ¬client'.Holds id from hboth.2
  induction hrun with
  | refl => exact ⟨⟨call, hcall⟩, hholds⟩
  | tail hrun hstep _ ih =>
    obtain ⟨⟨call₁, hcall₁⟩, hholds₁⟩ := ih
    have hclient₁ := hrun.consistent hclient
    obtain ⟨call₂, hcall₂, -⟩ := hclient₁.call_step hcall₁ hstep
    refine ⟨⟨call₂, hcall₂⟩, fun hholds₂ => hholds₁ ?_⟩
    obtain ⟨-, started, hstarts⟩ | ⟨-, hshrinks⟩ := hclient₁.starts_or_shrinks hstep
    · exact hstarts.holds (hclient₁.ne_nextCall hcall₁) hholds₂
    · exact hshrinks.holds hholds₂

/-! ## Answered and cancelled requests -/

/-- `send_command` has returned. -/
def Stage.finished : Stage → Bool
  | .returned _ _ | .failed _ => true
  | _ => false

/-- The stages of a call that got its response or has cancelled its request. -/
def Stage.spent : Stage → Bool
  | .returned _ _ | .counting | .recovering | .failed .cancelledByReset | .failed .timeout => true
  | _ => false

/-- The request was answered, or the call has cancelled it. -/
def Call.spent (call : Call) : Bool := call.response.isSome || call.stage.spent

theorem Call.spent_of_stage (h : call.stage.spent = true) : call.spent = true := by
  rw [spent, h, Bool.or_true]

/-- A call that ends otherwise ends with an error of the port. -/
theorem Call.stage_of_not_spent (hspent : call.spent = false)
    (hfinished : call.stage.finished = true) : call.stage = .failed .ioError := by
  obtain ⟨-, hstage⟩ := Bool.or_eq_false_iff.mp hspent
  cases hcase : call.stage with
  | failed err =>
    cases err with
    | ioError => rfl
    | _ =>
      rw [hcase] at hstage
      cases hstage
  | returned request frame =>
    rw [hcase] at hstage
    cases hstage
  | _ =>
    rw [hcase] at hfinished
    cases hfinished

/-- An answered or cancelled request has no entry. -/
def Spends (client : SpinelClient) : Prop :=
  ∀ id call, client.calls id = some call → call.spent = true → ¬client.Holds id

theorem spends_new : new.Spends := by
  intro id call hcall
  cases hcall

theorem Spends.of_calls_eq (h : client.Spends) (hshrinks : Shrinks client client')
    (hcalls : client'.calls = client.calls) : client'.Spends := by
  intro id call hcall hspent hholds
  rw [hcalls] at hcall
  exact h id call hcall hspent (hshrinks.holds hholds)

theorem Spends.of_setCall (h : client.Spends) (hshrinks : Shrinks client client')
    (hcalls : client'.calls = Function.update client.calls id (some call'))
    (hself : call'.spent = true → ¬client'.Holds id) : client'.Spends := by
  intro other call hcall hspent
  rw [hcalls] at hcall
  obtain ⟨rfl, ⟨⟩⟩ | ⟨-, hcall⟩ := of_update_eq_some hcall
  · exact hself hspent
  · exact fun hholds => h other call hcall hspent (hshrinks.holds hholds)

/-- A call goes on to another stage, which cancels nothing, or it was spent before. -/
theorem Spends.of_setStage {stage : Stage} (h : client.Spends) (hshrinks : Shrinks client client')
    (hcall : client.calls id = some call)
    (hcalls : client'.calls = Function.update client.calls id (some { call with stage }))
    (hstage : stage.spent = false ∨ call.spent = true) : client'.Spends := by
  refine h.of_setCall hshrinks hcalls fun hspent hholds => ?_
  have hbefore : call.spent = true := by
    obtain hstage | hbefore := hstage
    · change (call.response.isSome || stage.spent) = true at hspent
      rw [hstage, Bool.or_false] at hspent
      rw [Call.spent, hspent, Bool.true_or]
    · exact hbefore
  exact h id call hcall hbefore (hshrinks.holds hholds)

theorem Spends.step_of_shrinks (h : client.Spends) (hclient : client.Consistent)
    (hstep : client.Step event client') (hshrinks : Shrinks client client') : client'.Spends := by
  cases hstep with
  | start =>
    have hnext := hshrinks.nextCall
    change client.nextCall + 1 = client.nextCall at hnext
    omega
  | transmit hcall => exact h.of_setStage hshrinks hcall rfl (.inl rfl)
  | written hcall => exact h.of_setStage hshrinks hcall rfl (.inl rfl)
  | writeFailed hcall => exact h.of_setStage hshrinks hcall rfl (.inl rfl)
  | matched hcall hunanswered hpending htarget =>
    refine h.of_setCall hshrinks rfl fun _ => ?_
    obtain ⟨same, hsame, htid⟩ := hclient.pending _ _ hpending
    cases hsame.symm.trans htarget
    exact hclient.not_holds_cancelRequest htarget (by rw [htid])
  | unmatched => exact h.of_calls_eq hshrinks rfl
  | ignored => exact h
  | reset => exact h.of_calls_eq hshrinks rfl
  | returned hcall hstage hresponse =>
    refine h.of_setStage hshrinks hcall rfl (.inr ?_)
    rw [Call.spent, hresponse]
    rfl
  | closed hcall => exact h.of_setStage hshrinks hcall rfl (.inl rfl)
  | timeout hcall => exact h.of_setStage hshrinks hcall rfl (.inl rfl)
  | cancel hcall =>
    exact h.of_setCall hshrinks rfl fun _ => hclient.not_holds_cancelRequest hcall rfl
  | count hcall hstage =>
    exact h.of_setStage hshrinks hcall rfl (.inr (Call.spent_of_stage (by rw [hstage]; rfl)))
  | recover hcall hstage =>
    exact h.of_setStage hshrinks hcall rfl (.inr (Call.spent_of_stage (by rw [hstage]; rfl)))

theorem Starts.spends {started : Call} (h : Starts client client' started)
    (hspends : client.Spends) : client'.Spends := by
  intro id call hcall hspent
  rw [h.calls] at hcall
  obtain ⟨-, ⟨⟩⟩ | ⟨hid, hcall⟩ := of_update_eq_some hcall
  · rw [Call.spent, h.stage, h.response] at hspent
    cases hspent
  · exact fun hholds => hspends id call hcall hspent (h.holds hid hholds)

theorem Spends.step (h : client.Spends) (hclient : client.Consistent)
    (hstep : client.step event = some client') : client'.Spends := by
  obtain ⟨-, started, hstarts⟩ | ⟨-, hshrinks⟩ := hclient.starts_or_shrinks hstep
  · exact hstarts.spends h
  · exact h.step_of_shrinks hclient (hclient.step_cases hstep) hshrinks

theorem Run.spends {Allowed : SpinelClient → Event → Prop} (hrun : Run Allowed client client')
    (hclient : client.Consistent) (h : client.Spends) : client'.Spends := by
  induction hrun with
  | refl => exact h
  | tail hrun hstep _ ih => exact ih.step (hrun.consistent hclient) hstep

/-! ## The end of a call -/

/-- The call returns in this step. -/
def Finishes (client client' : SpinelClient) (id : Nat) : Prop :=
  ∃ call call', client.calls id = some call ∧ client'.calls id = some call' ∧
    call.stage.finished = false ∧ call'.stage.finished = true

/-- No write fails while the table has the entry of its request. -/
def Tidy (client : SpinelClient) : Event → Prop
  | .writeFailed id => ¬client.Holds id
  | _ => True

/-- Only the step of a call ends it. -/
theorem Finishes.eq_of_setCall {other : Nat} {call' : Call} (h : Finishes client client' id)
    (hcalls : client'.calls = Function.update client.calls other (some call')) : id = other := by
  by_contra hid
  obtain ⟨before, after, hbefore, hafter, hrunning, hfinished⟩ := h
  rw [hcalls, Function.update_of_ne hid, hbefore] at hafter
  cases hafter
  rw [hrunning] at hfinished
  cases hfinished

/-- A call ends with an error of the port only where its write fails. -/
theorem Step.writeFailed_of_ioError (hstep : client.Step event client')
    (hfinishes : Finishes client client' id) (hcall' : client'.calls id = some call')
    (hstage' : call'.stage = .failed .ioError) : event = .writeFailed id := by
  -- the stage that a step of the call itself sets
  have hset : ∀ {other : Nat} {call : Call},
      client'.calls = Function.update client.calls other (some call) →
        id = other ∧ call.stage = .failed .ioError := by
    intro other call hcalls
    have hid := hfinishes.eq_of_setCall hcalls
    rw [hcalls, ← hid, Function.update_self] at hcall'
    cases hcall'
    exact ⟨hid, hstage'⟩
  have hchanges : client'.calls ≠ client.calls := by
    obtain ⟨before, after, hbefore, hafter, hrunning, hfinished⟩ := hfinishes
    intro hcalls
    rw [hcalls, hbefore] at hafter
    cases hafter
    rw [hrunning] at hfinished
    cases hfinished
  cases hstep with
  | start => cases (hset rfl).2
  | transmit => cases (hset rfl).2
  | written => cases (hset rfl).2
  | writeFailed => rw [(hset rfl).1]
  | matched hcall hunanswered hpending htarget =>
    obtain ⟨hid, hstage⟩ := hset rfl
    obtain ⟨before, -, hbefore, -, hrunning, -⟩ := hfinishes
    have hsame : some before = some _ := hbefore.symm.trans (hid ▸ htarget)
    rw [Option.some.inj hsame, hstage] at hrunning
    cases hrunning
  | unmatched => exact absurd rfl hchanges
  | ignored => exact absurd rfl hchanges
  | reset => exact absurd rfl hchanges
  | returned => cases (hset rfl).2
  | closed => cases (hset rfl).2
  | timeout => cases (hset rfl).2
  | cancel hcall hstage hnext =>
    have hstage := (hset rfl).2
    obtain rfl | rfl := hnext
    · cases hstage
    · cases hstage
  | count hcall hstage hnext =>
    have hstage := (hset rfl).2
    obtain rfl | rfl := hnext
    · cases hstage
    · cases hstage
  | recover => cases (hset rfl).2

/-- A call leaves its entry behind exactly if its write fails while the entry is there. -/
theorem holds_iff_of_finishes (hclient : client.Consistent) (hspends : client.Spends)
    (hstep : client.step event = some client') (hfinishes : Finishes client client' id) :
    client'.Holds id ↔ ¬client.Tidy event := by
  have hcases := hclient.step_cases hstep
  constructor
  · intro hholds
    have ⟨_, call', _, hcall', _, hfinished⟩ := hfinishes
    have hspent : call'.spent = false := by
      by_contra hspent
      exact hspends.step hclient hstep id call' hcall' (Bool.eq_true_of_not_eq_false hspent) hholds
    have hevent := hcases.writeFailed_of_ioError hfinishes hcall'
      (Call.stage_of_not_spent hspent hfinished)
    subst hevent
    intro htidy
    cases hcases with
    | writeFailed => exact htidy hholds
  · intro htidy
    cases hcases with
    | @writeFailed other call hcall hstage =>
      have hid : id = other := hfinishes.eq_of_setCall rfl
      subst hid
      exact Classical.not_not.mp htidy
    | _ => exact absurd trivial htidy

/-- In a run without such a failure, no call that returned has an entry. -/
theorem Run.not_holds_of_finished (hrun : Run Tidy new client) (hcall : client.calls id = some call)
    (hfinished : call.stage.finished = true) : ¬client.Holds id := by
  induction hrun generalizing call with
  | refl => cases hcall
  | @tail client client' event hrun hstep htidy ih =>
    have hclient := hrun.consistent consistent_new
    have hspends := hrun.spends consistent_new spends_new
    by_cases hfinishes : Finishes client client' id
    · exact fun hholds => (holds_iff_of_finishes hclient hspends hstep hfinishes).mp hholds htidy
    · -- the call is new, or it had returned before
      obtain ⟨-, started, hstarts⟩ | ⟨-, hshrinks⟩ := hclient.starts_or_shrinks hstep
      · rw [hstarts.calls] at hcall
        obtain ⟨-, ⟨⟩⟩ | ⟨hid, hcall⟩ := of_update_eq_some hcall
        · rw [hstarts.stage] at hfinished
          cases hfinished
        · exact fun hholds => ih hcall hfinished (hstarts.holds hid hholds)
      · obtain ⟨-, hnone⟩ | ⟨before, -, hbefore, -⟩ := hshrinks.calls id
        · rw [hnone] at hcall
          cases hcall
        · have hearlier : before.stage.finished = true := by
            by_contra hrunning
            exact hfinishes
              ⟨before, call, hbefore, hcall, Bool.eq_false_of_not_eq_true hrunning, hfinished⟩
          exact fun hholds => ih hbefore hearlier (hshrinks.holds hholds)

/-! ## Free identifiers -/

/-- The identifiers that requests get. -/
def tids : List UInt8 := [1, 2, 3, 4, 5, 6, 7]

theorem next_mem_tids (tid : UInt8) : 1 + tid % 7 ∈ tids := by
  have hlt : tid.toNat % 7 < 7 := Nat.mod_lt _ (by decide)
  have hmod : tid % 7 = UInt8.ofNat (tid.toNat % 7) := by
    rw [← UInt8.toNat_inj, UInt8.toNat_mod, UInt8.toNat_ofNat']
    change tid.toNat % 7 = tid.toNat % 7 % 256
    omega
  have hall : ∀ n < 7, 1 + UInt8.ofNat n ∈ tids := by decide
  rw [hmod]
  exact hall _ hlt

theorem Run.nextTid_mem {Allowed : SpinelClient → Event → Prop} (hrun : Run Allowed new client) :
    client.protocol.nextTid ∈ tids := by
  induction hrun with
  | refl => decide
  | @tail client client' event hrun hstep _ ih =>
    have hclient := hrun.consistent consistent_new
    have hcases := hclient.step_cases hstep
    cases hstart : event.isStart with
    | true =>
      cases hcases with
      | start hprepare =>
        obtain ⟨-, hnext, -⟩ := prepareRequest_spec hprepare
        change SpinelProtocol.nextTid _ ∈ tids
        rw [hnext]
        exact next_mem_tids _
      | _ => cases hstart
    | false => rwa [(hcases.shrinks hstart).nextTid]

/-- The loop of `prepare_request` comes to a free identifier if it does not first come around. -/
theorem freeTid_of_free {pendingFrames : UInt8 → Option Nat} {nextTid tid : UInt8} {n fuel : Nat}
    (hfuel : n < fuel) (hfree : pendingFrames (tidAfter tid n) = none)
    (hround : ∀ m < n, tidAfter tid (m + 1) ≠ nextTid) :
    ∃ free, SpinelProtocol.freeTid pendingFrames nextTid fuel tid = .ok free := by
  induction fuel generalizing tid n with
  | zero => omega
  | succ fuel ih =>
    rw [SpinelProtocol.freeTid]
    by_cases hpending : (pendingFrames tid).isSome = true
    · rw [if_pos hpending]
      cases n with
      | zero =>
        change pendingFrames tid = none at hfree
        rw [hfree] at hpending
        cases hpending
      | succ n =>
        have hne : 1 + tid % 7 ≠ nextTid := hround 0 (by omega)
        obtain ⟨free, hrest⟩ := ih (Nat.lt_of_succ_lt_succ hfuel) hfree
          fun m hm => hround (m + 1) (Nat.succ_lt_succ hm)
        exact ⟨free, Checked.bind_eq_ok.mpr ⟨(), if_pos hne, hrest⟩⟩
    · rw [if_neg hpending]
      exact ⟨tid, rfl⟩

/-- A request is prepared as long as one identifier is free. -/
theorem prepareRequest_of_free {protocol : SpinelProtocol} {tid : UInt8} (channel : Nat)
    (commandId : SpinelCommandId) (payload : Bytes) (hnext : protocol.nextTid ∈ tids)
    (htid : tid ∈ tids) (hfree : protocol.pendingFrames tid = none) :
    ∃ result, protocol.prepareRequest channel commandId payload = .ok result := by
  have hcycle : ∀ nextTid ∈ tids, ∀ tid ∈ tids, ∃ n < 7, tidAfter nextTid n = tid ∧
      ∀ m < n, tidAfter nextTid (m + 1) ≠ nextTid := by decide +kernel
  obtain ⟨n, hn, htid, hround⟩ := hcycle _ hnext _ htid
  obtain ⟨free, hfound⟩ := freeTid_of_free (by omega : n < 8) (htid ▸ hfree) hround
  exact ⟨_, Checked.bind_eq_ok.mpr ⟨free, hfound, rfl⟩⟩

/-- The calls that have not returned. -/
def active (client : SpinelClient) : Finset Nat :=
  (Finset.range client.nextCall).filter fun id =>
    (client.calls id).any (fun call => !call.stage.finished) = true

/-- With an entry under each identifier, and none of a call that returned, seven calls run. -/
theorem seven_le_active (hclient : client.Consistent)
    (hreleased : ∀ id call, client.calls id = some call → call.stage.finished = true →
      ¬client.Holds id)
    (hfull : ∀ tid ∈ tids, client.protocol.pendingFrames tid ≠ none) : 7 ≤ client.active.card := by
  have hentry : ∀ tid ∈ tids, ∃ id call, client.protocol.pendingFrames tid = some id ∧
      client.calls id = some call ∧ call.tid = tid := by
    intro tid htid
    obtain ⟨id, hpending⟩ := Option.ne_none_iff_exists'.mp (hfull tid htid)
    obtain ⟨call, hcall, hsame⟩ := hclient.pending tid id hpending
    exact ⟨id, call, hpending, hcall, hsame⟩
  change tids.toFinset.card ≤ client.active.card
  apply Finset.card_le_card_of_injOn fun tid => (client.protocol.pendingFrames tid).getD 0
  · intro tid htid
    obtain ⟨id, call, hpending, hcall, -⟩ := hentry tid (List.mem_toFinset.mp htid)
    have hrunning : call.stage.finished = false := by
      by_contra hfinished
      exact hreleased id call hcall (Bool.eq_true_of_not_eq_false hfinished) ⟨tid, hpending⟩
    have hlt : id < client.nextCall := by
      by_contra hge
      rw [hclient.fresh id (by omega)] at hcall
      cases hcall
    simp only [hpending, Option.getD_some]
    apply Finset.mem_coe.mpr
    rw [active, Finset.mem_filter, Finset.mem_range, hcall]
    exact ⟨hlt, by rw [Option.any_some, hrunning]; rfl⟩
  · intro tid htid tid' htid' hsame
    obtain ⟨id, call, hpending, hcall, hcalltid⟩ := hentry tid (List.mem_toFinset.mp htid)
    obtain ⟨id', call', hpending', hcall', hcalltid'⟩ := hentry tid' (List.mem_toFinset.mp htid')
    simp only [hpending, hpending', Option.getD_some] at hsame
    subst hsame
    cases hcall.symm.trans hcall'
    exact hcalltid.symm.trans hcalltid'

/-- A call that returns has no entry from then on, unless its write failed while the entry was
there.  In a run without such a failure, identifiers are free while fewer than seven calls run. -/
theorem spinel_identifiers_released (client : SpinelClient) :
    (Run (fun _ _ => True) new client → ∀ event client' id, client.step event = some client' →
      Finishes client client' id →
      ((∀ client'', Run (fun _ _ => True) client' client'' → ¬client''.Holds id) ↔
        client.Tidy event)) ∧
    (Run Tidy new client →
      (∀ id call, client.calls id = some call → call.stage.finished = true → ¬client.Holds id) ∧
      (client.active.card < 7 → ∀ commandId payload, ∃ result,
        client.protocol.prepareRequest client.nextCall commandId payload = .ok result)) := by
  constructor
  · intro hrun event client' id hstep hfinishes
    have hclient := hrun.consistent consistent_new
    have hspends := hrun.spends consistent_new spends_new
    have hiff := holds_iff_of_finishes hclient hspends hstep hfinishes
    constructor
    · intro hnever
      by_contra htidy
      exact hnever client' (.refl _) (hiff.mpr htidy)
    · intro htidy client'' hrun'
      obtain ⟨-, call', -, hcall', -⟩ := hfinishes
      exact hrun'.not_holds (hclient.step hstep) hcall' fun hholds => hiff.mp hholds htidy
  · intro hrun
    have hreleased : ∀ id call, client.calls id = some call → call.stage.finished = true →
        ¬client.Holds id := fun id call => hrun.not_holds_of_finished
    refine ⟨hreleased, fun hfew commandId payload => ?_⟩
    by_contra hpanic
    have hfull : ∀ tid ∈ tids, client.protocol.pendingFrames tid ≠ none := fun tid htid hfree =>
      hpanic (prepareRequest_of_free _ commandId payload hrun.nextTid_mem htid hfree)
    have hseven := seven_le_active (hrun.consistent consistent_new) hreleased hfull
    omega

namespace Example

/-- Seven commands in a row whose writes fail. -/
def unplugged : List Event :=
  [get, .writeFailed 0, get, .writeFailed 1, get, .writeFailed 2, get, .writeFailed 3,
    get, .writeFailed 4, get, .writeFailed 5, get, .writeFailed 6]

end Example

open SpinelClient.Example in
/-- After seven failed writes no call runs, each of the seven still has its entry, and the next
command panics. -/
theorem spinel_identifiers_leaked :
    ∃ client, Run (fun _ _ => True) new client ∧ client.active.card = 0 ∧
      (∀ id < 7, (client.calls id).map Call.stage = some (.failed .ioError) ∧ client.Holds id) ∧
      client.protocol.prepareRequest client.nextCall .propValueGet [0x02] =
        .error (.explicit "All Spinel TIDs are in flight") := by
  obtain ⟨client, hplay⟩ : ∃ client, unplugged.foldlM step new = some client := ⟨_, rfl⟩
  refine ⟨client, run_of_foldlM hplay, ?_, ?_, ?_⟩
  · cases hplay
    rfl
  · have hall : ∀ id < 7, (client.calls id).map Call.stage = some (.failed .ioError) ∧
        client.protocol.pendingFrames (UInt8.ofNat (id + 1)) = some id := by
      cases hplay
      decide
    exact fun id hid => ⟨(hall id hid).1, UInt8.ofNat (id + 1), (hall id hid).2⟩
  · cases hplay
    rfl

end Ziggurat.SpinelClient
