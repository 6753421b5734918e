import Ziggurat.Nwk.Transactions

/-!
# The broadcast transaction table over whole histories

The table is cleaned up only when a broadcast is received, and a transaction ends a delivery time
after it was created, however many copies were heard since.  A history has the calls on the table,
newest first.

`broadcast_dedup` says which received broadcasts are fresh, in terms of the times at which the
transactions of a key were created, and whom a transaction was heard from.

A transaction that is over stays in the table until the next broadcast of any key is received, and
an absent one counts as acknowledged.  `passively_acked_unrelated_iff` says when the calls for
other keys change the answer.
-/

namespace Ziggurat

namespace NwkBroadcasts

/-! ## Histories -/

/-- A call that changes the table. -/
inductive Call where
  | filterReceived (source : Nwk) (sequenceNumber : UInt8) (sender : Nwk) (audience : List Nwk)
      (now : Instant) (deliveryTime : Duration)
  | recordTransmission (source : Nwk) (sequenceNumber : UInt8) (audience : List Nwk)
      (now : Instant) (deliveryTime : Duration)
  deriving DecidableEq

namespace Call

def key : Call → SourceNumber
  | .filterReceived source sequenceNumber .. | .recordTransmission source sequenceNumber .. =>
    .mk source sequenceNumber

def now : Call → Instant
  | .filterReceived _ _ _ _ now _ | .recordTransmission _ _ _ now _ => now

def deliveryTime : Call → Duration
  | .filterReceived _ _ _ _ _ deliveryTime | .recordTransmission _ _ _ _ deliveryTime =>
    deliveryTime

/-- The neighbor that a received broadcast was heard from. -/
def sender : Call → List Nwk
  | .filterReceived _ _ sender .. => [sender]
  | .recordTransmission .. => []

def isReceive : Call → Bool
  | .filterReceived .. => true
  | .recordTransmission .. => false

def apply (broadcasts : NwkBroadcasts) : Call → NwkBroadcasts
  | .filterReceived source sequenceNumber sender audience now deliveryTime =>
    (broadcasts.filterReceived source sequenceNumber sender audience now deliveryTime).2
  | .recordTransmission source sequenceNumber audience now deliveryTime =>
    broadcasts.recordTransmission source sequenceNumber audience now deliveryTime

/-- The call creates a transaction: a transmission does, and a received broadcast that is reported
as fresh. -/
def creates (broadcasts : NwkBroadcasts) : Call → Bool
  | .filterReceived source sequenceNumber sender audience now deliveryTime =>
    !(broadcasts.filterReceived source sequenceNumber sender audience now deliveryTime).1
  | .recordTransmission .. => true

end Call

/-- The table after a history. -/
def replay : List Call → NwkBroadcasts
  | [] => {}
  | call :: earlier => call.apply (replay earlier)

/-- The times at which a transaction for a key was created. -/
def creations (key : SourceNumber) : List Call → List Instant
  | [] => []
  | call :: earlier =>
    if call.key = key ∧ call.creates (replay earlier) = true then
      call.now :: creations key earlier
    else creations key earlier

/-- The senders of a key since its last transaction was created. -/
def heardSince (key : SourceNumber) : List Call → List Nwk
  | [] => []
  | call :: earlier =>
    if call.key = key then
      call.sender ++ if call.creates (replay earlier) then [] else heardSince key earlier
    else heardSince key earlier

/-- The times do not run back. -/
def Chronological (calls : List Call) : Prop :=
  calls.Pairwise fun later earlier => earlier.now ≤ later.now

/-! ## One call -/

/-- The transaction of a key that is not over. -/
def live (broadcasts : NwkBroadcasts) (key : SourceNumber) (now : Instant) : Option Transaction :=
  (broadcasts.table.get key).filter fun transaction => now < transaction.expirationTime

theorem live_eq_some {broadcasts : NwkBroadcasts} {key : SourceNumber} {now : Instant}
    {transaction : Transaction} :
    broadcasts.live key now = some transaction ↔
      broadcasts.table.get key = some transaction ∧ now < transaction.expirationTime := by
  rw [live, Option.filter_eq_some_iff, decide_eq_true_iff]

variable {broadcasts : NwkBroadcasts} {source : Nwk} {sequenceNumber : UInt8} {sender : Nwk}
  {audience : List Nwk} {now : Instant} {deliveryTime : Duration}

theorem get_retain_live (key : SourceNumber) :
    (broadcasts.table.retain fun _ transaction => decide (now < transaction.expirationTime)).get
      key = broadcasts.live key now :=
  FlatMap.get_retain ..

/-- A received broadcast is known if there is a transaction that is not over. -/
theorem filterReceived_fst : (broadcasts.filterReceived source sequenceNumber sender audience now
    deliveryTime).1 = (broadcasts.live (.mk source sequenceNumber) now).isSome := by
  unfold filterReceived
  dsimp only
  rw [get_retain_live]
  cases broadcasts.live (.mk source sequenceNumber) now <;> rfl

/-- It is the transaction of its key that is new or has one more sender, and what is over is
removed. -/
theorem get_filterReceived (other : SourceNumber) :
    (broadcasts.filterReceived source sequenceNumber sender audience now
      deliveryTime).2.table.get other =
    if other = .mk source sequenceNumber then
      some (match broadcasts.live (.mk source sequenceNumber) now with
        | some transaction =>
          { transaction with heardFrom := transaction.heardFrom.insert sender () }
        | none =>
          { expirationTime := now.add deliveryTime
            expectedRelayers := audience
            heardFrom := FlatMap.new.insert sender () })
    else broadcasts.live other now := by
  unfold filterReceived
  dsimp only
  rw [get_retain_live]
  cases broadcasts.live (.mk source sequenceNumber) now with
  | some transaction => exact (FlatMap.get_set ..).trans (by rw [get_retain_live])
  | none => exact (FlatMap.get_insert ..).trans (by rw [get_retain_live])

theorem get_recordTransmission (other : SourceNumber) :
    (broadcasts.recordTransmission source sequenceNumber audience now deliveryTime).table.get
      other =
    if other = .mk source sequenceNumber then
      some
        { expirationTime := now.add deliveryTime
          expectedRelayers := audience
          heardFrom := .new }
    else broadcasts.table.get other :=
  FlatMap.get_insert ..

/-- A call for another key leaves what is not over. -/
theorem Call.get_apply_of_ne {call : Call} {key : SourceNumber} (h : key ≠ call.key) :
    (call.apply broadcasts).table.get key =
      if call.isReceive then broadcasts.live key call.now else broadcasts.table.get key := by
  cases call with
  | filterReceived => exact (get_filterReceived key).trans (if_neg h)
  | recordTransmission => exact (get_recordTransmission key).trans (if_neg h)

/-- A call for a key begins a transaction, or adds the sender to the one that is not over. -/
theorem Call.get_apply_self {call : Call} :
    (call.creates broadcasts = true ∧ ∃ transaction,
      (call.apply broadcasts).table.get call.key = some transaction ∧
      transaction.expirationTime = call.now.add call.deliveryTime ∧
      ∀ nwk, transaction.heardFrom.containsKey nwk = true ↔ nwk ∈ call.sender) ∨
    (call.creates broadcasts = false ∧ ∃ known transaction,
      broadcasts.live call.key call.now = some known ∧
      (call.apply broadcasts).table.get call.key = some transaction ∧
      transaction.expirationTime = known.expirationTime ∧
      ∀ nwk, transaction.heardFrom.containsKey nwk = true ↔
        nwk ∈ call.sender ∨ known.heardFrom.containsKey nwk = true) := by
  have hinsert : ∀ (heard : FlatMap Nwk Unit) (sender nwk : Nwk),
      (heard.insert sender ()).containsKey nwk = true ↔
        nwk ∈ [sender] ∨ heard.containsKey nwk = true := by
    intro heard sender nwk
    rw [FlatMap.containsKey_eq_isSome, FlatMap.containsKey_eq_isSome, FlatMap.get_insert,
      List.mem_singleton]
    split
    next heq => exact iff_of_true rfl (.inl heq)
    next hne => exact ⟨.inr, Or.rec (absurd · hne) id⟩
  cases call with
  | recordTransmission source sequenceNumber audience now deliveryTime =>
    refine .inl ⟨rfl, _, (get_recordTransmission _).trans (if_pos rfl), rfl, fun nwk => ?_⟩
    exact iff_of_false Bool.false_ne_true List.not_mem_nil
  | filterReceived source sequenceNumber sender audience now deliveryTime =>
    have hget := (@get_filterReceived broadcasts source sequenceNumber sender audience now
      deliveryTime (.mk source sequenceNumber)).trans (if_pos rfl)
    have hknown := @filterReceived_fst broadcasts source sequenceNumber sender audience now
      deliveryTime
    cases hlive : broadcasts.live (.mk source sequenceNumber) now with
    | none =>
      rw [hlive] at hget hknown
      refine .inl ⟨congrArg not hknown, _, hget, rfl, fun nwk => ?_⟩
      refine (hinsert .new sender nwk).trans (or_iff_left ?_)
      exact Bool.false_ne_true
    | some known =>
      rw [hlive] at hget hknown
      exact .inr ⟨congrArg not hknown, known, _, hlive, hget, rfl,
        hinsert known.heardFrom sender⟩

/-! ## Whole histories -/

section

variable {calls : List Call} {key : SourceNumber}

/-- Whether or not the transaction of a key is over, it was heard from the senders since it was
created. -/
theorem heardFrom_replay {transaction : Transaction}
    (h : (replay calls).table.get key = some transaction) (nwk : Nwk) :
    transaction.heardFrom.containsKey nwk = true ↔ nwk ∈ heardSince key calls := by
  induction calls generalizing transaction with
  | nil => exact absurd h.symm (Option.some_ne_none _)
  | cons call earlier ih =>
    rw [heardSince]
    by_cases hkey : call.key = key
    · subst hkey
      rw [if_pos rfl, List.mem_append]
      obtain ⟨hcreates, created, hget, -, hheard⟩ |
        ⟨hcreates, known, added, hlive, hget, -, hheard⟩ :=
        @Call.get_apply_self (replay earlier) call
      · cases hget.symm.trans h
        rw [hheard, if_pos hcreates]
        exact (or_iff_left List.not_mem_nil).symm
      · cases hget.symm.trans h
        rw [hheard, hcreates, if_neg Bool.false_ne_true, ih (live_eq_some.mp hlive).1]
    · rw [if_neg hkey]
      rw [replay, Call.get_apply_of_ne (Ne.symm hkey)] at h
      split at h
      · exact ih (live_eq_some.mp h).1
      · exact ih h

/-- A transaction ends a delivery time after it was created. -/
theorem exists_creation (hconstant : ∀ call ∈ calls, call.deliveryTime = deliveryTime)
    {transaction : Transaction} (h : (replay calls).table.get key = some transaction) :
    ∃ created ∈ creations key calls, transaction.expirationTime = created.add deliveryTime := by
  induction calls generalizing transaction with
  | nil => exact absurd h.symm (Option.some_ne_none _)
  | cons call earlier ih =>
    obtain ⟨hcall, hconstant⟩ := List.forall_mem_cons.mp hconstant
    rw [creations]
    by_cases hkey : call.key = key
    · subst hkey
      obtain ⟨hcreates, created, hget, hexpires, -⟩ |
        ⟨hcreates, known, added, hlive, hget, hexpires, -⟩ :=
        @Call.get_apply_self (replay earlier) call
      · cases hget.symm.trans h
        rw [if_pos ⟨rfl, hcreates⟩]
        exact ⟨call.now, List.mem_cons_self, hcall ▸ hexpires⟩
      · cases hget.symm.trans h
        rw [if_neg fun hnew => Bool.false_ne_true (hcreates.symm.trans hnew.2), hexpires]
        exact ih hconstant (live_eq_some.mp hlive).1
    · rw [if_neg fun hnew => hkey hnew.1]
      rw [replay, Call.get_apply_of_ne (Ne.symm hkey)] at h
      split at h
      · exact ih hconstant (live_eq_some.mp h).1
      · exact ih hconstant h

theorem le_of_mem_creations {latest : Instant} (hlatest : ∀ call ∈ calls, call.now ≤ latest)
    {created : Instant} (h : created ∈ creations key calls) : created ≤ latest := by
  induction calls with
  | nil => exact absurd h List.not_mem_nil
  | cons call earlier ih =>
    obtain ⟨hcall, hearlier⟩ := List.forall_mem_cons.mp hlatest
    rw [creations] at h
    split at h
    · obtain rfl | h := List.mem_cons.mp h
      · exact hcall
      · exact ih hearlier h
    · exact ih hearlier h

/-- A transaction that was created less than a delivery time ago is in the table. -/
theorem exists_live (hconstant : ∀ call ∈ calls, call.deliveryTime = deliveryTime)
    (hchronological : Chronological calls) (hnow : ∀ call ∈ calls, call.now ≤ now)
    {created : Instant} (hcreated : created ∈ creations key calls)
    (hwithin : now < created.add deliveryTime) :
    ∃ transaction, (replay calls).live key now = some transaction := by
  induction calls with
  | nil => exact absurd hcreated List.not_mem_nil
  | cons call earlier ih =>
    obtain ⟨hcall, hconstant⟩ := List.forall_mem_cons.mp hconstant
    obtain ⟨hlatest, hchronological⟩ := List.pairwise_cons.mp hchronological
    obtain ⟨hcallNow, hnow⟩ := List.forall_mem_cons.mp hnow
    rw [creations] at hcreated
    by_cases hkey : call.key = key
    · subst hkey
      obtain ⟨hcreates, transaction, hget, hexpires, -⟩ |
        ⟨hcreates, known, transaction, hlive, hget, hexpires, -⟩ :=
        @Call.get_apply_self (replay earlier) call
      · -- no earlier transaction outlasts the new one
        have hle : created ≤ call.now := by
          rw [if_pos ⟨rfl, hcreates⟩] at hcreated
          obtain rfl | hcreated := List.mem_cons.mp hcreated
          · exact le_refl _
          · exact le_of_mem_creations hlatest hcreated
        refine ⟨transaction, live_eq_some.mpr ⟨hget, ?_⟩⟩
        rw [hexpires, hcall]
        exact hwithin.trans_le (Instant.add_le_add hle (Nat.le_refl _))
      · rw [if_neg fun hnew => Bool.false_ne_true (hcreates.symm.trans hnew.2)] at hcreated
        obtain ⟨found, hfound⟩ := ih hconstant hchronological hnow hcreated
        obtain ⟨hfound, hlasts⟩ := live_eq_some.mp hfound
        cases hfound.symm.trans (live_eq_some.mp hlive).1
        exact ⟨transaction, live_eq_some.mpr ⟨hget, hexpires ▸ hlasts⟩⟩
    · rw [if_neg fun hnew => hkey hnew.1] at hcreated
      obtain ⟨found, hfound⟩ := ih hconstant hchronological hnow hcreated
      obtain ⟨hfound, hlasts⟩ := live_eq_some.mp hfound
      refine ⟨found, live_eq_some.mpr ⟨?_, hlasts⟩⟩
      rw [replay, Call.get_apply_of_ne (Ne.symm hkey)]
      split
      · exact live_eq_some.mpr ⟨hfound, hcallNow.trans_lt hlasts⟩
      · exact hfound

/-- There is a transaction that is not over if one was created less than a delivery time ago. -/
theorem isSome_live_replay (hconstant : ∀ call ∈ calls, call.deliveryTime = deliveryTime)
    (hchronological : Chronological calls) (hnow : ∀ call ∈ calls, call.now ≤ now) :
    ((replay calls).live key now).isSome = true ↔
      ∃ created ∈ creations key calls, now < created.add deliveryTime := by
  rw [Option.isSome_iff_exists]
  constructor
  · rintro ⟨transaction, hlive⟩
    obtain ⟨hget, hlasts⟩ := live_eq_some.mp hlive
    obtain ⟨created, hcreated, hexpires⟩ := exists_creation hconstant hget
    exact ⟨created, hcreated, hexpires ▸ hlasts⟩
  · rintro ⟨created, hcreated, hwithin⟩
    exact exists_live hconstant hchronological hnow hcreated hwithin

theorem lt_add_iff {created : Instant} (hlast : now ≤ Instant.last) :
    now < created.add deliveryTime ↔ now ≠ Instant.last ∧ now < created + deliveryTime := by
  unfold Instant.add
  lia

/-- A received broadcast is fresh if the last transaction for its key was created a delivery time
ago or more; at the last instant of the clock every one is.  It is heard from the senders since
then. -/
theorem broadcast_dedup (calls : List Call) (deliveryTime : Duration)
    (hconstant : ∀ call ∈ calls, call.deliveryTime = deliveryTime)
    (hchronological : Chronological calls) :
    (∀ source sequenceNumber sender audience now, (∀ call ∈ calls, call.now ≤ now) →
      now ≤ Instant.last →
      (((replay calls).filterReceived source sequenceNumber sender audience now
        deliveryTime).1 = false ↔
      now = Instant.last ∨ ∀ created ∈ creations (.mk source sequenceNumber) calls,
        created + deliveryTime ≤ now)) ∧
    (∀ call earlier, call :: earlier <:+ calls → call.isReceive = true →
      call.creates (replay earlier) = true → call.now < Instant.last →
      ∀ created ∈ creations call.key earlier, created + deliveryTime ≤ call.now) ∧
    ∀ key transaction, (replay calls).table.get key = some transaction →
      ∀ nwk, transaction.heardFrom.containsKey nwk = true ↔ nwk ∈ heardSince key calls := by
  have hfresh : ∀ {calls : List Call}, (∀ call ∈ calls, call.deliveryTime = deliveryTime) →
      Chronological calls → ∀ source sequenceNumber sender audience now,
      (∀ call ∈ calls, call.now ≤ now) → now ≤ Instant.last →
      (((replay calls).filterReceived source sequenceNumber sender audience now
        deliveryTime).1 = false ↔
      now = Instant.last ∨ ∀ created ∈ creations (.mk source sequenceNumber) calls,
        created + deliveryTime ≤ now) := by
    intro calls hconstant hchronological source sequenceNumber sender audience now hnow hlast
    rw [filterReceived_fst, ← Bool.not_eq_true, isSome_live_replay hconstant hchronological hnow]
    simp only [lt_add_iff hlast]
    grind
  refine ⟨hfresh hconstant hchronological, fun call earlier hsuffix hreceive hcreates hlast => ?_,
    fun key transaction hget => heardFrom_replay hget⟩
  have hold : ∀ other ∈ earlier, other ∈ calls := fun other hother =>
    hsuffix.subset (List.mem_cons_of_mem _ hother)
  obtain ⟨hlatest, hearlier⟩ := List.pairwise_cons.mp (hchronological.sublist hsuffix.sublist)
  cases call with
  | recordTransmission => cases hreceive
  | filterReceived source sequenceNumber sender audience now duration =>
    have hduration : duration = deliveryTime := hconstant _ (hsuffix.subset List.mem_cons_self)
    subst hduration
    have hiff := hfresh (fun other hother => hconstant other (hold other hother)) hearlier source
      sequenceNumber sender audience now hlatest hlast.le
    exact (hiff.mp (Bool.not_eq_true' _ ▸ hcreates)).resolve_left hlast.ne

namespace Example

/-- A broadcast of node 5 with sequence number 1, heard from node 7. -/
def heard (now : Instant) : Call := .filterReceived 5 1 7 [] now 9000000

/-- Its transmission. -/
def resent (now : Instant) : Call := .recordTransmission 5 1 [] now 9000000

end Example

open NwkBroadcasts.Example in
/-- The copy after nine seconds is fresh again. -/
theorem broadcast_dedup_copies : Chronological [heard 8999999, heard 0] ∧
    ((replay [heard 8999999, heard 0]).filterReceived 5 1 7 [] 9000000 9000000).1 = false := by
  have hchronological : Chronological [heard 8999999, heard 0] :=
    List.pairwise_pair.mpr (by decide)
  refine ⟨hchronological, ?_⟩
  refine ((broadcast_dedup [heard 8999999, heard 0] 9000000 (by decide) hchronological).1 5 1 7 []
    9000000 (by decide) (by decide)).mpr (.inr ?_)
  decide +kernel

open NwkBroadcasts.Example in
/-- A broadcast may be transmitted right after it was reported as fresh, and at the last instant of
the clock each copy is fresh. -/
theorem broadcast_dedup_close :
    (Chronological [resent 1, heard 0] ∧ creations (.mk 5 1) [resent 1, heard 0] = [1, 0]) ∧
    (heard Instant.last).creates (replay [heard Instant.last]) = true ∧
    creations (.mk 5 1) [heard Instant.last] = [Instant.last] := by
  refine ⟨⟨List.pairwise_pair.mpr (by decide), ?_⟩, ?_, ?_⟩ <;> decide +kernel

/-! ## The calls for other keys -/

/-- The calls of a history for a key. -/
def callsFor (key : SourceNumber) (calls : List Call) : List Call :=
  calls.filter fun call => call.key = key

/-- The calls after the last one for a key. -/
def callsAfter (key : SourceNumber) (calls : List Call) : List Call :=
  calls.takeWhile fun call => call.key ≠ key

/-- A broadcast of another key is received after the last call for a key, when the transaction of
the key is over. -/
def Swept (key : SourceNumber) (calls : List Call) : Prop :=
  ∃ transaction, (replay (callsFor key calls)).table.get key = some transaction ∧
    ∃ call ∈ callsAfter key calls, call.isReceive = true ∧ transaction.expirationTime ≤ call.now

/-- A call sees of its key's transaction only whether it is over. -/
theorem Call.get_apply_congr {other : NwkBroadcasts} {call : Call}
    (h : broadcasts.live call.key call.now = other.live call.key call.now) :
    (call.apply broadcasts).table.get call.key = (call.apply other).table.get call.key := by
  cases call with
  | recordTransmission =>
    exact ((get_recordTransmission _).trans (if_pos rfl)).trans
      ((get_recordTransmission _).trans (if_pos rfl)).symm
  | filterReceived source sequenceNumber sender audience now deliveryTime =>
    replace h : broadcasts.live (.mk source sequenceNumber) now =
      other.live (.mk source sequenceNumber) now := h
    show (broadcasts.filterReceived ..).2.table.get (.mk source sequenceNumber) =
      (other.filterReceived ..).2.table.get (.mk source sequenceNumber)
    rw [get_filterReceived, get_filterReceived, h]

/-- No received broadcast after the last call for a key finds its transaction over. -/
def Spared (key : SourceNumber) (calls : List Call) (transaction : Transaction) : Prop :=
  ∀ call ∈ callsAfter key calls, call.isReceive = true → call.now < transaction.expirationTime

/-- The transaction of a key is that of the calls for the key alone, unless a later received
broadcast found it over. -/
theorem get_replay_callsFor (hchronological : Chronological calls) (transaction : Transaction) :
    (replay calls).table.get key = some transaction ↔
      (replay (callsFor key calls)).table.get key = some transaction ∧
        Spared key calls transaction := by
  induction calls generalizing transaction with
  | nil => exact iff_of_false nofun fun h => absurd h.1.symm (Option.some_ne_none _)
  | cons call earlier ih =>
    obtain ⟨hlatest, hchronological⟩ := List.pairwise_cons.mp hchronological
    by_cases hkey : call.key = key
    · subst hkey
      have hfor : callsFor call.key (call :: earlier) = call :: callsFor call.key earlier :=
        List.filter_cons_of_pos (decide_eq_true rfl)
      have hafter : callsAfter call.key (call :: earlier) = [] :=
        List.takeWhile_cons_of_neg (by simp)
      have hlive : (replay earlier).live call.key call.now =
          (replay (callsFor call.key earlier)).live call.key call.now := by
        refine Option.ext fun found => ?_
        rw [live_eq_some, live_eq_some, ih hchronological found]
        refine ⟨fun h => ⟨h.1.1, h.2⟩, fun h => ⟨⟨h.1, fun other hother _ => ?_⟩, h.2⟩⟩
        -- the earlier calls were made before this one, which does not find it over
        have hmem : other ∈ earlier := List.takeWhile_sublist _ |>.subset hother
        exact (hlatest other hmem).trans_lt h.2
      rw [hfor, replay, replay, Call.get_apply_congr hlive]
      refine (and_iff_left ?_).symm
      rw [Spared, hafter]
      exact fun _ hmem => absurd hmem List.not_mem_nil
    · have hfor : callsFor key (call :: earlier) = callsFor key earlier :=
        List.filter_cons_of_neg (by simpa using hkey)
      have hafter : callsAfter key (call :: earlier) = call :: callsAfter key earlier :=
        List.takeWhile_cons_of_pos (by simpa using hkey)
      rw [hfor, replay, Call.get_apply_of_ne (Ne.symm hkey), Spared, hafter, List.forall_mem_cons]
      have hrest := ih hchronological transaction
      cases hreceive : call.isReceive with
      | false =>
        rw [if_neg Bool.false_ne_true, hrest]
        exact and_congr_right fun _ => (and_iff_right nofun).symm
      | true =>
        rw [if_pos rfl, live_eq_some, hrest, and_assoc]
        refine and_congr_right fun _ => ?_
        rw [and_comm]
        exact and_congr_left fun _ => ⟨fun h _ => h, fun h => h rfl⟩

/-- The answer is that for the calls for the key alone, unless its transaction was removed. -/
theorem passivelyAcked_replay (hchronological : Chronological calls) {liveRelayers : List Nwk}
    {quorum : Nat} :
    (replay calls).passivelyAcked source sequenceNumber liveRelayers quorum = true ↔
      (replay (callsFor (.mk source sequenceNumber) calls)).passivelyAcked source sequenceNumber
        liveRelayers quorum = true ∨ Swept (.mk source sequenceNumber) calls := by
  have hget := @get_replay_callsFor calls (.mk source sequenceNumber) hchronological
  unfold passivelyAcked Swept
  cases hown : (replay (callsFor (.mk source sequenceNumber) calls)).table.get
      (.mk source sequenceNumber) with
  | none =>
    have hnone : (replay calls).table.get (.mk source sequenceNumber) = none := by
      refine Option.eq_none_iff_forall_ne_some.mpr fun transaction hsome => ?_
      exact Option.some_ne_none transaction (((hget transaction).mp hsome).1.symm.trans hown)
    rw [hnone]
    exact iff_of_true rfl (.inl rfl)
  | some transaction =>
    by_cases hspared : Spared (.mk source sequenceNumber) calls transaction
    · rw [(hget transaction).mpr ⟨hown, hspared⟩]
      refine (or_iff_left ?_).symm
      rintro ⟨_, heq, call, hcall, hreceive, hover⟩
      cases heq
      exact absurd (hspared call hcall hreceive) (not_lt_of_ge hover)
    · have hnone : (replay calls).table.get (.mk source sequenceNumber) = none := by
        refine Option.eq_none_iff_forall_ne_some.mpr fun other hsome => ?_
        obtain ⟨hother, hspares⟩ := (hget other).mp hsome
        cases hown.symm.trans hother
        exact hspared hspares
      rw [hnone]
      refine iff_of_true rfl (.inr ⟨transaction, rfl, ?_⟩)
      unfold Spared at hspared
      push Not at hspared
      exact hspared

/-- Two histories with the same calls for a key have the same answer exactly if the calls for the
key alone acknowledge it, or its transaction was removed after it was over in both or in none. -/
theorem passively_acked_unrelated_iff (calls calls' : List Call) (source : Nwk)
    (sequenceNumber : UInt8) (liveRelayers : List Nwk) (quorum : Nat)
    (hchronological : Chronological calls) (hchronological' : Chronological calls')
    (hsame : callsFor (.mk source sequenceNumber) calls =
      callsFor (.mk source sequenceNumber) calls') :
    (replay calls).passivelyAcked source sequenceNumber liveRelayers quorum =
        (replay calls').passivelyAcked source sequenceNumber liveRelayers quorum ↔
      (replay (callsFor (.mk source sequenceNumber) calls)).passivelyAcked source sequenceNumber
          liveRelayers quorum = true ∨
        (Swept (.mk source sequenceNumber) calls ↔ Swept (.mk source sequenceNumber) calls') := by
  rw [Bool.eq_iff_iff, passivelyAcked_replay hchronological, passivelyAcked_replay hchronological',
    ← hsame]
  generalize (replay (callsFor _ calls)).passivelyAcked .. = alone
  cases alone with
  | true => exact iff_of_true (iff_of_true (.inl rfl) (.inl rfl)) (.inl rfl)
  | false =>
    rw [or_iff_right Bool.false_ne_true, or_iff_right Bool.false_ne_true,
      or_iff_right Bool.false_ne_true]

namespace Example

/-- Our broadcast with sequence number 1, which node 7 is to relay. -/
def transmission : Call := .recordTransmission 0 1 [7] 0 9000000

/-- A broadcast of node 5, heard from itself. -/
def unrelated (now : Instant) : Call := .filterReceived 5 1 5 [7] now 9000000

end Example

open NwkBroadcasts.Example in
/-- A broadcast of another node while the window is open changes nothing. -/
theorem passively_acked_unrelated_iff_open :
    (replay [transmission]).passivelyAcked 0 1 [7] 8 =
      (replay [unrelated 1, transmission]).passivelyAcked 0 1 [7] 8 := by
  refine (passively_acked_unrelated_iff [transmission] [unrelated 1, transmission] 0 1 [7] 8
    ?_ ?_ ?_).mpr (.inr ?_)
  · exact List.pairwise_singleton _ _
  · exact List.pairwise_pair.mpr (by decide)
  · decide +kernel
  · refine iff_of_false ?_ ?_
    · rintro ⟨_, -, call, hcall, -⟩
      exact absurd hcall List.not_mem_nil
    · rintro ⟨transaction, hget, call, hcall, -, hover⟩
      cases hget
      obtain rfl := List.mem_singleton.mp hcall
      exact absurd hover (by decide +kernel)

open NwkBroadcasts.Example in
/-- When the window is over, the broadcast that node 7 did not relay is not acknowledged.  With the
broadcast of another node it is. -/
theorem passively_acked_by_unrelated :
    (replay [transmission]).passivelyAcked 0 1 [7] 8 = false ∧
    (replay [unrelated 9000000, transmission]).passivelyAcked 0 1 [7] 8 = true ∧
    callsFor (.mk 0 1) [transmission] = callsFor (.mk 0 1) [unrelated 9000000, transmission] ∧
    Chronological [transmission] ∧ Chronological [unrelated 9000000, transmission] := by
  refine ⟨by decide +kernel, by decide +kernel, by decide +kernel, ?_, ?_⟩
  · exact List.pairwise_singleton _ _
  · exact List.pairwise_pair.mpr (by decide)

end

end NwkBroadcasts

end Ziggurat
