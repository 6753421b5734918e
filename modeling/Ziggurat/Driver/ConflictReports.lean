import Ziggurat.Driver.Footprint

/-!
# Address conflicts are reported once

`handle_address_conflict` is called for every frame of two devices that use one address, and for
every report of another device.  It handles a conflict once in a delivery window: it enters the
conflict into a table, with the time at which our own report is due if we noticed it ourselves.
`drive_conflict_reports` sends the reports that are due, unless another device was first.  An entry
stays in the table until some conflict is handled two windows later.

`ConflictStep` says what a call does to the table, and a history has the calls and what came of
them, newest first.  `ConflictLog.handled_apart` is the distance of two handlings,
`ConflictLog.trail` what the table has about a conflict that was handled, and `ConflictLog.silent`
that nothing is sent that is not owed.
-/

namespace Ziggurat.Driver

open Lib.Stateful

/-! ## The reactor -/

/-- A report is owed, and it is time for it. -/
def AddressConflict.due (conflict : AddressConflict) (now : Instant) : Bool :=
  conflict.reportAt.any (· ≤ now)

/-- The conflicts that are to be reported: the report is due, and no other device was first. -/
def dueReports (conflicts : FlatMap Nwk AddressConflict) (now : Instant) : List Nwk :=
  (conflicts.entries.filter fun (_, conflict) =>
    conflict.due now && !conflict.heardFromNetwork).map Prod.fst

/-- A report that is due is owed no more. -/
def settleReports (conflicts : FlatMap Nwk AddressConflict) (now : Instant) :
    FlatMap Nwk AddressConflict :=
  conflicts.mapVal fun _ conflict =>
    if conflict.due now then { conflict with reportAt := none } else conflict

section

variable (env : Env)

/-- The Network Status broadcast about an address. -/
def conflictReport (address : Nwk) : Broadcast where
  frame := nwkCommandFrame env broadcastRxOnWhenIdle <| .networkStatus
    { statusCode := .addressConflict, networkAddress := address }
  security := .networkKey
  policy := ⟨.userNormal, .critical⟩

/-- One pass of the reactor. -/
def driveConflictReports : NetM Unit := do
  let net ← get
  set { net with addressConflicts := settleReports net.addressConflicts env.now }
  (dueReports net.addressConflicts env.now).forM fun address => do
    -- an error is only logged
    let _ ← sendBroadcast env (conflictReport env address)

end

/-! ## What a pass sends -/

/-- The address that a frame reports a conflict of. -/
def Frame.conflictReported : Frame → Option Nwk
  | .nwk frame _ => match frame.payload with
    | .command (.networkStatus status) =>
      if status.statusCode = .addressConflict then some status.networkAddress else none
    | _ => none
  | .raw _ => none

/-- The conflicts that are reported by broadcasts enqueued between two states, in their order. -/
def reported (net net' : Net) : List Nwk :=
  (List.range' net.sends.nextId (net'.sends.nextId - net.sends.nextId)).filterMap fun id => do
    let record ← net'.sends.broadcasts.records.get id
    let frame ← record.frame
    frame.conflictReported

variable {env : Env}

theorem enqueueBroadcast_record {frame : Frame} {policy : TxPolicy} {schedule : Schedule}
    {net : Net} :
    Ensures net (enqueueBroadcast env frame policy schedule) fun _ net' =>
      net'.addressConflicts = net.addressConflicts ∧
      ∃ record, record.frame = some frame ∧ net'.sends.nextId = net.sends.nextId + 1 ∧
        net'.sends.broadcasts.records =
          net.sends.broadcasts.records.insert net.sends.nextId record := by
  intro id net' h
  rw [enqueueBroadcast_eq_ok env net (room_of_admission h)] at h
  cases h
  exact ⟨rfl, _, rfl, rfl, rfl⟩

/-- The broadcast about an address is enqueued, whatever the budget. -/
theorem sendBroadcast_conflictReport {address : Nwk} {net : Net} :
    Ensures net (sendBroadcast env (conflictReport env address)) fun _ net' =>
      net'.addressConflicts = net.addressConflicts ∧
      ∃ frame record, Frame.conflictReported frame = some address ∧ record.frame = some frame ∧
        net'.sends.nextId = net.sends.nextId + 1 ∧
        net'.sends.broadcasts.records =
          net.sends.broadcasts.records.insert net.sends.nextId record := by
  have htake : net.broadcastBudget.take (conflictReport env address).policy.trafficClass env.now
      env.tunables.broadcastBudgetTokens env.tunables.broadcastTokenRefill
      env.tunables.broadcastCriticalReserve env.tunables.broadcastForwardingReserve =
    (.admitted, net.broadcastBudget.refill env.now env.tunables.broadcastBudgetTokens.toNat
      env.tunables.broadcastTokenRefill) := rfl
  intro result net' h
  unfold sendBroadcast at h
  rw [bind_of_ok rfl, htake] at h
  obtain ⟨_, net₀, hset, h⟩ := bind_eq_ok.mp h
  cases hset
  obtain ⟨number, net₁, hnumber, h⟩ := bind_eq_ok.mp h
  cases hnumber
  obtain ⟨_, net₂, hrecord, h⟩ := bind_eq_ok.mp h
  cases hrecord
  obtain ⟨attempts, net₃, hcopies, h⟩ := bind_eq_ok.mp h
  obtain ⟨-, rfl⟩ := lift_eq_ok.mp hcopies
  obtain ⟨id, net₄, henqueue, h⟩ := bind_eq_ok.mp h
  -- the frame is not for the children that sleep
  obtain ⟨_, net₅, hfanOut, h⟩ := bind_eq_ok.mp h
  cases hfanOut
  cases h
  obtain ⟨hconflicts, record, hrecord⟩ := enqueueBroadcast_record _ _ henqueue
  exact ⟨hconflicts, _, record, rfl, hrecord⟩

/-- Broadcasts about some addresses were enqueued, and nothing else became of the conflicts. -/
structure Announces (net net' : Net) (addresses : List Nwk) : Prop where
  addressConflicts : net'.addressConflicts = net.addressConflicts
  nextId : net.sends.nextId ≤ net'.sends.nextId
  older : ∀ id < net.sends.nextId,
    net'.sends.broadcasts.records.get id = net.sends.broadcasts.records.get id
  reported : reported net net' = addresses

theorem forM_conflictReport (addresses : List Nwk) (net : Net) :
    Ensures net (addresses.forM fun address => do
      let _ ← sendBroadcast env (conflictReport env address) : NetM Unit)
      fun _ net' => Announces net net' addresses := by
  induction addresses generalizing net with
  | nil =>
    refine .pure ⟨rfl, Nat.le_refl _, fun _ _ => rfl, ?_⟩
    rw [reported, Nat.sub_self]
    rfl
  | cons address rest ih =>
    intro _ net' h
    obtain ⟨_, net₁, hfirst, hrest⟩ := bind_eq_ok.mp h
    obtain ⟨result, net₂, hsend, hdone⟩ := bind_eq_ok.mp hfirst
    cases hdone
    obtain ⟨hconflicts, frame, record, hframe, hrecord, hnextId, hrecords⟩ :=
      sendBroadcast_conflictReport _ _ hsend
    have hrest' := ih net₁ _ _ hrest
    have holder : ∀ id ≤ net.sends.nextId, net'.sends.broadcasts.records.get id =
        if id = net.sends.nextId then some record else net.sends.broadcasts.records.get id := by
      intro id hid
      rw [hrest'.older id (by lia), hrecords, FlatMap.get_insert]
    refine ⟨hrest'.addressConflicts.trans hconflicts, ?_, ?_, ?_⟩
    · have := hrest'.nextId
      lia
    · intro id hid
      rw [holder id (by lia), if_neg (by lia)]
    · have hlength : net'.sends.nextId - net.sends.nextId =
          (net'.sends.nextId - net₁.sends.nextId) + 1 := by
        have := hrest'.nextId
        lia
      have hreported := hrest'.reported
      rw [reported, hnextId] at hreported
      rw [reported, hlength, hnextId, List.range'_succ, List.filterMap_cons, holder _ (by lia),
        if_pos rfl]
      simp only [Option.bind_eq_bind, Option.bind_some, hrecord, hframe]
      rw [← hreported]
      rfl

/-! ## What the calls do to the table -/

/-- What came of a call. -/
inductive Deed where
  /-- `handle_address_conflict`, and whether it was the first call in its window. -/
  | conflict (address : Nwk) (source : AddrConflictSource) (handled : Bool)
  /-- `drive_conflict_reports`, and the addresses that it sent broadcasts about. -/
  | pass (reports : List Nwk)
  deriving DecidableEq

structure Moment where
  now : Instant
  jitter : Duration
  deed : Deed
  deriving DecidableEq

/-- A call gets past the check of the window. -/
def handles (env : Env) (net : Net) (address : Nwk) : Bool :=
  !(net.addressConflicts.get address).any fun conflict =>
    env.now < conflict.handledAt.add env.tunables.broadcastDeliveryTime

/-- What a call does to the table. -/
inductive ConflictStep (window : Duration) :
    Moment → FlatMap Nwk AddressConflict → FlatMap Nwk AddressConflict → Prop
  | heard {conflicts : FlatMap Nwk AddressConflict} {now : Instant} {jitter : Duration}
      {address : Nwk} {source : AddrConflictSource} {conflict : AddressConflict}
      (hget : conflicts.get address = some conflict)
      (hwithin : now < conflict.handledAt.add window) :
    ConflictStep window ⟨now, jitter, .conflict address source false⟩ conflicts
      (conflicts.set address
        { conflict with
          heardFromNetwork := conflict.heardFromNetwork || source = AddrConflictSource.network })
  | handled {conflicts : FlatMap Nwk AddressConflict} {now : Instant} {jitter : Duration}
      {address : Nwk} {source : AddrConflictSource}
      (hover : ∀ conflict, conflicts.get address = some conflict →
        conflict.handledAt.add window ≤ now) :
    ConflictStep window ⟨now, jitter, .conflict address source true⟩ conflicts
      ((conflicts.retain fun _ conflict => now < conflict.handledAt.add (2 * window)).insert address
        { handledAt := now
          heardFromNetwork := source = AddrConflictSource.network
          reportAt := if source = AddrConflictSource.locally then some (now.add jitter) else none })
  | pass {conflicts : FlatMap Nwk AddressConflict} {now : Instant} {jitter : Duration} :
    ConflictStep window ⟨now, jitter, .pass (dueReports conflicts now)⟩ conflicts
      (settleReports conflicts now)

theorem apart_addressConflicts : Apart Net.addressConflicts where
  sends _ _ := rfl
  sequenceNumber _ _ := rfl
  routing _ _ := rfl

theorem reassignChildAddress_addressConflicts {eui64 : Eui64} {address : Nwk} :
    Steps (Keeps Net.addressConflicts) (reassignChildAddress env eui64 address) :=
  .bind (.bind .get fun _ => .lift _) fun _ =>
    .bind apart_addressConflicts.sendUnicast fun _ => .pure _

theorem handleAddressConflict_step {address : Nwk} {source : AddrConflictSource} {net : Net} :
    Ensures net (handleAddressConflict env address source) fun _ net' =>
      ConflictStep env.tunables.broadcastDeliveryTime
        ⟨env.now, env.broadcastJitter, .conflict address source (handles env net address)⟩
        net.addressConflicts net'.addressConflicts := by
  refine .bind_get ?_
  dsimp only
  split
  next conflict hconflict =>
    obtain ⟨hget, hwithin⟩ := Option.filter_eq_some_iff.mp hconflict
    have hhandles : handles env net address = false := by
      rw [handles, hget, Option.any_some, hwithin]
      rfl
    rw [hhandles]
    exact .set (.heard hget (of_decide_eq_true hwithin))
  next hnone =>
    have hover : ∀ conflict, net.addressConflicts.get address = some conflict →
        conflict.handledAt.add env.tunables.broadcastDeliveryTime ≤ env.now := by
      intro conflict hget
      by_contra hlt
      rw [hget] at hnone
      exact absurd hnone (by simp [Option.filter, Nat.not_le.mp hlt])
    have hhandles : handles env net address = true := by
      rw [handles]
      cases hget : net.addressConflicts.get address with
      | none => rfl
      | some conflict =>
        rw [Option.any_some, decide_eq_false (Nat.not_lt.mpr (hover conflict hget))]
        rfl
    rw [hhandles]
    refine .bind_set ?_
    refine .ite (fun _ => ?_) fun _ => .pure (.handled hover)
    cases net.neighbors.endDeviceChildEui64 address with
    | some childEui64 =>
      refine (reassignChildAddress_addressConflicts _).mono fun _ net' hkeeps => ?_
      rw [show net'.addressConflicts = _ from hkeeps]
      exact .handled hover
    | none => exact .modify (.handled hover)

theorem driveConflictReports_spec {net : Net} :
    Ensures net (driveConflictReports env) fun _ net' =>
      net'.addressConflicts = settleReports net.addressConflicts env.now ∧
      reported net net' = dueReports net.addressConflicts env.now := by
  refine .bind_get (.bind_set ?_)
  refine (forM_conflictReport _ _).mono fun _ net' hannounces => ?_
  exact ⟨hannounces.addressConflicts, hannounces.reported⟩

theorem driveConflictReports_step {window : Duration} {net : Net} :
    Ensures net (driveConflictReports env) fun _ net' =>
      ConflictStep window ⟨env.now, env.broadcastJitter, .pass (reported net net')⟩
        net.addressConflicts net'.addressConflicts := by
  refine driveConflictReports_spec.mono fun _ net' h => ?_
  rw [h.1, h.2]
  exact .pass

/-! ## One address -/

namespace Moment

/-- A conflict of the address is handled. -/
def Handles (moment : Moment) (address : Nwk) : Prop :=
  ∃ source, moment.deed = .conflict address source true

/-- Another device reports a conflict of the address. -/
def Hears (moment : Moment) (address : Nwk) : Prop :=
  ∃ handled, moment.deed = .conflict address .network handled

def isPass (moment : Moment) : Bool :=
  match moment.deed with
  | .pass _ => true
  | .conflict .. => false

/-- The number of broadcasts about the address. -/
def reports (moment : Moment) (address : Nwk) : Nat :=
  match moment.deed with
  | .pass reports => reports.count address
  | .conflict .. => 0

end Moment

variable {window : Duration} {moment : Moment} {address : Nwk}
  {conflicts conflicts' : FlatMap Nwk AddressConflict} {history : List Moment}

theorem count_dueReports (conflicts : FlatMap Nwk AddressConflict) (now : Instant) (address : Nwk) :
    (dueReports conflicts now).count address =
      if ∃ conflict, conflicts.get address = some conflict ∧ conflict.due now = true ∧
        conflict.heardFromNetwork = false then 1 else 0 := by
  have hnodup : (dueReports conflicts now).Nodup :=
    (List.filter_sublist.map Prod.fst).nodup conflicts.nodup_keys
  have hmem : address ∈ dueReports conflicts now ↔ ∃ conflict,
      conflicts.get address = some conflict ∧ conflict.due now = true ∧
        conflict.heardFromNetwork = false := by
    simp only [dueReports, List.mem_map, List.mem_filter, Prod.exists, FlatMap.mem_entries,
      Bool.and_eq_true, Bool.not_eq_true', exists_and_right, exists_eq_right]
  rw [hnodup.count]
  simp only [hmem]

/-- What becomes of the entry of an address while it is not handled. -/
inductive EntryStep (window : Duration) (moment : Moment) (address : Nwk) :
    Option AddressConflict → Option AddressConflict → Prop
  | absent (hreports : moment.reports address = 0) : EntryStep window moment address none none
  | purged {conflict : AddressConflict}
      (hover : conflict.handledAt.add (2 * window) ≤ moment.now)
      (hreports : moment.reports address = 0) :
    EntryStep window moment address (some conflict) none
  | kept {conflict : AddressConflict} {heard : Bool}
      (hheard : heard = true ↔ conflict.heardFromNetwork = true ∨ moment.Hears address)
      (hdue : moment.isPass = true → conflict.due moment.now = false)
      (hreports : moment.reports address = 0) :
    EntryStep window moment address (some conflict)
      (some { conflict with heardFromNetwork := heard })
  | settled {conflict : AddressConflict} (hpass : moment.isPass = true)
      (hdue : conflict.due moment.now = true)
      (hreports : moment.reports address = if conflict.heardFromNetwork then 0 else 1) :
    EntryStep window moment address (some conflict) (some { conflict with reportAt := none })

/-- The entry stays as it is. -/
theorem EntryStep.unchanged (entry : Option AddressConflict) (hhears : ¬moment.Hears address)
    (hpass : moment.isPass = false) (hreports : moment.reports address = 0) :
    EntryStep window moment address entry entry := by
  cases entry with
  | none => exact .absent hreports
  | some conflict =>
    refine @EntryStep.kept _ _ _ conflict conflict.heardFromNetwork (or_iff_left hhears).symm ?_
      hreports
    intro h
    rw [hpass] at h
    cases h

theorem ConflictStep.entry (h : ConflictStep window moment conflicts conflicts')
    (hhandles : ¬moment.Handles address) :
    EntryStep window moment address (conflicts.get address) (conflicts'.get address) := by
  cases h with
  | @heard _ now jitter other source conflict hget hwithin =>
    rw [FlatMap.get_set]
    by_cases hother : address = other
    · subst hother
      rw [if_pos rfl, hget]
      refine .kept ?_ nofun rfl
      rw [Bool.or_eq_true, decide_eq_true_iff]
      refine or_congr_right ⟨fun hsource => ⟨false, by rw [hsource]⟩, ?_⟩
      rintro ⟨_, hdeed⟩
      cases hdeed
      rfl
    · rw [if_neg hother]
      refine .unchanged _ ?_ rfl rfl
      rintro ⟨_, hdeed⟩
      cases hdeed
      exact hother rfl
  | @handled _ now jitter other source hover =>
    have hother : address ≠ other := by
      rintro rfl
      exact hhandles ⟨source, rfl⟩
    have hhears : ¬Moment.Hears ⟨now, jitter, .conflict other source true⟩ address := by
      rintro ⟨_, hdeed⟩
      cases hdeed
      exact hother rfl
    rw [FlatMap.get_insert, if_neg hother, FlatMap.get_retain]
    cases hget : conflicts.get address with
    | none => exact .absent rfl
    | some conflict =>
      by_cases hlive : now < conflict.handledAt.add (2 * window)
      · rw [Option.filter_some, if_pos (decide_eq_true hlive)]
        exact .unchanged _ hhears rfl rfl
      · rw [Option.filter_some, if_neg (by simpa using hlive)]
        exact .purged (Nat.not_lt.mp hlive) rfl
  | @pass _ now jitter =>
    have hcount := count_dueReports conflicts now address
    rw [settleReports, FlatMap.get_mapVal]
    cases hget : conflicts.get address with
    | none =>
      rw [hget, if_neg (by simp)] at hcount
      exact .absent hcount
    | some conflict =>
      rw [hget] at hcount
      cases hdue : conflict.due now with
      | true =>
        rw [Option.map_some, if_pos hdue]
        refine .settled rfl hdue (hcount.trans ?_)
        cases hheard : conflict.heardFromNetwork <;> simp [hdue, hheard]
      | false =>
        rw [Option.map_some, if_neg (by simp [hdue])]
        refine @EntryStep.kept _ _ _ conflict conflict.heardFromNetwork ?_ (fun _ => hdue)
          (hcount.trans ?_)
        · exact (or_iff_left (by rintro ⟨_, hdeed⟩; cases hdeed)).symm
        · simp [hdue]

/-- A handling is the first call for the address in a window, and it makes the entry anew. -/
theorem ConflictStep.handled_entry (h : ConflictStep window moment conflicts conflicts')
    {source : AddrConflictSource} (hdeed : moment.deed = .conflict address source true) :
    (∀ conflict, conflicts.get address = some conflict →
      conflict.handledAt.add window ≤ moment.now) ∧
    conflicts'.get address = some
      { handledAt := moment.now
        heardFromNetwork := source = AddrConflictSource.network
        reportAt := if source = AddrConflictSource.locally then some (moment.now.add moment.jitter)
          else none } := by
  cases h with
  | heard => cases hdeed
  | handled hover =>
    cases hdeed
    exact ⟨hover, by rw [FlatMap.get_insert, if_pos rfl]⟩
  | pass => cases hdeed

/-! ## Histories -/

/-- The calls from the empty table on, newest first. -/
inductive ConflictLog (window : Duration) : List Moment → FlatMap Nwk AddressConflict → Prop
  | nil : ConflictLog window [] .new
  | cons {history : List Moment} {moment : Moment}
      {conflicts conflicts' : FlatMap Nwk AddressConflict}
      (log : ConflictLog window history conflicts)
      (hlatest : ∀ earlier ∈ history, earlier.now ≤ moment.now)
      (hstep : ConflictStep window moment conflicts conflicts') :
    ConflictLog window (moment :: history) conflicts'

/-- The calls of a stack with one delivery window, at times that do not run back.  Whatever else
it does leaves the table of conflicts alone. -/
inductive ConflictRun (window : Duration) : List Moment → Net → Prop
  | start {net : Net} (hempty : net.addressConflicts = .new) : ConflictRun window [] net
  | conflict {history : List Moment} {net net' : Net} (run : ConflictRun window history net)
      (env : Env) (address : Nwk) (source : AddrConflictSource)
      (hwindow : env.tunables.broadcastDeliveryTime = window)
      (hlatest : ∀ earlier ∈ history, earlier.now ≤ env.now)
      (hcall : handleAddressConflict env address source net = .ok ((), net')) :
    ConflictRun window
      (⟨env.now, env.broadcastJitter, .conflict address source (handles env net address)⟩ ::
        history) net'
  | pass {history : List Moment} {net net' : Net} (run : ConflictRun window history net)
      (env : Env) (hlatest : ∀ earlier ∈ history, earlier.now ≤ env.now)
      (hcall : driveConflictReports env net = .ok ((), net')) :
    ConflictRun window (⟨env.now, env.broadcastJitter, .pass (reported net net')⟩ :: history) net'
  | meanwhile {history : List Moment} {net net' : Net} (run : ConflictRun window history net)
      (hidle : net'.addressConflicts = net.addressConflicts) : ConflictRun window history net'

theorem ConflictRun.log {net : Net} (h : ConflictRun window history net) :
    ConflictLog window history net.addressConflicts := by
  induction h with
  | start hempty => exact hempty ▸ .nil
  | conflict _ env address source hwindow hlatest hcall ih =>
    exact .cons ih hlatest (hwindow ▸ handleAddressConflict_step _ _ hcall)
  | pass _ env hlatest hcall ih => exact .cons ih hlatest (driveConflictReports_step _ _ hcall)
  | meanwhile _ hidle ih => exact hidle ▸ ih

/-- A conflict that was handled is in the table, or two windows have passed. -/
theorem ConflictLog.recent (log : ConflictLog window history conflicts) {handling : Moment}
    (hmem : handling ∈ history) (hhandling : handling.Handles address) :
    (∃ conflict, conflicts.get address = some conflict ∧ handling.now ≤ conflict.handledAt) ∨
      ∃ moment ∈ history, handling.now.add (2 * window) ≤ moment.now := by
  induction log with
  | nil => cases hmem
  | @cons history moment conflicts conflicts' _ hlatest hstep ih =>
    by_cases hhandles : moment.Handles address
    · obtain ⟨source, hdeed⟩ := hhandles
      refine .inl ⟨_, (hstep.handled_entry hdeed).2, ?_⟩
      obtain rfl | hmem := List.mem_cons.mp hmem
      · exact Nat.le_refl _
      · exact hlatest handling hmem
    · have hmem : handling ∈ history := by
        obtain rfl | hmem := List.mem_cons.mp hmem
        · exact absurd hhandling hhandles
        · exact hmem
      obtain ⟨conflict, hget, hle⟩ | ⟨late, hlate, hover⟩ := ih hmem
      · have hentry := hstep.entry hhandles
        rw [hget] at hentry
        generalize conflicts'.get address = entry at hentry
        cases hentry with
        | purged hover =>
          refine .inr ⟨moment, List.mem_cons_self, ?_⟩
          exact (Instant.add_le_add hle (Nat.le_refl _)).trans hover
        | kept => exact .inl ⟨_, rfl, hle⟩
        | settled => exact .inl ⟨_, rfl, hle⟩
      · exact .inr ⟨late, List.mem_cons_of_mem _ hlate, hover⟩

/-- Two handlings of an address are a window apart, up to the last instant of the clock. -/
theorem ConflictLog.handled_apart (log : ConflictLog window history conflicts) (address : Nwk) :
    history.Pairwise fun later earlier => later.Handles address → earlier.Handles address →
      later.now < Instant.last → earlier.now + window ≤ later.now := by
  induction log with
  | nil => exact .nil
  | @cons history moment conflicts conflicts' log hlatest hstep ih =>
    refine List.pairwise_cons.mpr ⟨fun earlier hmem hhandles hearlier hclock => ?_, ih⟩
    refine (Instant.add_le_iff hclock).mp ?_
    obtain ⟨source, hdeed⟩ := hhandles
    obtain ⟨conflict, hget, hle⟩ | ⟨late, hlate, hover⟩ := log.recent hmem hearlier
    · exact (Instant.add_le_add hle (Nat.le_refl _)).trans
        ((hstep.handled_entry hdeed).1 conflict hget)
    · have htwice : earlier.now.add window ≤ earlier.now.add (2 * window) :=
        Instant.add_le_add (Nat.le_refl _) (by lia)
      exact htwice.trans (hover.trans (hlatest late hlate))

/-! ## Reports -/

/-- The number of broadcasts about an address. -/
def reportsOf (address : Nwk) (history : List Moment) : Nat :=
  (history.map (·.reports address)).sum

theorem reportsOf_cons : reportsOf address (moment :: history) =
    moment.reports address + reportsOf address history := by
  rw [reportsOf, List.map_cons, List.sum_cons]
  rfl

theorem reportsOf_append {newer : List Moment} : reportsOf address (newer ++ history) =
    reportsOf address newer + reportsOf address history := by
  rw [reportsOf, List.map_append, List.sum_append]
  rfl

/-- What became of a handled conflict, since it was handled. -/
inductive Trail (window : Duration) (address : Nwk) (handling : Moment)
    (source : AddrConflictSource) (since : List Moment) : Option AddressConflict → Prop
  | purged (hover : ∃ moment ∈ since, handling.now.add (2 * window) ≤ moment.now)
      (hreports : reportsOf address since ≤ 1)
      (hnetwork : source = .network → reportsOf address since = 0) :
    Trail window address handling source since none
  | owed {conflict : AddressConflict} (hhandledAt : conflict.handledAt = handling.now)
      (hreportAt : conflict.reportAt = some (handling.now.add handling.jitter))
      (hsource : source = .locally)
      (hheard : conflict.heardFromNetwork = true ↔ ∃ moment ∈ since, moment.Hears address)
      (hreports : reportsOf address since = 0) :
    Trail window address handling source since (some conflict)
  | settled {conflict : AddressConflict} (hhandledAt : conflict.handledAt = handling.now)
      (hreportAt : conflict.reportAt = none)
      (hpassed : source = .locally → ∃ moment ∈ since, moment.isPass = true ∧
        handling.now.add handling.jitter ≤ moment.now)
      (hreports : reportsOf address since ≤ 1)
      (hnetwork : source = .network → reportsOf address since = 0) :
    Trail window address handling source since (some conflict)

theorem Trail.step {handling : Moment} {source : AddrConflictSource} {since : List Moment}
    {entry entry' : Option AddressConflict} (h : Trail window address handling source since entry)
    (hentry : EntryStep window moment address entry entry') :
    Trail window address handling source (moment :: since) entry' := by
  have hquiet (hreports : moment.reports address = 0) :
      reportsOf address (moment :: since) = reportsOf address since := by
    rw [reportsOf_cons, hreports, Nat.zero_add]
  cases h with
  | purged hover hreports hnetwork =>
    cases hentry with
    | absent hnone =>
      obtain ⟨late, hlate, hover⟩ := hover
      exact .purged ⟨late, List.mem_cons_of_mem _ hlate, hover⟩ (hquiet hnone ▸ hreports)
        (hquiet hnone ▸ hnetwork)
  | owed hhandledAt hreportAt hsource hheard hreports =>
    cases hentry with
    | purged hover hnone =>
      refine .purged ⟨moment, List.mem_cons_self, hhandledAt ▸ hover⟩ ?_ fun _ => ?_
      · rw [hquiet hnone, hreports]
        exact Nat.zero_le _
      · rw [hquiet hnone, hreports]
    | kept hheard' hdue hnone =>
      refine .owed hhandledAt hreportAt hsource ?_ ((hquiet hnone).trans hreports)
      refine hheard'.trans (Iff.trans ?_ (List.exists_mem_cons_iff _ _ _).symm)
      rw [hheard, or_comm]
    | settled hpass hdue hsent =>
      refine .settled hhandledAt rfl (fun _ => ⟨moment, List.mem_cons_self, hpass, ?_⟩) ?_ ?_
      · rw [AddressConflict.due, hreportAt] at hdue
        exact of_decide_eq_true hdue
      · rw [reportsOf_cons, hsent, hreports]
        split <;> decide
      · intro hnetwork
        cases hsource.symm.trans hnetwork
  | settled hhandledAt hreportAt hpassed hreports hnetwork =>
    have hpassed' : source = .locally → ∃ late ∈ moment :: since, late.isPass = true ∧
        handling.now.add handling.jitter ≤ late.now := fun hsource =>
      (hpassed hsource).imp fun _ h => ⟨List.mem_cons_of_mem _ h.1, h.2⟩
    cases hentry with
    | purged hover hnone =>
      exact .purged ⟨moment, List.mem_cons_self, hhandledAt ▸ hover⟩ (hquiet hnone ▸ hreports)
        (hquiet hnone ▸ hnetwork)
    | kept hheard' hdue hnone =>
      exact .settled hhandledAt hreportAt hpassed' (hquiet hnone ▸ hreports)
        (hquiet hnone ▸ hnetwork)
    | settled hpass hdue =>
      rw [AddressConflict.due, hreportAt] at hdue
      cases hdue

theorem ConflictLog.trail {since older : List Moment} {handling : Moment}
    {source : AddrConflictSource}
    (log : ConflictLog window (since ++ handling :: older) conflicts)
    (hdeed : handling.deed = .conflict address source true)
    (hsince : ∀ moment ∈ since, ¬moment.Handles address) :
    Trail window address handling source since (conflicts.get address) := by
  induction since generalizing conflicts with
  | nil =>
    cases log with
    | cons log hlatest hstep =>
      rw [(hstep.handled_entry hdeed).2]
      cases source with
      | locally => exact .owed rfl rfl rfl (by simp) rfl
      | network => exact .settled rfl rfl nofun (Nat.zero_le _) fun _ => rfl
  | cons moment since ih =>
    obtain ⟨hmoment, hsince⟩ := List.forall_mem_cons.mp hsince
    cases log with
    | cons log hlatest hstep => exact (ih log hsince).step (hstep.entry hmoment)

/-- Nothing is sent about an address while no report is owed, until the next handling. -/
theorem ConflictLog.silent {newer : List Moment}
    (log : ConflictLog window (newer ++ history) conflicts)
    (hnewer : ∀ moment ∈ newer, ¬moment.Handles address) :
    ∃ before, ConflictLog window history before ∧
      ((before.get address).bind AddressConflict.reportAt = none →
        reportsOf address newer = 0 ∧
          (conflicts.get address).bind AddressConflict.reportAt = none) := by
  induction newer generalizing conflicts with
  | nil => exact ⟨conflicts, log, fun howed => ⟨rfl, howed⟩⟩
  | cons moment newer ih =>
    obtain ⟨hmoment, hnewer⟩ := List.forall_mem_cons.mp hnewer
    cases log with
    | @cons _ _ earlier _ log hlatest hstep =>
      obtain ⟨before, hbefore, hsilent⟩ := ih log hnewer
      refine ⟨before, hbefore, fun howed => ?_⟩
      obtain ⟨hreports, howed'⟩ := hsilent howed
      rw [reportsOf_cons, hreports, Nat.add_zero]
      have hentry := hstep.entry hmoment
      generalize earlier.get address = entry at hentry howed'
      generalize conflicts.get address = entry' at hentry ⊢
      cases hentry with
      | absent hnone => exact ⟨hnone, rfl⟩
      | purged hover hnone => exact ⟨hnone, rfl⟩
      | kept hheard hdue hnone => exact ⟨hnone, howed'⟩
      | settled hpass hdue =>
        rw [AddressConflict.due, show AddressConflict.reportAt _ = none from howed'] at hdue
        cases hdue

/-- The first pass in the window that comes to a report sends it, unless another device was
first. -/
theorem ConflictLog.reported_iff {newer middle older : List Moment} {pass handling : Moment}
    (log : ConflictLog window (newer ++ pass :: (middle ++ handling :: older)) conflicts)
    (hdeed : handling.deed = .conflict address .locally true)
    (hnewer : ∀ moment ∈ newer, ¬moment.Handles address) (hpass : pass.isPass = true)
    (hdue : handling.now.add handling.jitter ≤ pass.now)
    (hwithin : pass.now < handling.now + window) (hclock : pass.now < Instant.last)
    (hfirst : ∀ moment ∈ middle, moment.isPass = true →
      moment.now < handling.now.add handling.jitter) :
    reportsOf address (newer ++ pass :: middle) = 1 ↔ ∀ moment ∈ middle, ¬moment.Hears address := by
  obtain ⟨before, log, hsilent⟩ := log.silent hnewer
  cases log with
  | @cons _ _ earlier _ log hlatest hstep =>
    have hlate : ∀ moment ∈ middle, moment.now ≤ pass.now := fun moment hmem =>
      hlatest moment (List.mem_append_left _ hmem)
    have hmiddle : ∀ moment ∈ middle, ¬moment.Handles address := by
      intro moment hmem hhandles
      have hapart := (List.pairwise_append.mp (log.handled_apart address)).2.2 moment hmem handling
        List.mem_cons_self hhandles ⟨_, hdeed⟩ (Nat.lt_of_le_of_lt (hlate moment hmem) hclock)
      have := hlate moment hmem
      lia
    have htwice : ¬handling.now.add (2 * window) ≤ pass.now := by
      rw [Instant.add_le_iff hclock]
      lia
    have hnotHandled : ¬pass.Handles address := by
      rintro ⟨source, hconflict⟩
      rw [Moment.isPass, hconflict] at hpass
      cases hpass
    have hentry := hstep.entry hnotHandled
    have htrail := log.trail hdeed hmiddle
    generalize earlier.get address = entry at hentry htrail
    cases htrail with
    | purged hover =>
      obtain ⟨moment, hmem, hover⟩ := hover
      exact absurd (hover.trans (hlate moment hmem)) htwice
    | settled _ _ hpassed =>
      obtain ⟨moment, hmem, hispass, hle⟩ := hpassed rfl
      exact absurd hle (Nat.not_le.mpr (hfirst moment hmem hispass))
    | owed hhandledAt hreportAt _ hheard hreports =>
      generalize hafter : before.get address = entry' at hentry
      cases hentry with
      | purged hover => exact absurd (hhandledAt ▸ hover) htwice
      | kept _ hnotDue =>
        have hnotDue := hnotDue hpass
        rw [AddressConflict.due, hreportAt] at hnotDue
        exact absurd hdue (of_decide_eq_false hnotDue)
      | settled _ _ hsent =>
        have hnothing := (hsilent (by rw [hafter]; rfl)).1
        rw [reportsOf_append, reportsOf_cons, hnothing, hreports, hsent, Nat.zero_add,
          Nat.add_zero]
        have hnot : (∀ moment ∈ middle, ¬moment.Hears address) ↔
            ¬∃ moment ∈ middle, moment.Hears address := by
          simp only [not_exists, not_and]
        rw [hnot, ← hheard]
        split
        next hyes => exact iff_of_false Nat.zero_ne_one (absurd hyes)
        next hno => exact iff_of_true rfl hno

/-- Up to the last instant of the clock, two handlings of an address are a window apart.  A
handling is followed by at most one broadcast before the next one, and by none if the conflict was
reported to us.  And the first pass of the window at or after the report is due sends it exactly
if no other device reported the conflict in between. -/
theorem address_conflicts_reported_once {net : Net} (hrun : ConflictRun window history net)
    (address : Nwk) :
    (history.Pairwise fun later earlier => later.Handles address → earlier.Handles address →
      later.now < Instant.last → earlier.now + window ≤ later.now) ∧
    (∀ since handling older source, history = since ++ handling :: older →
      handling.deed = .conflict address source true →
      (∀ moment ∈ since, ¬moment.Handles address) →
      reportsOf address since ≤ 1 ∧ (source = .network → reportsOf address since = 0)) ∧
    (∀ newer pass middle handling older,
      history = newer ++ pass :: (middle ++ handling :: older) →
      handling.deed = .conflict address .locally true →
      (∀ moment ∈ newer, ¬moment.Handles address) → pass.isPass = true →
      handling.now.add handling.jitter ≤ pass.now → pass.now < handling.now + window →
      pass.now < Instant.last →
      (∀ moment ∈ middle, moment.isPass = true →
        moment.now < handling.now.add handling.jitter) →
      (reportsOf address (newer ++ pass :: middle) = 1 ↔
        ∀ moment ∈ middle, ¬moment.Hears address)) := by
  have log := hrun.log
  refine ⟨log.handled_apart address, ?_, ?_⟩
  · rintro since handling older source rfl hdeed hsince
    have htrail := log.trail hdeed hsince
    generalize net.addressConflicts.get address = entry at htrail
    cases htrail with
    | purged _ hreports hnetwork => exact ⟨hreports, hnetwork⟩
    | owed _ _ _ _ hreports => exact ⟨by rw [hreports]; exact Nat.zero_le _, fun _ => hreports⟩
    | settled _ _ _ hreports hnetwork => exact ⟨hreports, hnetwork⟩
  · rintro newer pass middle handling older rfl hdeed hnewer hpass hdue hwithin hclock hfirst
    exact log.reported_iff hdeed hnewer hpass hdue hwithin hclock hfirst

namespace Example

/-- The coordinator at some time, with a draw of the jitter. -/
def coordinatorAt (now : Instant) (jitter : Duration) : Env :=
  { Env.plain .coordinator 0 1 with now, broadcastJitter := jitter }

def unaware : Net := (ZigbeeStack.plain (.plain .coordinator 0 1) 7).net

end Example

open Driver.Example in
theorem address_conflicts_reported_once_noticed : ∃ net net',
    ConflictRun 9000000 [⟨10, 0, .pass (reported net net')⟩,
      ⟨0, 5, .conflict 0x1234 .locally true⟩] net' ∧
    reportsOf 0x1234 [⟨10, 0, .pass (reported net net')⟩] = 1 := by
  have hruns : ((handleAddressConflict (coordinatorAt 0 5) 0x1234 .locally unaware).toOption.bind
      fun (_, net) => (driveConflictReports (coordinatorAt 10 0) net).toOption).isSome = true := by
    decide +kernel
  obtain ⟨⟨_, net'⟩, hruns⟩ := Option.isSome_iff_exists.mp hruns
  obtain ⟨⟨_, net⟩, hconflict, hpass⟩ := Option.bind_eq_some_iff.mp hruns
  have hrun : ConflictRun 9000000 [⟨10, 0, .pass (reported net net')⟩,
      ⟨0, 5, .conflict 0x1234 .locally true⟩] net' :=
    .pass (.conflict (.start rfl) (coordinatorAt 0 5) 0x1234 .locally rfl nofun
      (Checked.eq_ok_of_toOption hconflict)) (coordinatorAt 10 0)
      (by simp [coordinatorAt]) (Checked.eq_ok_of_toOption hpass)
  refine ⟨net, net', hrun, ?_⟩
  refine ((address_conflicts_reported_once hrun 0x1234).2.2 [] _ [] _ [] rfl rfl nofun rfl ?_ ?_ ?_
    nofun).mpr nofun
  · change Instant.add 0 5 ≤ 10
    decide
  · change 10 < 0 + 9000000
    decide
  · change 10 < Instant.last
    decide

open Driver.Example in
/-- At the last instant, no window is left. -/
theorem address_conflict_handled_again : ∃ net,
    ConflictRun 9000000 [⟨Instant.last, 0, .conflict 0x1234 .network true⟩,
      ⟨Instant.last, 0, .conflict 0x1234 .network true⟩] net := by
  have hruns : ((handleAddressConflict (coordinatorAt Instant.last 0) 0x1234 .network
      unaware).toOption.bind fun (_, net) =>
        ((handleAddressConflict (coordinatorAt Instant.last 0) 0x1234 .network net).toOption.map
          fun _ => handles (coordinatorAt Instant.last 0) net 0x1234)) = some true := by
    decide +kernel
  obtain ⟨⟨_, net⟩, hfirst, hsecond⟩ := Option.bind_eq_some_iff.mp hruns
  obtain ⟨⟨_, net'⟩, hsecond, hhandles⟩ := Option.map_eq_some_iff.mp hsecond
  have hrun := ConflictRun.conflict (.conflict (.start rfl) (coordinatorAt Instant.last 0) 0x1234
    .network rfl nofun (Checked.eq_ok_of_toOption hfirst)) (coordinatorAt Instant.last 0) 0x1234
    .network rfl (by simp [coordinatorAt]) (Checked.eq_ok_of_toOption hsecond)
  rw [hhandles] at hrun
  exact ⟨net', hrun⟩

end Ziggurat.Driver
