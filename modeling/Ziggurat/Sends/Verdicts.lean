import Ziggurat.Sends.History

/-!
# Exactly one verdict

A waiter that belongs to one send hears one verdict: none while the send is live,
and one once it is over, unless the tables were emptied with the send still in
them, and then it is on the list that `abandon` returns.  Nothing is heard after
the verdict.  This is a sum over the ids of what `Life.Run` says about one id.
-/

namespace Ziggurat

open Lib.TagLog

variable {F W E : Type}

/-- All actions of a run, in order. -/
def actionsOf (es : List (Event F W E)) : Actions F W E :=
  (es.map (·.out.actions)).flatten

/-- All waiters that `abandon` returned. -/
def abandonedOf (es : List (Event F W E)) : List W :=
  (es.map (·.out.abandoned)).flatten

/-- The action is the verdict of `waiter`. -/
def Action.settles [DecidableEq W] (waiter : W) : Action F W E → Bool
  | .settled w _ _ _ => w = waiter
  | .handedOff _ => false

/-- The verdicts that `waiter` heard. -/
def verdicts [DecidableEq W] (waiter : W) (es : List (Event F W E)) : Nat :=
  (actionsOf es).countP (Action.settles waiter)

/-- The run admitted `id` with `waiter`, and no other send with it. -/
structure Owns (es : List (Event F W E)) (id : SendId) (waiter : W) : Prop where
  admitted : ∃ e ∈ es, e.out.admitted = some id
  alone : ∀ e ∈ es, e.op.waiter = some waiter ↔ e.out.admitted = some id

/-! ## What one waiter hears -/

namespace Phase

variable {id : SendId} {es : List (Event F W E)} {batches : List (Actions F W E)}
  {l : Life F W E}

/-- The waiter in an action for `id` is one `id` was admitted with. -/
theorem waiter_mem (h : Phase id es (spoken batches) l) {action : Action F W E}
    (hmem : action ∈ batches.flatten) : action.waiter ∈ admittedWaiters id es := by
  rw [← flatten_spoken] at hmem
  cases h with
  | unborn _ said | waiting _ said => simp [said] at hmem
  | handed waiters said =>
    simp only [said, List.flatten_cons, List.flatten_nil, List.append_nil,
      List.mem_singleton] at hmem
    simp [waiters, hmem, Action.waiter]
  | settled waiters said =>
    rcases said with said | said | said <;> simp [said] at hmem
    · simp [waiters, hmem, Action.waiter]
    · rcases hmem with hmem | hmem <;> simp [waiters, hmem, Action.waiter]
    · rcases hmem with hmem | hmem <;> simp [waiters, hmem, Action.waiter]
  | abandoned waiters said =>
    rcases said with said | said <;> simp [said] at hmem
    simp [waiters, hmem, Action.waiter]

/-- The verdicts among the actions for a send, counted with what `abandon` took. -/
theorem settles_add_abandonments [DecidableEq W] {waiter : W}
    (h : Phase id es (spoken batches) l) (hwaiters : admittedWaiters id es = [waiter]) :
    (l.live = true → batches.flatten.countP (Action.settles waiter) = 0 ∧
      abandonments id es = 0) ∧
    (l.live = false → batches.flatten.countP (Action.settles waiter) +
      abandonments id es = 1) := by
  rw [← flatten_spoken, Life.live_eq_isSome_waiter]
  cases h with
  | unborn waiters => simp [waiters] at hwaiters
  | waiting waiters said live _ kept => simp [said, live, kept]
  | handed waiters said live _ kept => simp [said, live, kept, Action.settles]
  | settled waiters said ended kept =>
    obtain rfl : _ = waiter := by simpa [waiters] using hwaiters
    rcases said with said | said | said <;> simp [said, ended, kept, Action.settles]
  | abandoned waiters said ended left =>
    rcases said with said | said <;> simp [said, ended, left, Action.settles]

/-- The verdict is the last thing a waiter hears. -/
theorem eq_nil_of_settled (h : Phase id es (spoken batches) l) {waiter : W}
    {result : Except E Unit} {frame : F} {failedHop : Option Nwk} {pre post : Actions F W E}
    (hsplit : batches.flatten = pre ++ .settled waiter result frame failedHop :: post) :
    post = [] := by
  rw [← flatten_spoken] at hsplit
  -- a list whose only verdict is its last entry
  have hlast : ∀ (said : Actions F W E) (verdict : Action F W E),
      (∀ a ∈ said, ∀ w r f hop, a ≠ .settled w r f hop) →
      said ++ [verdict] = pre ++ .settled waiter result frame failedHop :: post → post = [] := by
    intro said verdict hsaid heq
    by_contra hpost
    obtain ⟨post', last, rfl⟩ := List.eq_nil_or_concat' post |>.resolve_left hpost
    rw [← List.cons_append, ← List.append_assoc] at heq
    have hinit := (List.append_inj' heq rfl).1
    exact hsaid (.settled waiter result frame failedHop) (by simp [hinit]) _ _ _ _ rfl
  cases h with
  | unborn _ said | waiting _ said => simp [said] at hsplit
  | handed _ said =>
    have hmem : Action.settled waiter result frame failedHop ∈ (spoken batches).flatten := by
      simp [hsplit]
    simp [said] at hmem
  | settled _ said =>
    rcases said with said | said | said <;> rw [said] at hsplit
    · exact hlast [] _ (by simp) hsplit
    · exact hlast [_] _ (by simp) hsplit
    · exact hlast [_, _] _ (by simp) hsplit
  | abandoned _ said =>
    have hmem : Action.settled waiter result frame failedHop ∈ (spoken batches).flatten := by
      simp [hsplit]
    rcases said with said | said <;> simp [said] at hmem

end Phase

/-! ## Sums over the ids -/

/-- What a table holds for one id. -/
theorem FlatMap.project_entries {V : Type} (m : FlatMap SendId V) (i : SendId) :
    project i m.entries = (m.get i).toList := by
  have hsorted := m.nodup_keys
  cases hget : m.get i with
  | none =>
    refine project_eq_nil (fun e he heq => ?_)
    have := FlatMap.mem_entries.mp (show (e.1, e.2) ∈ m.entries from he)
    simp [heq, hget] at this
  | some v =>
    have hentries : m.entries = m.entries.flatMap fun e => tagAll e.1 [e.2] := by
      simp [tagAll]
    rw [hentries]
    exact project_flatMap Prod.fst (fun e => [e.2]) hsorted (FlatMap.mem_entries.mpr hget)

/-- A count over the values of a table is a sum over the ids. -/
theorem FlatMap.countP_values {V : Type} (m : FlatMap SendId V) (p : V → Bool) {n : Nat}
    (hn : ∀ i, n ≤ i → m.get i = none) :
    m.values.countP p = ∑ i ∈ Finset.range n, (m.get i).toList.countP p := by
  have hlt : ∀ e ∈ m.entries, e.1 < n := by
    intro e he
    by_contra hge
    have hget := FlatMap.mem_entries.mp (show (e.1, e.2) ∈ m.entries from he)
    simp [hn e.1 (not_lt.mp hge)] at hget
  unfold FlatMap.values
  rw [countP_map_snd p hlt]
  exact Finset.sum_congr rfl (fun i _ => by rw [m.project_entries])

namespace World.Ok

variable {w : World F W E}

theorem unicasts_fresh (h : w.Ok) (i : SendId) (hi : w.sends.nextId ≤ i) :
    w.sends.unicasts.records.get i = none :=
  (World.life_eq_absent_iff.mp (h.fresh i hi)).1

theorem unrouted_fresh (h : w.Ok) (i : SendId) (hi : w.sends.nextId ≤ i) :
    w.sends.unroutedUnicasts.records.get i = none :=
  (World.life_eq_absent_iff.mp (h.fresh i hi)).2.1

theorem broadcasts_fresh (h : w.Ok) (i : SendId) (hi : w.sends.nextId ≤ i) :
    w.sends.broadcasts.records.get i = none :=
  (World.life_eq_absent_iff.mp (h.fresh i hi)).2.2.1

/-- The waiters that `abandon` would return, one id at a time. -/
theorem countP_abandon (h : w.Ok) (p : W → Bool) :
    w.sends.abandon.1.countP p =
      ∑ i ∈ Finset.range w.sends.nextId, (w.life i).waiter.toList.countP p := by
  have hlist : w.sends.abandon.1 = w.sends.unicasts.records.values.map (·.waiter) ++
      w.sends.unroutedUnicasts.records.values.map (·.waiter) ++
      w.sends.broadcasts.records.values.map (·.waiter) := rfl
  rw [hlist, List.countP_append, List.countP_append, List.countP_map, List.countP_map,
    List.countP_map, FlatMap.countP_values _ _ h.unicasts_fresh,
    FlatMap.countP_values _ _ h.unrouted_fresh, FlatMap.countP_values _ _ h.broadcasts_fresh,
    ← Finset.sum_add_distrib, ← Finset.sum_add_distrib]
  refine Finset.sum_congr rfl (fun i _ => ?_)
  have hl := h.lives i
  unfold Life.waiter
  cases hu : w.sends.unicasts.records.get i with
  | some r =>
    obtain ⟨hunrouted, hbroadcast, -⟩ := hl.unicast r hu
    simp only [World.life] at hunrouted hbroadcast
    simp [World.life, hu, hunrouted, hbroadcast]
  | none =>
    cases hr : w.sends.unroutedUnicasts.records.get i with
    | some r =>
      obtain ⟨hbroadcast, -⟩ := hl.unrouted r hr
      simp only [World.life] at hbroadcast
      simp [World.life, hu, hr, hbroadcast]
    | none =>
      cases hb : w.sends.broadcasts.records.get i <;> simp [World.life, hu, hr, hb]

end World.Ok

section Verdicts

variable [FromSendFailure E] {w : World F W E} {es : List (Event F W E)} {id : SendId}
  {waiter : W}

omit [FromSendFailure E] in
/-- No other send was admitted with the waiter. -/
theorem Owns.not_mem (h : Owns es id waiter) {i : SendId} (hi : i ≠ id) :
    waiter ∉ admittedWaiters i es := by
  intro hmem
  obtain ⟨e, he, hadmitted, hwaiter⟩ := exists_of_mem_admittedWaiters hmem
  exact hi (Option.some.inj (hadmitted.symm.trans ((h.alone e he).mp hwaiter)))

theorem Owns.admittedWaiters_eq (h : Owns es id waiter) (hrun : Run w es) :
    admittedWaiters id es = [waiter] := by
  obtain ⟨e, he, hadmitted⟩ := h.admitted
  have hmem : waiter ∈ admittedWaiters id es := by
    refine List.mem_filterMap.mpr ⟨e, he, ?_⟩
    simp [Event.admittedWaiter, hadmitted, (h.alone e he).mpr hadmitted]
  obtain ⟨batches, hlife⟩ := hrun.life id
  have hphase := hlife.phase
  cases hphase with
  | unborn waiters => simp [waiters] at hmem
  | waiting waiters | handed waiters | settled waiters | abandoned waiters =>
    rw [waiters] at hmem ⊢
    rw [List.mem_singleton.mp hmem]

omit [FromSendFailure E] in
theorem actionsOf_eq {logs : List (List (SendId × Action F W E))}
    (h : logs.map (List.map Prod.snd) = es.map (·.out.actions)) :
    actionsOf es = logs.flatten.map Prod.snd := by
  rw [actionsOf, ← h, List.map_flatten]

/-- The verdicts that a waiter heard are those in the life of its send. -/
theorem Owns.verdicts_eq [DecidableEq W] (h : Owns es id waiter) (hrun : Run w es)
    {logs : List (List (SendId × Action F W E))}
    (hlogs : logs.map (List.map Prod.snd) = es.map (·.out.actions))
    (hbound : ∀ entry ∈ logs.flatten, entry.1 < w.sends.nextId)
    (hlives : ∀ i, Life.Run i es (logs.map (project i)) (w.life i)) :
    verdicts waiter es =
      (logs.map (project id)).flatten.countP (Action.settles waiter) := by
  rw [verdicts, actionsOf_eq hlogs, countP_map_snd _ hbound, Finset.sum_eq_single id,
    project_flatten]
  · intro i _ hi
    rw [project_flatten, List.countP_eq_zero]
    intro action haction hsettles
    have hwaiter := (hlives i).phase.waiter_mem haction
    cases action with
    | handedOff => simp [Action.settles] at hsettles
    | settled =>
      simp only [Action.settles, decide_eq_true_eq] at hsettles
      exact h.not_mem hi (hsettles ▸ hwaiter)
  · intro hid
    obtain ⟨e, he, hadmitted⟩ := h.admitted
    exact absurd (Finset.mem_range.mpr (hrun.admitted_lt e he id hadmitted)) hid

/-- The waiter of a live send is the one it was admitted with. -/
theorem Run.waiter_mem (hrun : Run w es) {i : SendId} (h : (w.life i).waiter = some waiter) :
    waiter ∈ admittedWaiters i es := by
  obtain ⟨batches, hlife⟩ := hrun.life i
  cases hlife.phase with
  | unborn _ _ ended | settled _ _ ended | abandoned _ _ ended =>
    exact absurd (ended.symm.trans h) (by simp)
  | waiting waiters _ live | handed waiters _ live =>
    rw [waiters, Option.some.inj (h.symm.trans live)]
    exact List.mem_singleton.mpr rfl

/-- Only `abandon` returns waiters. -/
theorem step_abandoned {w' : World F W E} {op : Op F W E} {out : Output F W E}
    (h : step w op = .ok (w', out)) (hop : op.isAbandon = false) : out.abandoned = [] := by
  cases op with
  | abandon => simp [Op.isAbandon] at hop
  | cancel id =>
    obtain ⟨answer, -, h⟩ := Checked.bind_eq_ok.mp h
    cases answer <;> cases h <;> rfl
  | _ =>
    obtain ⟨result, -, h⟩ := Checked.bind_eq_ok.mp h
    cases h
    rfl

/-- Emptying the tables returns a waiter once if its send is live, else not. -/
theorem Run.count_abandon [DecidableEq W] (hrun : Run w es)
    (halone : ∀ e ∈ es, e.op.waiter = some waiter ↔ e.out.admitted = some id) :
    w.sends.abandon.1.count waiter = if (w.life id).live then 1 else 0 := by
  have hother : ∀ i, i ≠ id → (w.life i).waiter ≠ some waiter := by
    intro i hi hwaiter
    obtain ⟨e, he, hadmitted, hop⟩ := exists_of_mem_admittedWaiters (hrun.waiter_mem hwaiter)
    exact hi (Option.some.inj (hadmitted.symm.trans ((halone e he).mp hop)))
  have hself : ∀ other, (w.life id).waiter = some other → other = waiter := by
    intro other hwaiter
    obtain ⟨e, he, hadmitted, hop⟩ := exists_of_mem_admittedWaiters (hrun.waiter_mem hwaiter)
    exact Option.some.inj (hop.symm.trans ((halone e he).mpr hadmitted))
  rw [List.count, hrun.ok.countP_abandon, Finset.sum_eq_single id, Life.live_eq_isSome_waiter]
  · cases hwaiter : (w.life id).waiter with
    | none => rfl
    | some other => simp [hself other hwaiter]
  · intro i _ hi
    cases hwaiter : (w.life i).waiter with
    | none => rfl
    | some other =>
      have : other ≠ waiter := fun heq => hother i hi (heq ▸ hwaiter)
      simp [this]
  · intro hid
    rw [hrun.ok.fresh id (by simpa using hid)]
    rfl

/-- The lists that `abandon` returned name a waiter as often as its send was in a
table then. -/
theorem Run.count_abandonedOf [DecidableEq W] (hrun : Run w es)
    (halone : ∀ e ∈ es, e.op.waiter = some waiter ↔ e.out.admitted = some id) :
    (abandonedOf es).count waiter = abandonments id es := by
  induction hrun with
  | start => rfl
  | @call w w' es op out hrun hlegal hreturned ih =>
    have halone' : ∀ e ∈ es, e.op.waiter = some waiter ↔ e.out.admitted = some id :=
      fun e he => halone e (by simp [he])
    have hlist : abandonedOf (es ++ [⟨w, op, out, w'⟩]) = abandonedOf es ++ out.abandoned := by
      simp [abandonedOf]
    rw [hlist, List.count_append, ih halone', abandonments_append]
    congr 1
    cases hop : op.isAbandon with
    | false => simp [step_abandoned hreturned hop]
    | true =>
      obtain rfl : op = .abandon := by cases op <;> simp_all [Op.isAbandon]
      cases hreturned
      exact hrun.count_abandon halone'

/-- Nothing is heard after the verdict. -/
theorem Owns.handedOff_not_mem (h : Owns es id waiter) (hrun : Run w es)
    {result : Except E Unit} {frame : F} {failedHop : Option Nwk} {pre post : Actions F W E}
    (hsplit : actionsOf es = pre ++ .settled waiter result frame failedHop :: post) :
    .handedOff waiter ∉ post := by
  obtain ⟨logs, hlogs, -, hlives⟩ := hrun.lives
  rw [actionsOf_eq hlogs] at hsplit
  obtain ⟨preLog, restLog, hlog, rfl, hrest⟩ := List.map_eq_append_iff.mp hsplit
  obtain ⟨entry, postLog, rfl, hentry, rfl⟩ := List.map_eq_cons_iff.mp hrest
  -- an entry of the log with this waiter is tagged with its send
  have htag : ∀ e ∈ logs.flatten, e.2.waiter = waiter → e.1 = id := by
    intro e he hwaiter
    by_contra hne
    have hmem : e.2 ∈ (logs.map (project e.1)).flatten := by
      rw [← project_flatten]
      exact mem_project.mpr he
    exact h.not_mem hne (hwaiter ▸ (hlives e.1).phase.waiter_mem hmem)
  have hentryId : entry.1 = id := htag entry (by simp [hlog]) (by rw [hentry]; rfl)
  have hown : (logs.map (project id)).flatten =
      project id preLog ++ .settled waiter result frame failedHop :: project id postLog := by
    rw [← project_flatten, hlog, project_append, ← hentry]
    simp [project, hentryId]
  have hnil := (hlives id).phase.eq_nil_of_settled hown
  intro hmem
  obtain ⟨e, he, heq⟩ := List.mem_map.mp hmem
  have heId : e.1 = id := htag e (by simp [hlog, he]) (by rw [heq]; rfl)
  have hproject : e.2 ∈ project id postLog := mem_project.mpr (heId ▸ he)
  simp [hnil] at hproject

/-- One event in the life of a send: its step, with what the waiter hears. -/
theorem Owns.event (h : Owns es id waiter) (hrun : Run w es) {pre post : List (Event F W E)}
    {e : Event F W E} (hsplit : es = pre ++ e :: post) :
    ∃ (batches : List (Actions F W E)) (actions : Actions F W E),
      Life.Run id pre batches (e.before.life id) ∧
      Life.Step id e (e.before.life id) actions (e.after.life id) ∧
      ∀ action, action ∈ actions ↔ action ∈ e.out.actions ∧ action.waiter = waiter := by
  obtain ⟨logs, log, hlog, hlives⟩ := hrun.event hsplit
  -- the tag of an action is the send that was admitted with its waiter
  have hwaiter : ∀ i, ∀ action ∈ project i log, action.waiter ∈ admittedWaiters i es := by
    intro i action haction
    have hmem := (hlives i).1.phase.waiter_mem (show action ∈ _ by simp [haction])
    rw [hsplit, List.append_cons, admittedWaiters, List.filterMap_append]
    exact List.mem_append_left _ hmem
  refine ⟨_, _, (hlives id).2.1, (hlives id).2.2, fun action => ⟨fun haction => ?_, ?_⟩⟩
  · refine ⟨?_, ?_⟩
    · rw [← hlog]
      exact List.mem_map.mpr ⟨(id, action), mem_project.mp haction, rfl⟩
    · have hmem := hwaiter id action haction
      rw [h.admittedWaiters_eq hrun] at hmem
      exact List.mem_singleton.mp hmem
  · rintro ⟨haction, heq⟩
    rw [← hlog] at haction
    obtain ⟨⟨i, action⟩, hentry, rfl⟩ := List.mem_map.mp haction
    have hi : i = id := by
      by_contra hne
      exact h.not_mem hne (heq ▸ hwaiter i action (mem_project.mpr hentry))
    exact hi ▸ mem_project.mpr hentry

end Verdicts

end Ziggurat
