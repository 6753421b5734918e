import Ziggurat.Sends.Refinement.Runs

/-!
# Frames on loan

A frame leaves its record exactly while the radio has it.  `LoanInvariant` says
so for a whole world, in the terms of the tables: an id is in at most one table,
a record is without its frame exactly while it is in the radio, and exactly then
one token for its id is outstanding.

Each panicking branch of the tables rests on a part of this, so a legal call on a
reachable world never takes one.
-/

namespace Ziggurat

variable {F W E : Type}

/-- The tokens for `id` that `dequeue` issued and nothing reported on yet. -/
def World.outstanding (w : World F W E) (id : SendId) : Nat :=
  w.inFlight.countP (fun token => token.id = id)

/-- The tables that have `id` as a key. -/
def World.tablesOf (w : World F W E) (id : SendId) : Nat :=
  (w.sends.unicasts.records.containsKey id).toNat +
    (w.sends.unroutedUnicasts.records.containsKey id).toNat +
    (w.sends.broadcasts.records.containsKey id).toNat

/-- Where the frames of a world are. -/
structure LoanInvariant (w : World F W E) : Prop where
  oneTable : ∀ id, w.tablesOf id ≤ 1
  unicast : ∀ id r, w.sends.unicasts.records.get id = some r →
    (r.frame = none ↔ r.stage.isTransmitting = true) ∧
    (r.stage.isTransmitting = true ↔ w.outstanding id = 1)
  broadcast : ∀ id r, w.sends.broadcasts.records.get id = some r →
    (r.frame = none ↔ r.copy = .transmitting) ∧
    (r.copy = .transmitting ↔ w.outstanding id = 1)
  /-- There is never a second token, and none for an id outside those two tables. -/
  outstanding : ∀ id, w.outstanding id = 0 ∨ w.outstanding id = 1 ∧
    (w.sends.unicasts.records.containsKey id ∨ w.sends.broadcasts.records.containsKey id)

theorem World.outstanding_eq_length (w : World F W E) (id : SendId) :
    w.outstanding id = (w.life id).tokens.length := by
  simp [World.outstanding, World.life, List.countP_eq_length_filter]

private theorem frame_unicast {r : Unicasts.Record F W} {tokens : List (InFlight F)}
    (h : Life.UnicastOk r tokens) :
    (r.frame = none ↔ r.stage.isTransmitting = true) ∧
      (r.stage.isTransmitting = true ↔ tokens.length = 1) := by
  cases hs : r.stage.isTransmitting with
  | true =>
    obtain ⟨hframe, token, htokens, -⟩ := h.lent hs
    simp [hframe, htokens]
  | false =>
    obtain ⟨hframe, htokens⟩ := h.held hs
    simp [Option.isSome_iff_ne_none.mp hframe, htokens]

private theorem frame_broadcast {r : Broadcasts.Record F W E} {tokens : List (InFlight F)}
    (h : Life.BroadcastOk r tokens) :
    (r.frame = none ↔ r.copy = .transmitting) ∧
      (r.copy = .transmitting ↔ tokens.length = 1) := by
  by_cases hs : r.copy = .transmitting
  · obtain ⟨hframe, token, htokens, -⟩ := h.lent hs
    simp [hframe, htokens, hs]
  · obtain ⟨hframe, htokens⟩ := h.held hs
    simp [Option.isSome_iff_ne_none.mp hframe, htokens, hs]

/-- A sound world keeps track of its frames. -/
theorem World.Ok.loanInvariant {w : World F W E} (h : w.Ok) : LoanInvariant w := by
  refine ⟨fun id => ?_, fun id r hr => ?_, fun id r hr => ?_, fun id => ?_⟩
  · have hl := h.lives id
    simp only [tablesOf, FlatMap.containsKey_eq_isSome]
    cases hu : w.sends.unicasts.records.get id with
    | some r =>
      obtain ⟨hunrouted, hbroadcast, -⟩ := hl.unicast r hu
      simp only [World.life] at hunrouted hbroadcast
      simp [hunrouted, hbroadcast]
    | none =>
      cases hr : w.sends.unroutedUnicasts.records.get id with
      | some r =>
        obtain ⟨hbroadcast, -⟩ := hl.unrouted r hr
        simp only [World.life] at hbroadcast
        simp [hbroadcast]
      | none => cases w.sends.broadcasts.records.get id <;> simp
  · rw [outstanding_eq_length]
    exact frame_unicast ((h.lives id).unicast r hr).2.2
  · rw [outstanding_eq_length]
    exact frame_broadcast ((h.lives id).broadcast r hr)
  · rw [outstanding_eq_length]
    rcases htokens : (w.life id).tokens with _ | ⟨token, rest⟩
    · exact Or.inl rfl
    · refine Or.inr ?_
      have htoken : token ∈ (w.life id).tokens := by simp [htokens]
      rcases (h.lives id).of_token htoken with
        ⟨r, acked, hlife, -⟩ | ⟨r, hlife, -⟩
      · obtain ⟨hget, -, -, hone⟩ := Life.ext_iff.mp hlife
        refine ⟨by simpa [htokens] using hone, Or.inl ?_⟩
        simpa [FlatMap.containsKey_eq_isSome, World.life] using congrArg Option.isSome hget
      · obtain ⟨-, -, hget, hone⟩ := Life.ext_iff.mp hlife
        refine ⟨by simpa [htokens] using hone, Or.inr ?_⟩
        simpa [FlatMap.containsKey_eq_isSome, World.life] using congrArg Option.isSome hget

/-- In every run, a frame is out of its record exactly while one token for it is
outstanding, and from the world it leaves every legal call returns: no branch that
panics is ever taken. -/
theorem frames_on_loan_and_no_panic [FromSendFailure E] {w : World F W E}
    {es : List (Event F W E)} (h : Run w es) :
    LoanInvariant w ∧
      ∀ op : Op F W E, op.Legal w → admissions es + op.waiter.toList.length < 2 ^ 32 →
        ∃ w' out, step w op = .ok (w', out) := by
  refine ⟨h.ok.loanInvariant, fun op hlegal hroom => ?_⟩
  have hfits : op.Fits w := by
    intro hadmits
    obtain ⟨waiter, hwaiter⟩ := Option.isSome_iff_exists.mp hadmits
    simpa [h.nextId_eq, hwaiter] using hroom
  obtain ⟨w', out, log, hrefines⟩ := step_refines h.ok hlegal hfits
  exact ⟨w', out, hrefines.returned⟩

/-- A unicast in the radio. -/
def oneInRadio : List (Op Nat Nat SendFailure) :=
  [.enqueueUnicast
    { frame := 7, priority := .userNormal, waiter := 0, confirm := .onHandoff, nextHop := 1,
      pollAddress := none } 0 {},
  .dequeue 1]

/-- Its one token is outstanding, and the timer may run. -/
theorem frames_on_loan_and_no_panic_in_radio :
    ∃ (w : World Nat Nat SendFailure) (es : List (Event Nat Nat SendFailure)),
      Run w es ∧ w.outstanding 0 = 1 ∧ LoanInvariant w ∧
        ∃ w' out, step w (.tick 5) = .ok (w', out) := by
  have hrun := run_outcome oneInRadio (by decide +kernel)
  obtain ⟨hloans, hreturns⟩ := frames_on_loan_and_no_panic hrun
  exact ⟨_, _, hrun, by decide +kernel, hloans, hreturns (.tick 5) trivial (by decide +kernel)⟩

end Ziggurat
