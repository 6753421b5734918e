import Mathlib.Data.List.Basic
import Ziggurat.Driver.BroadcastBudget

/-!
# The rate limit of broadcasts

What the budget admits over a whole sequence of `take` calls, with limits that stay the same.

The proofs follow one quantity, the credit `tokens * interval - last_refill`.  A refill that does
not fill the bucket keeps it, for it moves the clock by one interval for each token.  A refill that
fills the bucket lowers it, and an admission lowers it by one interval.  So the admissions of a
window are bounded by the credit at its start, and a class that was deferred waits only for the
clock.  All of it is stated with sums, as the credit can be negative.

The limits are those that the tunables give: an interval is a whole number of microseconds.
-/

namespace Ziggurat.BroadcastBudget

/-- The tunables that `take` is called with. -/
structure Limits where
  capacity : UInt8
  refillInterval : Duration
  criticalReserve : UInt8
  forwardingReserve : UInt8

def Limits.floor (limits : Limits) (trafficClass : TrafficClass) : Nat :=
  BroadcastBudget.floor trafficClass limits.criticalReserve limits.forwardingReserve

structure Request where
  trafficClass : TrafficClass
  now : Instant

/-- One call of `take`, what it returned and what it left. -/
structure Outcome where
  request : Request
  admission : BroadcastAdmission
  after : BroadcastBudget

def answer (limits : Limits) (budget : BroadcastBudget) (request : Request) : Outcome :=
  let (admission, after) := budget.take request.trafficClass request.now limits.capacity
    limits.refillInterval limits.criticalReserve limits.forwardingReserve
  ⟨request, admission, after⟩

/-- The calls of a sequence, one after the other. -/
def outcomes (limits : Limits) (budget : BroadcastBudget) : List Request → List Outcome
  | [] => []
  | request :: requests =>
    let outcome := answer limits budget request
    outcome :: outcomes limits outcome.after requests

/-- A broadcast that took a token between two instants. -/
def Outcome.drawn (t₁ t₂ : Instant) (outcome : Outcome) : Bool :=
  outcome.request.trafficClass ≠ .critical ∧ outcome.admission = .admitted ∧
    t₁ ≤ outcome.request.now ∧ outcome.request.now ≤ t₂

variable {limits : Limits} {budget budget' : BroadcastBudget} {now : Instant}

/-! ## One refill -/

/-- What a refill does to the tokens, the clock and the credit. -/
structure Refilled (limits : Limits) (now : Instant) (budget budget' : BroadcastBudget) :
    Prop where
  lastRefill_le : budget'.lastRefill ≤ now
  recent : now < budget'.lastRefill + limits.refillInterval
  tokens_le : budget'.tokens ≤ limits.capacity.toNat
  credit_le : budget'.tokens * limits.refillInterval + budget.lastRefill ≤
    budget.tokens * limits.refillInterval + budget'.lastRefill
  full_or_credit_eq : budget'.tokens = limits.capacity.toNat ∨
    budget'.tokens * limits.refillInterval + budget.lastRefill =
      budget.tokens * limits.refillInterval + budget'.lastRefill

/-- A bucket that is full at `now`, and had time to get there. -/
theorem refilled_full (hinterval : limits.refillInterval ≠ 0)
    (hcredit : limits.capacity.toNat * limits.refillInterval + budget.lastRefill ≤
      budget.tokens * limits.refillInterval + now) :
    Refilled limits now budget ⟨limits.capacity.toNat, now⟩ where
  lastRefill_le := le_refl now
  recent := Nat.lt_add_of_pos_right (Nat.pos_of_ne_zero hinterval)
  tokens_le := le_refl _
  credit_le := hcredit
  full_or_credit_eq := .inl rfl

theorem refill_refilled (hinterval : limits.refillInterval ≠ 0) (hpast : budget.lastRefill ≤ now)
    (hlast : now ≤ Instant.last) :
    Refilled limits now budget
      (budget.refill now limits.capacity.toNat limits.refillInterval) := by
  have hpos : 0 < limits.refillInterval := Nat.pos_of_ne_zero hinterval
  unfold refill
  split
  next hfull =>
    have hle : limits.capacity.toNat ≤ budget.tokens := hfull.resolve_left hinterval
    have hmul := Nat.mul_le_mul_right limits.refillInterval hle
    exact refilled_full hinterval (Nat.add_le_add hmul hpast)
  next hfull =>
    have hroom : budget.tokens < limits.capacity.toNat := by lia
    generalize haccrued : (now - budget.lastRefill) / limits.refillInterval = accrued
    have hmul : accrued * limits.refillInterval ≤ now - budget.lastRefill := by
      rw [← haccrued]
      exact Nat.div_mul_le_self _ _
    have hrest : now - budget.lastRefill < accrued * limits.refillInterval + limits.refillInterval
        := by
      rw [← haccrued, ← Nat.succ_mul, Nat.mul_comm]
      exact Nat.lt_mul_div_succ _ hpos
    dsimp only
    split
    next hnone =>
      rw [hnone] at hrest
      exact ⟨hpast, by lia, hroom.le, le_refl _, .inr rfl⟩
    next =>
      split
      next hfilled =>
        have hmin : limits.capacity.toNat ≤ budget.tokens + accrued := by lia
        have hgain := Nat.mul_le_mul_right limits.refillInterval hmin
        rw [Nat.add_mul] at hgain
        exact refilled_full hinterval (by lia)
      next hnotFilled =>
        -- every interval that passed gave its token
        have hmin : min accrued (limits.capacity.toNat - budget.tokens) = accrued := by lia
        rw [hmin] at hnotFilled ⊢
        have hclock : budget.lastRefill.add (limits.refillInterval * accrued) =
            budget.lastRefill + accrued * limits.refillInterval := by
          rw [Instant.add, Nat.mul_comm]
          exact Nat.min_eq_left (by lia)
        rw [hclock]
        have hcredit : (budget.tokens + accrued) * limits.refillInterval + budget.lastRefill =
            budget.tokens * limits.refillInterval +
              (budget.lastRefill + accrued * limits.refillInterval) := by
          rw [Nat.add_mul]
          lia
        exact ⟨by lia, by lia, by lia, hcredit.le, .inr hcredit⟩

/-! ## One call -/

section Answer

variable {request : Request}

/-- Where the clock may be when the calls go on. -/
def Ready (limits : Limits) (budget : BroadcastBudget) (requests : List Request) : Prop :=
  limits.refillInterval ≠ 0 ∧ requests.Pairwise (fun r r' => r.now ≤ r'.now) ∧
    ∀ r ∈ requests, budget.lastRefill ≤ r.now ∧ r.now ≤ Instant.last

/-- The state that `take` decides in. -/
def refilledFor (limits : Limits) (budget : BroadcastBudget) (request : Request) :
    BroadcastBudget :=
  budget.refill request.now limits.capacity.toNat limits.refillInterval

@[simp] theorem answer_request (limits : Limits) (budget : BroadcastBudget) (request : Request) :
    (answer limits budget request).request = request := rfl

theorem answer_critical (hcritical : request.trafficClass = .critical) :
    answer limits budget request = ⟨request, .admitted, refilledFor limits budget request⟩ := by
  simp [answer, take, hcritical, refilledFor]

theorem answer_admitted (hclass : request.trafficClass ≠ .critical)
    (htokens : limits.floor request.trafficClass < (refilledFor limits budget request).tokens) :
    answer limits budget request = ⟨request, .admitted,
      { refilledFor limits budget request with
        tokens := (refilledFor limits budget request).tokens - 1 }⟩ := by
  unfold Limits.floor refilledFor at htokens
  simp [answer, take, hclass, htokens, refilledFor]

theorem answer_deferred (hclass : request.trafficClass ≠ .critical)
    (htokens : (refilledFor limits budget request).tokens ≤ limits.floor request.trafficClass) :
    answer limits budget request = ⟨request,
      .defer (limits.refillInterval *
        (limits.floor request.trafficClass + 1 - (refilledFor limits budget request).tokens)),
      refilledFor limits budget request⟩ := by
  unfold Limits.floor refilledFor at htokens
  simp [answer, take, hclass, Nat.not_lt.mpr htokens, refilledFor, Limits.floor]

/-- A call keeps the clock that its refill set. -/
theorem answer_lastRefill (limits : Limits) (budget : BroadcastBudget) (request : Request) :
    (answer limits budget request).after.lastRefill =
      (refilledFor limits budget request).lastRefill := by
  by_cases hclass : request.trafficClass = .critical
  · rw [answer_critical hclass]
  · by_cases htokens :
        limits.floor request.trafficClass < (refilledFor limits budget request).tokens
    · rw [answer_admitted hclass htokens]
    · rw [answer_deferred hclass (Nat.le_of_not_lt htokens)]

/-- A call that draws takes one of the tokens that its refill left. -/
theorem drawn_add_tokens (limits : Limits) (budget : BroadcastBudget) (request : Request)
    (t₁ t₂ : Instant) :
    (if (answer limits budget request).drawn t₁ t₂ = true then 1 else 0) +
      (answer limits budget request).after.tokens ≤
        (refilledFor limits budget request).tokens := by
  by_cases hclass : request.trafficClass = .critical
  · rw [answer_critical hclass]
    simp [Outcome.drawn, hclass]
  · by_cases htokens :
        limits.floor request.trafficClass < (refilledFor limits budget request).tokens
    · rw [answer_admitted hclass htokens]
      have hone : ∀ p : Bool, (if p = true then 1 else 0) ≤ 1 := by decide
      refine le_trans (Nat.add_le_add_right (hone _) _) ?_
      dsimp only
      omega
    · rw [answer_deferred hclass (Nat.le_of_not_lt htokens)]
      simp [Outcome.drawn]

variable {requests : List Request}

theorem Ready.refilled (h : Ready limits budget (request :: requests)) :
    Refilled limits request.now budget (refilledFor limits budget request) := by
  obtain ⟨hinterval, -, htimes⟩ := h
  have hhead := htimes request List.mem_cons_self
  exact refill_refilled hinterval hhead.1 hhead.2

theorem Ready.answer (h : Ready limits budget (request :: requests)) :
    Ready limits (answer limits budget request).after requests := by
  have hrefilled := h.refilled
  obtain ⟨hinterval, hsorted, htimes⟩ := h
  have hsorted := List.pairwise_cons.mp hsorted
  refine ⟨hinterval, hsorted.2, fun r hr => ?_⟩
  have hle := hsorted.1 r hr
  have hclock := hrefilled.lastRefill_le
  rw [answer_lastRefill]
  exact ⟨le_trans hclock hle, (htimes r (List.mem_cons_of_mem _ hr)).2⟩

end Answer

/-! ## Windows -/

section Window

variable {requests : List Request} {t₁ t₂ : Instant}

/-- Nothing is drawn in a window that is over. -/
theorem countP_drawn_of_lt (hlate : ∀ r ∈ requests, t₂ < r.now) :
    (outcomes limits budget requests).countP (Outcome.drawn t₁ t₂) = 0 := by
  induction requests generalizing budget with
  | nil => rfl
  | cons request requests ih =>
    have hhead := hlate request List.mem_cons_self
    have htail : ∀ r ∈ requests, t₂ < r.now := fun r hr => hlate r (List.mem_cons_of_mem _ hr)
    rw [outcomes, List.countP_cons, ih htail]
    simp [Outcome.drawn, Nat.not_le.mpr hhead]

/-- The broadcasts up to `t₂` are paid for by the tokens that are there and by the time that the
clock has before it. -/
theorem countP_drawn_credit (h : Ready limits budget requests) (ht : budget.lastRefill ≤ t₂) :
    (outcomes limits budget requests).countP (Outcome.drawn t₁ t₂) * limits.refillInterval +
        budget.lastRefill ≤
      budget.tokens * limits.refillInterval + t₂ := by
  induction requests generalizing budget with
  | nil =>
    simp only [outcomes, List.countP_nil, Nat.zero_mul]
    lia
  | cons request requests ih =>
    by_cases hlate : t₂ < request.now
    · have hnone : (outcomes limits budget (request :: requests)).countP
          (Outcome.drawn t₁ t₂) = 0 := by
        refine countP_drawn_of_lt fun r hr => ?_
        obtain rfl | hr := List.mem_cons.mp hr
        · exact hlate
        · exact lt_of_lt_of_le hlate ((List.pairwise_cons.mp h.2.1).1 r hr)
      rw [hnone, Nat.zero_mul]
      lia
    · have hrefilled := h.refilled
      have hclock := answer_lastRefill limits budget request
      have hdrawn := drawn_add_tokens limits budget request t₁ t₂
      have hle : (answer limits budget request).after.lastRefill ≤ t₂ := by
        have := hrefilled.lastRefill_le
        lia
      have hrest := ih h.answer hle
      have hcredit := hrefilled.credit_le
      have hspent := Nat.mul_le_mul_right limits.refillInterval hdrawn
      rw [Nat.add_mul] at hspent
      rw [outcomes, List.countP_cons, Nat.add_mul]
      lia

/-- From its first call on, a window has the tokens of a full bucket and the time that passes,
and less than an interval that had passed before. -/
theorem countP_drawn_window {request : Request} (h : Ready limits budget (request :: requests))
    (hstart : t₁ ≤ request.now) (hend : request.now ≤ t₂) :
    (outcomes limits budget (request :: requests)).countP (Outcome.drawn t₁ t₂) ≤
      limits.capacity.toNat + (t₂ - t₁) / limits.refillInterval + 1 := by
  have hrefilled := h.refilled
  have hclock := answer_lastRefill limits budget request
  have hle : (answer limits budget request).after.lastRefill ≤ t₂ := by
    have := hrefilled.lastRefill_le
    lia
  have hrest : (outcomes limits (answer limits budget request).after requests).countP
        (Outcome.drawn t₁ t₂) * limits.refillInterval +
      (answer limits budget request).after.lastRefill ≤
        (answer limits budget request).after.tokens * limits.refillInterval + t₂ :=
    countP_drawn_credit h.answer hle
  have hspent := Nat.mul_le_mul_right limits.refillInterval
    (drawn_add_tokens limits budget request t₁ t₂)
  have hfull := Nat.mul_le_mul_right limits.refillInterval hrefilled.tokens_le
  have hrecent := hrefilled.recent
  rw [outcomes, List.countP_cons]
  generalize (outcomes limits (answer limits budget request).after requests).countP
    (Outcome.drawn t₁ t₂) = later at hrest ⊢
  generalize (if (answer limits budget request).drawn t₁ t₂ = true then 1 else 0) = first
    at hspent ⊢
  rw [Nat.add_mul] at hspent
  have hpos : 0 < limits.refillInterval := Nat.pos_of_ne_zero h.1
  have htotal : (later + first) * limits.refillInterval <
      (limits.capacity.toNat + 1) * limits.refillInterval + (t₂ - t₁) := by
    rw [Nat.add_mul, Nat.add_mul]
    lia
  have hexcess : later + first - (limits.capacity.toNat + 1) ≤
      (t₂ - t₁) / limits.refillInterval := by
    rw [Nat.le_div_iff_mul_le hpos, Nat.sub_mul]
    lia
  lia

theorem countP_drawn_le (h : Ready limits budget requests) :
    (outcomes limits budget requests).countP (Outcome.drawn t₁ t₂) ≤
      limits.capacity.toNat + (t₂ - t₁) / limits.refillInterval + 1 := by
  induction requests generalizing budget with
  | nil => exact Nat.zero_le _
  | cons request requests ih =>
    by_cases hin : t₁ ≤ request.now ∧ request.now ≤ t₂
    · exact countP_drawn_window h hin.1 hin.2
    · have hout : (answer limits budget request).drawn t₁ t₂ = false := by
        simp only [Outcome.drawn, answer_request, hin, and_false, decide_false]
      rw [outcomes, List.countP_cons, hout]
      exact ih h.answer

end Window

/-! ## Starvation -/

section Starvation

variable {requests : List Request} {request request' : Request}

/-- The calls from one of the outcomes on. -/
theorem outcomes_eq_append {before rest : List Outcome} (h : Ready limits budget requests)
    (hsplit : outcomes limits budget requests = before ++ rest) :
    ∃ budget' requests', Ready limits budget' requests' ∧
      rest = outcomes limits budget' requests' := by
  induction before generalizing budget requests with
  | nil => exact ⟨budget, requests, h, hsplit.symm⟩
  | cons outcome before ih =>
    cases requests with
    | nil => cases hsplit
    | cons request requests =>
      have htail := (List.cons.inj hsplit).2
      exact ih h.answer htail

/-- By the instant `ready` the class has its token: the bucket is full, or the clock has time for
the tokens that are missing. -/
def ReadyBy (limits : Limits) (trafficClass : TrafficClass) (ready : Instant)
    (budget : BroadcastBudget) : Prop :=
  budget.tokens = limits.capacity.toNat ∨
    (limits.floor trafficClass + 1) * limits.refillInterval + budget.lastRefill ≤
      budget.tokens * limits.refillInterval + ready

variable {trafficClass : TrafficClass} {ready : Instant}

theorem ReadyBy.refilled (h : ReadyBy limits trafficClass ready budget)
    (hready : Ready limits budget (request :: requests)) :
    ReadyBy limits trafficClass ready (refilledFor limits budget request) := by
  obtain hfull | hcredit := h
  · left
    rw [refilledFor, refill, if_pos (.inr hfull.ge)]
  · obtain hfull | heq := hready.refilled.full_or_credit_eq
    · exact .inl hfull
    · right
      lia

/-- A deferral tells the class when it has its token. -/
theorem readyBy_of_deferred {retryIn : Duration}
    (hready : Ready limits budget (request :: requests))
    (hdefer : (answer limits budget request).admission = .defer retryIn) :
    ReadyBy limits request.trafficClass (request.now + retryIn)
      (answer limits budget request).after := by
  by_cases hclass : request.trafficClass = .critical
  · rw [answer_critical hclass] at hdefer
    cases hdefer
  · by_cases htokens :
        limits.floor request.trafficClass < (refilledFor limits budget request).tokens
    · rw [answer_admitted hclass htokens] at hdefer
      cases hdefer
    · have hle := Nat.le_of_not_lt htokens
      rw [answer_deferred hclass hle] at hdefer ⊢
      cases hdefer
      right
      have hclock := hready.refilled.lastRefill_le
      have hmissing : limits.floor request.trafficClass + 1 =
          (refilledFor limits budget request).tokens + (limits.floor request.trafficClass + 1 -
            (refilledFor limits budget request).tokens) := by
        omega
      have hproduct := congrArg (· * limits.refillInterval) hmissing
      rw [Nat.add_mul (refilledFor limits budget request).tokens] at hproduct
      rw [hproduct, Nat.mul_comm limits.refillInterval]
      lia

theorem ReadyBy.admitted (h : ReadyBy limits request.trafficClass ready budget)
    (hready : Ready limits budget (request :: requests))
    (hfloor : limits.floor request.trafficClass < limits.capacity.toNat)
    (hnow : ready ≤ request.now) : (answer limits budget request).admission = .admitted := by
  by_cases hclass : request.trafficClass = .critical
  · rw [answer_critical hclass]
  · have htokens :
        limits.floor request.trafficClass < (refilledFor limits budget request).tokens := by
      obtain hfull | hcredit := h.refilled hready
      · rw [hfull]
        exact hfloor
      · have hrecent := hready.refilled.recent
        have hlt : (limits.floor request.trafficClass + 1) * limits.refillInterval <
            ((refilledFor limits budget request).tokens + 1) * limits.refillInterval := by
          rw [Nat.add_mul (refilledFor limits budget request).tokens]
          lia
        have hsucc := Nat.lt_of_mul_lt_mul_right hlt
        omega
    rw [answer_admitted hclass htokens]

/-- Calls that draw nothing let the class have its token all the same. -/
theorem ReadyBy.admitted_later {between after : List Outcome} {outcome : Outcome}
    (h : ReadyBy limits outcome.request.trafficClass ready budget)
    (hready : Ready limits budget requests)
    (hsplit : outcomes limits budget requests = between ++ outcome :: after)
    (hcritical : ∀ other ∈ between, other.request.trafficClass = .critical)
    (hfloor : limits.floor outcome.request.trafficClass < limits.capacity.toNat)
    (hnow : ready ≤ outcome.request.now) : outcome.admission = .admitted := by
  induction between generalizing budget requests with
  | nil =>
    cases requests with
    | nil => cases hsplit
    | cons request requests =>
      have houtcome : answer limits budget request = outcome := (List.cons.inj hsplit).1
      subst houtcome
      exact h.admitted hready hfloor hnow
  | cons other between ih =>
    cases requests with
    | nil => cases hsplit
    | cons request requests =>
      have hother : answer limits budget request = other := (List.cons.inj hsplit).1
      have hclass : request.trafficClass = .critical := by
        have := hcritical other List.mem_cons_self
        rwa [← hother] at this
      have hafter : ReadyBy limits outcome.request.trafficClass ready
          (answer limits budget request).after := by
        rw [answer_critical hclass]
        exact h.refilled hready
      exact ih hafter hready.answer (List.cons.inj hsplit).2
        fun o ho => hcritical o (List.mem_cons_of_mem _ ho)

end Starvation

/-- The reserves hold at every admission. -/
theorem floor_le_tokens (request : Request)
    (hadmitted : (answer limits budget request).admission = .admitted) :
    limits.floor request.trafficClass ≤ (answer limits budget request).after.tokens := by
  by_cases hclass : request.trafficClass = .critical
  · rw [hclass]
    exact Nat.zero_le _
  · by_cases htokens :
        limits.floor request.trafficClass < (refilledFor limits budget request).tokens
    · rw [answer_admitted hclass htokens]
      exact Nat.le_sub_one_of_lt htokens
    · rw [answer_deferred hclass (Nat.le_of_not_lt htokens)] at hadmitted
      cases hadmitted

theorem exists_answer {requests : List Request} {outcome : Outcome}
    (h : outcome ∈ outcomes limits budget requests) :
    ∃ budget', outcome = answer limits budget' outcome.request := by
  induction requests generalizing budget with
  | nil => cases h
  | cons request requests ih =>
    obtain rfl | h := List.mem_cons.mp h
    · exact ⟨budget, rfl⟩
    · exact ih h

/-- Over every sequence of calls, the budget limits the broadcasts of every window, keeps the
reserves of each class, and admits a class that was deferred once its wait is over. -/
theorem broadcast_rate_limit (initialTokens : UInt8) (limits : Limits)
    (hinterval : limits.refillInterval ≠ 0) (requests : List Request)
    (hsorted : requests.Pairwise fun r r' => r.now ≤ r'.now)
    (hlast : ∀ r ∈ requests, r.now ≤ Instant.last) :
    (∀ t₁ t₂, t₁ ≤ t₂ →
      (outcomes limits (new initialTokens) requests).countP (Outcome.drawn t₁ t₂) ≤
        limits.capacity.toNat + (t₂ - t₁) / limits.refillInterval + 1) ∧
    (∀ outcome ∈ outcomes limits (new initialTokens) requests, outcome.admission = .admitted →
      (outcome.request.trafficClass = .forwarding →
        limits.criticalReserve.toNat ≤ outcome.after.tokens) ∧
      (outcome.request.trafficClass = .host →
        limits.criticalReserve.toNat + limits.forwardingReserve.toNat ≤ outcome.after.tokens)) ∧
    ∀ before between after deferred outcome retryIn,
      outcomes limits (new initialTokens) requests =
        before ++ deferred :: (between ++ outcome :: after) →
      deferred.admission = .defer retryIn →
      (∀ other ∈ between, other.request.trafficClass = .critical) →
      outcome.request.trafficClass = deferred.request.trafficClass →
      limits.floor deferred.request.trafficClass < limits.capacity.toNat →
      deferred.request.now + retryIn ≤ outcome.request.now →
      outcome.admission = .admitted := by
  have hready : Ready limits (new initialTokens) requests :=
    ⟨hinterval, hsorted, fun r hr => ⟨Nat.zero_le _, hlast r hr⟩⟩
  refine ⟨fun t₁ t₂ _ => countP_drawn_le hready, fun outcome hmem hadmitted => ?_, ?_⟩
  · obtain ⟨budget, hanswer⟩ := exists_answer hmem
    rw [hanswer] at hadmitted
    have hfloor := floor_le_tokens outcome.request hadmitted
    rw [← hanswer] at hfloor
    constructor
    · intro hclass
      rwa [hclass] at hfloor
    · intro hclass
      rwa [hclass] at hfloor
  · intro before between after deferred outcome retryIn hsplit hdefer hcritical hclass hfloor hnow
    obtain ⟨budget, requests', hready', hrest⟩ := outcomes_eq_append hready hsplit
    cases requests' with
    | nil => cases hrest
    | cons request requests' =>
      obtain ⟨rfl, htail⟩ := List.cons.inj hrest
      have hwait := readyBy_of_deferred hready' hdefer
      rw [← hclass] at hfloor
      rw [answer_request] at hclass hnow
      rw [← hclass] at hwait
      exact hwait.admitted_later hready'.answer htail.symm hcritical hfloor hnow

namespace Example

def oneToken : Limits := ⟨1, 10, 0, 0⟩

/-- The first broadcast is admitted, the second deferred, and the last one comes when the wait of
the second is over. -/
def calls : List Request := [⟨.host, 5⟩, ⟨.host, 7⟩, ⟨.critical, 8⟩, ⟨.host, 17⟩]

end Example

open BroadcastBudget.Example in
theorem broadcast_rate_limit_calls :
    (outcomes oneToken (new 1) calls).countP (Outcome.drawn 5 17) ≤ 3 ∧
    (outcomes oneToken (new 1) calls).map (·.admission) =
      [.admitted, .defer 10, .admitted, .admitted] := by
  have hsorted : calls.Pairwise fun r r' => r.now ≤ r'.now := by simp [calls]
  have hlast : ∀ r ∈ calls, r.now ≤ Instant.last := by simp [calls, Instant.last]
  have h := broadcast_rate_limit 1 oneToken (by decide) calls hsorted hlast
  exact ⟨h.1 5 17 (by decide), by decide⟩

end Ziggurat.BroadcastBudget
