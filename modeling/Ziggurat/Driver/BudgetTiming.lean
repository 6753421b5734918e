import Ziggurat.Driver.RateLimit

/-!
# When the broadcast budget frees a token

A refill depends on the time alone: two refills are the later one.  So the critical broadcasts,
which refill the bucket and draw nothing, leave no trace in what the others are told
(`critical_calls_neutral`).

The wait that a deferral names counts whole intervals from the call, but the tokens come at whole
intervals from the last refill.  `deferral_exact_iff` says when the token comes no sooner.
-/

namespace Ziggurat.BroadcastBudget

variable {limits : Limits} {budget budget' : BroadcastBudget}

/-! ## Refills -/

/-- The refill of a bucket that is not full. -/
theorem refill_of_lt {now : Instant} (hinterval : limits.refillInterval ≠ 0)
    (hroom : budget.tokens < limits.capacity.toNat) (hlast : now ≤ Instant.last) :
    budget.refill now limits.capacity.toNat limits.refillInterval =
      let accrued := (now - budget.lastRefill) / limits.refillInterval
      if limits.capacity.toNat ≤ budget.tokens + accrued then ⟨limits.capacity.toNat, now⟩
      else ⟨budget.tokens + accrued, budget.lastRefill + limits.refillInterval * accrued⟩ := by
  unfold refill
  rw [if_neg fun h => h.elim hinterval (Nat.not_le.mpr hroom)]
  have hmul := Nat.mul_div_le (now - budget.lastRefill) limits.refillInterval
  generalize (now - budget.lastRefill) / limits.refillInterval = accrued at hmul ⊢
  dsimp only
  by_cases hnone : accrued = 0
  · rw [if_pos hnone, hnone, Nat.add_zero, Nat.mul_zero, Nat.add_zero,
      if_neg (Nat.not_le.mpr hroom)]
  · rw [if_neg hnone]
    by_cases hfilled : limits.capacity.toNat ≤ budget.tokens + accrued
    · rw [if_pos hfilled, if_pos (by lia)]
    · have hadded : min accrued (limits.capacity.toNat - budget.tokens) = accrued := by lia
      have hpos : 0 < limits.refillInterval * accrued :=
        Nat.mul_pos (Nat.pos_of_ne_zero hinterval) (Nat.pos_of_ne_zero hnone)
      rw [if_neg hfilled, hadded, if_neg hfilled, Instant.add, Nat.min_eq_left (by lia)]

theorem refill_of_full {now : Instant}
    (hfull : limits.refillInterval = 0 ∨ limits.capacity.toNat ≤ budget.tokens) :
    budget.refill now limits.capacity.toNat limits.refillInterval =
      ⟨limits.capacity.toNat, now⟩ :=
  if_pos hfull

/-- Two refills are the later one. -/
theorem refill_refill {earlier later : Instant} (horder : earlier ≤ later)
    (hlast : later ≤ Instant.last) :
    (budget.refill earlier limits.capacity.toNat limits.refillInterval).refill later
      limits.capacity.toNat limits.refillInterval =
    budget.refill later limits.capacity.toNat limits.refillInterval := by
  by_cases hfull : limits.refillInterval = 0 ∨ limits.capacity.toNat ≤ budget.tokens
  · rw [refill_of_full hfull, refill_of_full hfull, refill_of_full (.inr (le_refl _))]
  · have hinterval : limits.refillInterval ≠ 0 := fun h => hfull (.inl h)
    have hroom : budget.tokens < limits.capacity.toNat := Nat.lt_of_not_le fun h => hfull (.inr h)
    rw [refill_of_lt hinterval hroom (horder.trans hlast), refill_of_lt hinterval hroom hlast]
    have hmono : (earlier - budget.lastRefill) / limits.refillInterval ≤
        (later - budget.lastRefill) / limits.refillInterval :=
      Nat.div_le_div_right (Nat.sub_le_sub_right horder _)
    dsimp only
    generalize haccrued : (earlier - budget.lastRefill) / limits.refillInterval = accrued at hmono ⊢
    by_cases hfilled : limits.capacity.toNat ≤ budget.tokens + accrued
    · rw [if_pos hfilled, refill_of_full (.inr (le_refl _)), if_pos (by lia)]
    · rw [if_neg hfilled, refill_of_lt hinterval (Nat.lt_of_not_le hfilled) hlast]
      -- the second refill counts from the end of the intervals that the first one counted
      have hrest : (later - (budget.lastRefill + limits.refillInterval * accrued)) /
          limits.refillInterval =
          (later - budget.lastRefill) / limits.refillInterval - accrued := by
        rw [← Nat.sub_sub, Nat.sub_mul_div]
      dsimp only
      rw [hrest]
      generalize (later - budget.lastRefill) / limits.refillInterval = total at hmono ⊢
      have htokens : budget.tokens + accrued + (total - accrued) = budget.tokens + total := by lia
      have hclock : budget.lastRefill + limits.refillInterval * accrued +
          limits.refillInterval * (total - accrued) =
          budget.lastRefill + limits.refillInterval * total := by
        rw [Nat.add_assoc, ← Nat.mul_add, Nat.add_sub_cancel' hmono]
      rw [htokens, hclock]

/-! ## Critical broadcasts -/

/-- A call sees the bucket as it is after the refill. -/
theorem answer_congr {request : Request}
    (h : refilledFor limits budget request = refilledFor limits budget' request) :
    answer limits budget request = answer limits budget' request := by
  unfold refilledFor at h
  unfold answer take
  rw [h]

/-- The calls that are not deleted. -/
def remaining (calls : List (Request × Bool)) : List Request :=
  (calls.filter fun call => !call.2).map Prod.fst

/-- What the calls that are not deleted are told in the whole sequence. -/
def told (limits : Limits) (budget : BroadcastBudget) (calls : List (Request × Bool)) :
    List (Request × BroadcastAdmission) :=
  (((outcomes limits budget (calls.map Prod.fst)).zip calls).filter fun pair => !pair.2.2).map
    fun pair => (pair.1.request, pair.1.admission)

theorem told_cons_of_kept {call : Request × Bool} {calls : List (Request × Bool)}
    (h : call.2 = false) :
    told limits budget (call :: calls) = (call.1, (answer limits budget call.1).admission) ::
      told limits (answer limits budget call.1).after calls := by
  unfold told
  rw [List.map_cons, outcomes, List.zip_cons_cons, List.filter_cons_of_pos (by rw [h]; rfl)]
  rfl

theorem told_cons_of_deleted {call : Request × Bool} {calls : List (Request × Bool)}
    (h : call.2 = true) :
    told limits budget (call :: calls) =
      told limits (answer limits budget call.1).after calls := by
  unfold told
  rw [List.map_cons, outcomes, List.zip_cons_cons, List.filter_cons_of_neg (by rw [h]; simp)]

theorem remaining_cons_of_kept {call : Request × Bool} {calls : List (Request × Bool)}
    (h : call.2 = false) : remaining (call :: calls) = call.1 :: remaining calls := by
  unfold remaining
  rw [List.filter_cons_of_pos (by rw [h]; rfl), List.map_cons]

theorem remaining_cons_of_deleted {call : Request × Bool} {calls : List (Request × Bool)}
    (h : call.2 = true) : remaining (call :: calls) = remaining calls := by
  unfold remaining
  rw [List.filter_cons_of_neg (by rw [h]; simp)]

/-- Two buckets that every refill makes the same. -/
theorem told_eq_of_refills {calls : List (Request × Bool)}
    (hdeleted : ∀ call ∈ calls, call.2 = true → call.1.trafficClass = .critical)
    (hsorted : calls.Pairwise fun call call' => call.1.now ≤ call'.1.now)
    (hlast : ∀ call ∈ calls, call.1.now ≤ Instant.last)
    (hrefills : ∀ call ∈ calls, refilledFor limits budget call.1 =
      refilledFor limits budget' call.1) :
    told limits budget calls = (outcomes limits budget' (remaining calls)).map
      fun outcome => (outcome.request, outcome.admission) := by
  induction calls generalizing budget budget' with
  | nil => rfl
  | cons call calls ih =>
    obtain ⟨hcritical, hdeleted⟩ := List.forall_mem_cons.mp hdeleted
    obtain ⟨hlater, hsorted⟩ := List.pairwise_cons.mp hsorted
    obtain ⟨-, hlast⟩ := List.forall_mem_cons.mp hlast
    obtain ⟨hrefill, hrefills⟩ := List.forall_mem_cons.mp hrefills
    have hanswer : answer limits budget call.1 = answer limits budget' call.1 :=
      answer_congr hrefill
    cases hcall : call.2 with
    | false =>
      rw [told_cons_of_kept hcall, remaining_cons_of_kept hcall, outcomes, List.map_cons, hanswer,
        ih hdeleted hsorted hlast fun _ _ => rfl]
      rfl
    | true =>
      have hafter : (answer limits budget call.1).after = refilledFor limits budget call.1 := by
        rw [answer_critical (hcritical hcall)]
      rw [told_cons_of_deleted hcall, remaining_cons_of_deleted hcall]
      refine ih hdeleted hsorted hlast fun other hother => ?_
      rw [← hrefills other hother, hafter]
      exact refill_refill (hlater other hother) (hlast other hother)

/-- Whichever of the critical calls are deleted, the others are told the same. -/
theorem critical_calls_neutral (limits : Limits) (budget : BroadcastBudget)
    (calls : List (Request × Bool))
    (hdeleted : ∀ call ∈ calls, call.2 = true → call.1.trafficClass = .critical)
    (hsorted : calls.Pairwise fun call call' => call.1.now ≤ call'.1.now)
    (hlast : ∀ call ∈ calls, call.1.now ≤ Instant.last) :
    told limits budget calls = (outcomes limits budget (remaining calls)).map
      fun outcome => (outcome.request, outcome.admission) :=
  told_eq_of_refills hdeleted hsorted hlast fun _ _ => rfl

namespace Example

/-- A critical broadcast between two of the host, to be deleted. -/
def marked : List (Request × Bool) :=
  [(⟨.host, 5⟩, false), (⟨.critical, 8⟩, true), (⟨.host, 9⟩, false)]

end Example

open BroadcastBudget.Example in
/-- The second broadcast of the host is told to wait with or without the critical one. -/
theorem critical_calls_neutral_marked :
    told oneToken (new 1) marked = [(⟨.host, 5⟩, .admitted), (⟨.host, 9⟩, .defer 10)] :=
  (critical_calls_neutral oneToken (new 1) marked (by decide) (by decide) (by decide)).trans rfl

/-! ## Deferrals -/

/-- The bucket after some calls. -/
def final (limits : Limits) (budget : BroadcastBudget) : List Request → BroadcastBudget
  | [] => budget
  | request :: requests => final limits (answer limits budget request).after requests

/-- The clock of the bucket is not ahead of the calls. -/
theorem lastRefill_answer_le {request : Request} (hpast : budget.lastRefill ≤ request.now)
    (hlast : request.now ≤ Instant.last) :
    (answer limits budget request).after.lastRefill ≤ request.now := by
  rw [answer_lastRefill, refilledFor]
  by_cases hfull : limits.refillInterval = 0 ∨ limits.capacity.toNat ≤ budget.tokens
  · rw [refill_of_full hfull]
  · have hinterval : limits.refillInterval ≠ 0 := fun h => hfull (.inl h)
    exact (refill_refilled hinterval hpast hlast).lastRefill_le

theorem lastRefill_final_le {requests : List Request} {request : Request}
    (hsorted : (requests ++ [request]).Pairwise fun r r' => r.now ≤ r'.now)
    (hlast : ∀ r ∈ requests ++ [request], r.now ≤ Instant.last)
    (hpast : ∀ r ∈ requests ++ [request], budget.lastRefill ≤ r.now) :
    (final limits budget requests).lastRefill ≤ request.now := by
  induction requests generalizing budget with
  | nil => exact hpast request List.mem_cons_self
  | cons first requests ih =>
    obtain ⟨hlater, hsorted⟩ := List.pairwise_cons.mp hsorted
    obtain ⟨hfirst, hlast⟩ := List.forall_mem_cons.mp hlast
    refine ih hsorted hlast fun r hr => ?_
    exact (lastRefill_answer_le (hpast first List.mem_cons_self) hfirst).trans (hlater r hr)

/-- A class that is not critical is deferred if the refill leaves no token for it. -/
theorem deferred_iff {request : Request} (hclass : request.trafficClass ≠ .critical) :
    (∃ retryIn, (answer limits budget request).admission = .defer retryIn) ↔
      (refilledFor limits budget request).tokens ≤ limits.floor request.trafficClass := by
  by_cases htokens :
      limits.floor request.trafficClass < (refilledFor limits budget request).tokens
  · rw [answer_admitted hclass htokens]
    exact iff_of_false (by rintro ⟨_, h⟩; cases h) (Nat.not_le.mpr htokens)
  · rw [answer_deferred hclass (Nat.le_of_not_lt htokens)]
    exact iff_of_true ⟨_, rfl⟩ (Nat.le_of_not_lt htokens)

/-- When a bucket that is not full has a token above a floor. -/
theorem tokens_refill_le_iff {now : Instant} {floor : Nat} (hinterval : limits.refillInterval ≠ 0)
    (hroom : budget.tokens < limits.capacity.toNat) (hfloor : floor < limits.capacity.toNat)
    (htokens : budget.tokens ≤ floor) (hpast : budget.lastRefill ≤ now)
    (hlast : now ≤ Instant.last) :
    (budget.refill now limits.capacity.toNat limits.refillInterval).tokens ≤ floor ↔
      now < budget.lastRefill + limits.refillInterval * (floor + 1 - budget.tokens) := by
  have hdiv : (now - budget.lastRefill) / limits.refillInterval < floor + 1 - budget.tokens ↔
      now - budget.lastRefill < limits.refillInterval * (floor + 1 - budget.tokens) := by
    rw [Nat.div_lt_iff_lt_mul (Nat.pos_of_ne_zero hinterval), Nat.mul_comm]
  rw [refill_of_lt hinterval hroom hlast]
  dsimp only
  generalize limits.refillInterval * (floor + 1 - budget.tokens) = wait at hdiv ⊢
  generalize (now - budget.lastRefill) / limits.refillInterval = accrued at hdiv ⊢
  split
  · dsimp only
    lia
  · dsimp only
    lia

theorem tokens_refill_le {now : Instant} (hlast : now ≤ Instant.last) :
    (budget.refill now limits.capacity.toNat limits.refillInterval).tokens ≤
      limits.capacity.toNat := by
  by_cases hfull : limits.refillInterval = 0 ∨ limits.capacity.toNat ≤ budget.tokens
  · rw [refill_of_full hfull]
  · have hinterval : limits.refillInterval ≠ 0 := fun h => hfull (.inl h)
    have hroom : budget.tokens < limits.capacity.toNat := Nat.lt_of_not_le fun h => hfull (.inr h)
    rw [refill_of_lt hinterval hroom hlast]
    dsimp only
    split
    · exact le_refl _
    · exact (Nat.lt_of_not_le ‹_›).le

section

variable {request : Request}

/-- A class that the capacity allows is deferred only if the bucket is not full. -/
theorem not_full_of_deferred
    (hfloor : limits.floor request.trafficClass < limits.capacity.toNat)
    (hnow : request.now ≤ Instant.last)
    (hleft : (refilledFor limits budget request).tokens ≤ limits.floor request.trafficClass) :
    limits.refillInterval ≠ 0 ∧ budget.tokens < limits.capacity.toNat ∧
      (refilledFor limits budget request).tokens = budget.tokens +
        (request.now - budget.lastRefill) / limits.refillInterval := by
  rw [refilledFor] at hleft ⊢
  by_cases hfull : limits.refillInterval = 0 ∨ limits.capacity.toNat ≤ budget.tokens
  · rw [refill_of_full hfull] at hleft
    exact absurd hleft (Nat.not_le.mpr hfloor)
  · have hinterval : limits.refillInterval ≠ 0 := fun h => hfull (.inl h)
    have hroom : budget.tokens < limits.capacity.toNat := Nat.lt_of_not_le fun h => hfull (.inr h)
    refine ⟨hinterval, hroom, ?_⟩
    rw [refill_of_lt hinterval hroom hnow] at hleft ⊢
    dsimp only at hleft ⊢
    split at hleft
    · exact absurd hleft (Nat.not_le.mpr hfloor)
    · rw [if_neg ‹_›]

/-- The wait ends as long after the instant of the token as the call is after a whole number of
intervals. -/
theorem now_add_wait {floor tokens : Nat} {interval now lastRefill : Nat}
    (hpast : lastRefill ≤ now) (htokens : tokens + (now - lastRefill) / interval ≤ floor) :
    now + interval * (floor + 1 - (tokens + (now - lastRefill) / interval)) =
      lastRefill + interval * (floor + 1 - tokens) + (now - lastRefill) % interval := by
  have hsplit := Nat.div_add_mod (now - lastRefill) interval
  generalize (now - lastRefill) / interval = accrued at hsplit htokens ⊢
  have hmul : interval * (floor + 1 - tokens) =
      interval * accrued + interval * (floor + 1 - (tokens + accrued)) := by
    rw [← Nat.mul_add]
    congr 1
    omega
  omega

end

/-- The wait that a deferral names is exact if the class can never be admitted, if the call is a
whole number of intervals after the last refill, or if the clock ends before the token comes. -/
theorem deferral_exact_iff (initialTokens : UInt8) (limits : Limits) (requests : List Request)
    (request : Request) (retryIn : Duration)
    (hsorted : (requests ++ [request]).Pairwise fun r r' => r.now ≤ r'.now)
    (hlast : ∀ r ∈ requests ++ [request], r.now ≤ Instant.last)
    (hdefer : (answer limits (final limits (new initialTokens) requests) request).admission =
      .defer retryIn) :
    (∀ now, request.now ≤ now → now < request.now + retryIn → now ≤ Instant.last →
      ∃ wait, (answer limits (answer limits (final limits (new initialTokens) requests)
        request).after ⟨request.trafficClass, now⟩).admission = .defer wait) ↔
    limits.capacity.toNat ≤ limits.floor request.trafficClass ∨
    limits.refillInterval ∣ request.now - (final limits (new initialTokens) requests).lastRefill ∨
    Instant.last < (final limits (new initialTokens) requests).lastRefill +
      limits.refillInterval * (limits.floor request.trafficClass + 1 -
        (final limits (new initialTokens) requests).tokens) := by
  have hpast := @lastRefill_final_le limits (new initialTokens) requests request hsorted hlast
    fun _ _ => Nat.zero_le _
  generalize final limits (new initialTokens) requests = budget at hdefer hpast ⊢
  have hnow := hlast request (List.mem_append_right _ List.mem_cons_self)
  have hclass : request.trafficClass ≠ .critical := by
    intro hcritical
    rw [answer_critical hcritical] at hdefer
    cases hdefer
  have hleft := (deferred_iff hclass).mp ⟨retryIn, hdefer⟩
  rw [answer_deferred hclass hleft] at hdefer ⊢
  have hretryIn := BroadcastAdmission.defer.inj hdefer
  dsimp only
  have hlater : ∀ now, request.now ≤ now → now ≤ Instant.last →
      ((∃ wait, (answer limits (refilledFor limits budget request)
        ⟨request.trafficClass, now⟩).admission = .defer wait) ↔
      (budget.refill now limits.capacity.toNat limits.refillInterval).tokens ≤
        limits.floor request.trafficClass) := by
    intro now hle hend
    refine (@deferred_iff limits _ ⟨request.trafficClass, now⟩ hclass).trans ?_
    rw [refilledFor, refilledFor, refill_refill hle hend]
  by_cases hfloor : limits.capacity.toNat ≤ limits.floor request.trafficClass
  · refine iff_of_true (fun now hle _ hend => (hlater now hle hend).mpr ?_) (.inl hfloor)
    exact (tokens_refill_le hend).trans hfloor
  · have hfloor := Nat.lt_of_not_le hfloor
    obtain ⟨hinterval, hroom, htokens⟩ := not_full_of_deferred hfloor hnow hleft
    have hwait := now_add_wait hpast (htokens ▸ hleft)
    rw [← htokens, hretryIn] at hwait
    have hiff : ∀ now, request.now ≤ now → now ≤ Instant.last → _ := fun now hle =>
      @tokens_refill_le_iff limits budget now (limits.floor request.trafficClass) hinterval hroom
        hfloor (by lia) (hpast.trans hle)
    have hfirst := (hiff request.now (le_refl _) hnow).mp hleft
    rw [or_iff_right (Nat.not_le.mpr hfloor), Nat.dvd_iff_mod_eq_zero]
    generalize (request.now - budget.lastRefill) % limits.refillInterval = rest at hwait ⊢
    generalize budget.lastRefill + limits.refillInterval *
      (limits.floor request.trafficClass + 1 - budget.tokens) = first at hiff hfirst hwait ⊢
    constructor
    · intro hdeferred
      by_contra hsooner
      push Not at hsooner
      -- the call at the instant of the token is admitted
      have hadmitted := (hlater first hfirst.le hsooner.2).mp
        (hdeferred first hfirst.le (by lia) hsooner.2)
      exact absurd ((hiff first hfirst.le hsooner.2).mp hadmitted) (lt_irrefl first)
    · intro hexact now hle hbefore hend
      exact (hlater now hle hend).mpr ((hiff now hle hend).mpr (by lia))

open BroadcastBudget.Example in
/-- A second broadcast at the instant of the first one waits for a whole interval: at its last
instant it is still deferred. -/
theorem deferral_exact_iff_burst :
    (answer oneToken (final oneToken (new 1) [⟨.host, 5⟩]) ⟨.host, 5⟩).admission = .defer 10 ∧
    ∃ wait, (answer oneToken (answer oneToken (final oneToken (new 1) [⟨.host, 5⟩])
      ⟨.host, 5⟩).after ⟨.host, 14⟩).admission = .defer wait :=
  ⟨by decide, (deferral_exact_iff 1 oneToken [⟨.host, 5⟩] ⟨.host, 5⟩ 10 (by decide) (by decide)
    (by decide)).mpr (.inr (.inl (by decide))) 14 (by decide) (by decide) (by decide)⟩

open BroadcastBudget.Example in
/-- Two microseconds after the first broadcast the second is told to wait for ten, and the token
comes after eight. -/
theorem deferral_early :
    (answer oneToken (final oneToken (new 1) [⟨.host, 5⟩]) ⟨.host, 7⟩).admission = .defer 10 ∧
    (answer oneToken (answer oneToken (final oneToken (new 1) [⟨.host, 5⟩]) ⟨.host, 7⟩).after
      ⟨.host, 15⟩).admission = .admitted := by
  decide

end Ziggurat.BroadcastBudget
