import Mathlib.Order.Defs.Unbundled

/-!
# Stateful code that can stop

Code of type `StateT σ (Except ε)` reads and writes a state and either returns or stops
with an error.

`Ensures s x Q` says what holds when `x` is started in `s` and returns: `Q` of the value and
of the state it leaves.  `Returns s x Q` says in addition that `x` returns.  `Steps R x` says
that `x` only moves along a relation `R`, from any state; for a preorder `R` it has a rule for
each way code is put together, so a fact such as "this part of the state stays" is carried along
the text of the code.  `Keeps view` is the preorder of that fact.
-/

namespace Ziggurat.Lib.Stateful

variable {σ ε α β : Type}

section

variable {x : StateT σ (Except ε) α} {s s' : σ}

theorem bind_eq_ok {f : α → StateT σ (Except ε) β} {b : β} :
    (x >>= f) s = .ok (b, s') ↔ ∃ a t, x s = .ok (a, t) ∧ f a t = .ok (b, s') := by
  change Except.bind (x s) (fun r => f r.1 r.2) = _ ↔ _
  cases x s with
  | error e => exact ⟨nofun, fun ⟨_, _, h, _⟩ => nomatch h⟩
  | ok r => exact ⟨fun h => ⟨r.1, r.2, rfl, h⟩, fun ⟨_, _, h, h'⟩ => by cases h; exact h'⟩

/-! ### Running the code -/

theorem bind_of_ok {f : α → StateT σ (Except ε) β} {a : α} (h : x s = .ok (a, s')) :
    (x >>= f) s = f a s' := by
  change Except.bind (x s) (fun r => f r.1 r.2) = _
  rw [h]
  rfl

theorem bind_of_error {f : α → StateT σ (Except ε) β} {e : ε} (h : x s = .error e) :
    (x >>= f) s = .error e := by
  change Except.bind (x s) (fun r => f r.1 r.2) = _
  rw [h]
  rfl

theorem lift_of_ok {y : Except ε α} {a : α} (h : y = .ok a) (s : σ) :
    (liftM y : StateT σ (Except ε) α) s = .ok (a, s) := by
  rw [h]
  rfl

theorem lift_eq_ok {y : Except ε α} {a : α} :
    (liftM y : StateT σ (Except ε) α) s = .ok (a, s') ↔ y = .ok a ∧ s = s' := by
  cases y with
  | error e => exact ⟨nofun, fun h => nomatch h.1⟩
  | ok b =>
    constructor
    · intro h
      cases h
      exact ⟨rfl, rfl⟩
    · rintro ⟨h, rfl⟩
      cases h
      rfl

/-! ### What holds when the code returns -/

/-- What holds of the value and the final state, if the code returns. -/
def Ensures (s : σ) (x : StateT σ (Except ε) α) (Q : α → σ → Prop) : Prop :=
  ∀ a s', x s = .ok (a, s') → Q a s'

namespace Ensures

variable {Q Q' : α → σ → Prop}

theorem mono (h : Ensures s x Q) (hQ : ∀ a s', Q a s' → Q' a s') : Ensures s x Q' :=
  fun a s' hx => hQ a s' (h a s' hx)

theorem pure {a : α} (h : Q a s) : Ensures s (pure a : StateT σ (Except ε) α) Q := by
  intro a' s' hx
  cases hx
  exact h

theorem bind {f : α → StateT σ (Except ε) β} {S : β → σ → Prop} (hx : Ensures s x Q)
    (hf : ∀ a t, Q a t → Ensures t (f a) S) : Ensures s (x >>= f) S := by
  intro b s' h
  obtain ⟨a, t, ha, hb⟩ := bind_eq_ok.mp h
  exact hf a t (hx a t ha) b s' hb

theorem ite {p : Prop} [Decidable p] {y : StateT σ (Except ε) α} (hx : p → Ensures s x Q)
    (hy : ¬ p → Ensures s y Q) : Ensures s (if p then x else y) Q := by
  split
  next h => exact hx h
  next h => exact hy h

theorem get {Q : σ → σ → Prop} (h : Q s s) : Ensures s (get : StateT σ (Except ε) σ) Q := by
  intro a s' hx
  cases hx
  exact h

theorem set {t : σ} {Q : PUnit → σ → Prop} (h : Q ⟨⟩ t) :
    Ensures s (set t : StateT σ (Except ε) PUnit) Q := by
  intro a s' hx
  cases hx
  exact h

theorem modify {f : σ → σ} {Q : PUnit → σ → Prop} (h : Q ⟨⟩ (f s)) :
    Ensures s (modify f : StateT σ (Except ε) PUnit) Q := by
  intro a s' hx
  cases hx
  exact h

/-- Code that does not use the state. -/
theorem lift {y : Except ε α} (h : ∀ a, y = .ok a → Q a s) :
    Ensures s (liftM y : StateT σ (Except ε) α) Q := by
  intro a s' hx
  cases y with
  | error e => cases hx
  | ok b =>
    cases hx
    exact h a rfl

/-! The same for the first statement of a sequence. -/

variable {S : β → σ → Prop}

theorem bind_get {f : σ → StateT σ (Except ε) β} (h : Ensures s (f s) S) :
    Ensures s (MonadState.get >>= f) S :=
  fun b s' hf => h b s' hf

theorem bind_set {t : σ} {f : PUnit → StateT σ (Except ε) β} (h : Ensures t (f ⟨⟩) S) :
    Ensures s (MonadStateOf.set t >>= f) S :=
  fun b s' hf => h b s' hf

theorem bind_lift {y : Except ε α} {f : α → StateT σ (Except ε) β}
    (h : ∀ a, y = .ok a → Ensures s (f a) S) :
    Ensures s ((liftM y : StateT σ (Except ε) α) >>= f) S :=
  .bind (Q := fun a t => t = s ∧ y = .ok a) (.lift fun _ ha => ⟨rfl, ha⟩)
    fun a _ ⟨heq, ha⟩ => heq ▸ h a ha

end Ensures

/-! ### Code that returns -/

/-- The code returns, and what holds of the value and the final state. -/
def Returns (s : σ) (x : StateT σ (Except ε) α) (Q : α → σ → Prop) : Prop :=
  ∃ a s', x s = .ok (a, s') ∧ Q a s'

namespace Returns

variable {Q Q' : α → σ → Prop}

theorem mono (h : Returns s x Q) (hQ : ∀ a s', Q a s' → Q' a s') : Returns s x Q' := by
  obtain ⟨a, s', hx, h⟩ := h
  exact ⟨a, s', hx, hQ a s' h⟩

theorem pure {a : α} (h : Q a s) : Returns s (pure a : StateT σ (Except ε) α) Q :=
  ⟨a, s, rfl, h⟩

theorem bind {f : α → StateT σ (Except ε) β} {S : β → σ → Prop} (hx : Returns s x Q)
    (hf : ∀ a t, Q a t → Returns t (f a) S) : Returns s (x >>= f) S := by
  obtain ⟨a, t, hx, hQ⟩ := hx
  obtain ⟨b, s', hfa, hS⟩ := hf a t hQ
  exact ⟨b, s', (bind_of_ok hx).trans hfa, hS⟩

/-- Code that does not use the state. -/
theorem bind_lift {y : Except ε α} {a : α} {f : α → StateT σ (Except ε) β} {S : β → σ → Prop}
    (hy : y = .ok a) (h : Returns s (f a) S) :
    Returns s ((liftM y : StateT σ (Except ε) α) >>= f) S :=
  .bind (Q := fun b t => b = a ∧ t = s) ⟨a, s, lift_of_ok hy s, rfl, rfl⟩
    fun _ _ ⟨hb, ht⟩ => hb ▸ ht ▸ h

theorem bind_get {f : σ → StateT σ (Except ε) β} {S : β → σ → Prop} (h : Returns s (f s) S) :
    Returns s (MonadState.get >>= f) S :=
  h

theorem bind_set {t : σ} {f : PUnit → StateT σ (Except ε) β} {S : β → σ → Prop}
    (h : Returns t (f ⟨⟩) S) : Returns s (MonadStateOf.set t >>= f) S :=
  h

theorem bind_modify {g : σ → σ} {f : PUnit → StateT σ (Except ε) β} {S : β → σ → Prop}
    (h : Returns (g s) (f ⟨⟩) S) :
    Returns s ((modify g : StateT σ (Except ε) PUnit) >>= f) S :=
  h

/-- What the code does first returned as well. -/
theorem of_bind {f : α → StateT σ (Except ε) β} {S : β → σ → Prop}
    (h : Returns s (x >>= f) S) : Returns s x fun a t => Returns t (f a) S := by
  obtain ⟨b, s', hb, hS⟩ := h
  obtain ⟨a, t, hx, hfa⟩ := bind_eq_ok.mp hb
  exact ⟨a, t, hx, b, s', hfa, hS⟩

theorem of_get {f : σ → StateT σ (Except ε) β} {S : β → σ → Prop}
    (h : Returns s (MonadState.get >>= f) S) : Returns s (f s) S :=
  h

theorem of_set {t : σ} {f : PUnit → StateT σ (Except ε) β} {S : β → σ → Prop}
    (h : Returns s (MonadStateOf.set t >>= f) S) : Returns t (f ⟨⟩) S :=
  h

theorem of_bind_lift {y : Except ε α} {f : α → StateT σ (Except ε) β} {S : β → σ → Prop}
    (h : Returns s ((liftM y : StateT σ (Except ε) α) >>= f) S) : ∃ a, y = .ok a := by
  obtain ⟨a, t, hy, -⟩ := h.of_bind
  exact ⟨a, (lift_eq_ok.mp hy).1⟩

end Returns

end

/-! ## Code that moves along a relation -/

/-- From every state, the code ends in a state that `R` relates to it. -/
def Steps (R : σ → σ → Prop) (x : StateT σ (Except ε) α) : Prop :=
  ∀ s, Ensures s x (fun _ => R s)

/-- Code that moves along a preorder from one state, and then from every state. -/
theorem Ensures.bind_steps {R : σ → σ → Prop} [IsPreorder σ R] {s : σ}
    {x : StateT σ (Except ε) α} {f : α → StateT σ (Except ε) β}
    (hx : Ensures s x (fun _ => R s)) (hf : ∀ a, Steps R (f a)) :
    Ensures s (x >>= f) (fun _ => R s) :=
  .bind hx fun a t hst => (hf a t).mono fun _ _ htu => trans_of R hst htu

namespace Steps

variable {R : σ → σ → Prop} {x : StateT σ (Except ε) α}

theorem mono {R' : σ → σ → Prop} (h : Steps R x) (hR : ∀ s s', R s s' → R' s s') : Steps R' x :=
  fun s => (h s).mono fun _ s' => hR s s'

theorem modify {f : σ → σ} (h : ∀ s, R s (f s)) :
    Steps R (modify f : StateT σ (Except ε) PUnit) :=
  fun s => .modify (h s)

theorem ite {p : Prop} [Decidable p] {y : StateT σ (Except ε) α} (hx : p → Steps R x)
    (hy : ¬ p → Steps R y) : Steps R (if p then x else y) :=
  fun s => .ite (fun h => hx h s) (fun h => hy h s)

/-- Code whose second part uses what the first one read. -/
theorem bind_get {f : σ → StateT σ (Except ε) β} (hf : ∀ s, Ensures s (f s) (fun _ => R s)) :
    Steps R (MonadState.get >>= f) :=
  fun s => .bind_get (hf s)

variable [IsPreorder σ R]

theorem pure (a : α) : Steps R (pure a : StateT σ (Except ε) α) :=
  fun s => .pure (refl_of R s)

theorem get : Steps R (get : StateT σ (Except ε) σ) :=
  fun s => .get (refl_of R s)

theorem lift (y : Except ε α) : Steps R (liftM y : StateT σ (Except ε) α) :=
  fun s => .lift fun _ _ => refl_of R s

theorem bind {f : α → StateT σ (Except ε) β} (hx : Steps R x) (hf : ∀ a, Steps R (f a)) :
    Steps R (x >>= f) :=
  fun s => .bind_steps (hx s) hf

theorem forM {l : List β} {f : β → StateT σ (Except ε) PUnit} (hf : ∀ b, Steps R (f b)) :
    Steps R (l.forM f) := by
  induction l with
  | nil => exact .pure _
  | cons b l ih => exact .bind (hf b) fun _ => ih

end Steps

/-- Code that writes the state and goes on. -/
theorem Ensures.set_bind {R : σ → σ → Prop} [IsPreorder σ R] {s t : σ}
    {f : PUnit → StateT σ (Except ε) β} (ht : R s t) (hf : Steps R (f ⟨⟩)) :
    Ensures s (MonadStateOf.set t >>= f) (fun _ => R s) :=
  .bind_steps (.set ht) fun _ => hf

/-- A part of the state stays. -/
def Keeps {τ : Type} (view : σ → τ) (s s' : σ) : Prop := view s' = view s

instance {τ : Type} (view : σ → τ) : IsPreorder σ (Keeps view) where
  refl _ := rfl
  trans _ _ _ h h' := Eq.trans h' h

end Ziggurat.Lib.Stateful
