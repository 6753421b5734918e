import Mathlib.Algebra.Group.Nat.Defs
import Mathlib.Order.Lattice

/-!
# Panics of the modelled Rust code

A Rust function that can panic is modelled as a function into `Checked`: it
returns a value or stops with the `Panic` it reached.  The constructors name
the ways the code can panic, and keep the message where the source gives one.

A debug assertion is modelled as a check, and so is every arithmetic operation
that overflows: both stop a debug build, so a result about `Checked` covers the
debug and the release build of the code.

The lemmas say how a computation that does not panic unfolds.  `bind_eq_ok`
takes a run of two steps apart, and the `simp` lemmas evaluate `unwrap`,
`expect` and `ensure` at a value that passes.

The module also has `maxByKey`, the iterator method that picks an element with
the greatest key.
-/

namespace Ziggurat

/-- A panic of the Rust code. -/
inductive Panic where
  /-- `Option::unwrap` on `None`, or `Result::unwrap` on `Err`. -/
  | unwrap
  /-- `expect` with its message. -/
  | expect (message : String)
  /-- `unreachable!` with its message. -/
  | unreachable (message : String)
  /-- `panic!` with its message. -/
  | explicit (message : String)
  /-- A `debug_assert!` that fails. -/
  | debugAssert
  /-- An arithmetic operation that overflows. -/
  | overflow
  /-- An index or a slice out of bounds. -/
  | index
  deriving DecidableEq, Repr

/-- The result of code that can panic. -/
abbrev Checked (α : Type) := Except Panic α

namespace Checked

variable {α β : Type}

/-- `Option::unwrap`. -/
def unwrap : Option α → Checked α
  | some a => .ok a
  | none => .error .unwrap

/-- `Option::expect`. -/
def expect (message : String) : Option α → Checked α
  | some a => .ok a
  | none => .error (.expect message)

/-- Stop with `panic` unless `p` holds. -/
def ensure (p : Prop) [Decidable p] (panic : Panic) : Checked Unit :=
  if p then .ok () else .error panic

@[simp] theorem unwrap_some (a : α) : unwrap (some a) = .ok a := rfl

@[simp] theorem expect_some (message : String) (a : α) :
    expect message (some a) = .ok a := rfl

theorem unwrap_eq_ok {o : Option α} {a : α} : unwrap o = .ok a ↔ o = some a := by
  cases o with
  | none => simp [unwrap]
  | some _ => simp [unwrap]

theorem expect_eq_ok {message : String} {o : Option α} {a : α} :
    expect message o = .ok a ↔ o = some a := by
  cases o with
  | none => simp [expect]
  | some _ => simp [expect]

@[simp] theorem ensure_of {p : Prop} [Decidable p] (panic : Panic) (h : p) :
    ensure p panic = .ok () :=
  if_pos h

theorem of_ensure {p : Prop} [Decidable p] {panic : Panic} (h : ensure p panic = .ok ()) : p := by
  unfold ensure at h
  split at h
  next hp => exact hp
  next => cases h

@[simp] theorem ok_bind (a : α) (f : α → Checked β) :
    ((Except.ok a : Checked α) >>= f) = f a := rfl

@[simp] theorem error_bind (panic : Panic) (f : α → Checked β) :
    ((Except.error panic : Checked α) >>= f) = .error panic := rfl

@[simp] theorem pure_eq_ok (a : α) : (pure a : Checked α) = .ok a := rfl

/-- A sequence that returns a value returned one at each step. -/
theorem bind_eq_ok {x : Checked α} {f : α → Checked β} {b : β} :
    (x >>= f) = .ok b ↔ ∃ a, x = .ok a ∧ f a = .ok b := by
  cases x with
  | error panic => simp
  | ok a => simp

/-- A loop that returns keeps what each of its steps keeps. -/
theorem foldlM_invariant {P : β → Prop} {f : β → α → Checked β} (items : List α) {b b' : β}
    (h : items.foldlM f b = .ok b') (hb : P b)
    (hstep : ∀ b item b', f b item = .ok b' → P b → P b') : P b' := by
  induction items generalizing b with
  | nil =>
    cases h
    exact hb
  | cons item items ih =>
    rw [List.foldlM_cons] at h
    obtain ⟨next, hnext, h⟩ := bind_eq_ok.mp h
    exact ih h (hstep b item next hnext hb)

theorem eq_ok_of_toOption {x : Checked α} {a : α} (h : x.toOption = some a) : x = .ok a := by
  cases x with
  | error panic => cases h
  | ok b => exact congrArg Except.ok (Option.some.inj h)

theorem map_eq_ok {x : Checked α} {f : α → β} {b : β} :
    f <$> x = .ok b ↔ ∃ a, x = .ok a ∧ f a = b := by
  cases x with
  | error panic => simp [Functor.map, Except.map]
  | ok a => simp [Functor.map, Except.map]

end Checked

/-! ## Saturating arithmetic -/

/-- `u8::saturating_add`. -/
def UInt8.saturatingAdd (a b : UInt8) : UInt8 :=
  if a.toNat + b.toNat < 2 ^ 8 then a + b else 255

/-- `u8::saturating_sub`. -/
def UInt8.saturatingSub (a b : UInt8) : UInt8 :=
  if b ≤ a then a - b else 0

theorem UInt8.toNat_saturatingAdd {a b : UInt8} (h : a.toNat + b.toNat < 2 ^ 8) :
    (saturatingAdd a b).toNat = a.toNat + b.toNat := by
  rw [saturatingAdd, if_pos h, UInt8.toNat_add, Nat.mod_eq_of_lt h]

theorem UInt8.toNat_saturatingSub (a b : UInt8) :
    (saturatingSub a b).toNat = a.toNat - b.toNat := by
  unfold saturatingSub
  split
  next h => exact UInt8.toNat_sub_of_le a b h
  next h => exact (Nat.sub_eq_zero_of_le (Nat.le_of_not_le h)).symm

/-- `u32::saturating_add`. -/
def UInt32.saturatingAdd (a b : UInt32) : UInt32 :=
  if a.toNat + b.toNat < 2 ^ 32 then a + b else 4294967295

/-! ## `Iterator::max_by_key` -/

section MaxByKey

variable {α κ : Type} [LinearOrder κ] {key : α → κ}

/-- `Iterator::max_by_key`: an element with the greatest key, the last one if
several share it. -/
def maxByKey (key : α → κ) : List α → Option α
  | [] => none
  | a :: l => some (l.foldl (fun best x => if key best ≤ key x then x else best) a)

private theorem foldl_best (l : List α) (a : α) :
    let best := l.foldl (fun best x => if key best ≤ key x then x else best) a
    best ∈ a :: l ∧ ∀ x ∈ a :: l, key x ≤ key best := by
  induction l generalizing a with
  | nil => simp
  | cons y l ih =>
    simp only [List.foldl_cons]
    obtain ⟨hmem, hmax⟩ := ih (if key a ≤ key y then y else a)
    refine ⟨?_, ?_⟩
    · rcases List.mem_cons.mp hmem with h | h
      · rw [h]
        split_ifs <;> simp
      · simp [h]
    · have hbest := hmax _ List.mem_cons_self
      intro x hx
      rcases List.mem_cons.mp hx with rfl | hx
      · refine le_trans ?_ hbest
        split_ifs with hle
        · exact hle
        · exact le_refl _
      · rcases List.mem_cons.mp hx with rfl | hx
        · refine le_trans ?_ hbest
          split_ifs with hle
          · exact le_refl _
          · exact (not_le.mp hle).le
        · exact hmax x (List.mem_cons_of_mem _ hx)

theorem maxByKey_eq_none {l : List α} : maxByKey key l = none ↔ l = [] := by
  cases l <;> simp [maxByKey]

/-- The element picked is one of the list. -/
theorem maxByKey_mem {l : List α} {a : α} (h : maxByKey key l = some a) : a ∈ l := by
  cases l with
  | nil => simp [maxByKey] at h
  | cons x l =>
    cases h
    exact (foldl_best l x).1

/-- No element has a greater key than the one picked. -/
theorem maxByKey_max {l : List α} {a : α} (h : maxByKey key l = some a) :
    ∀ x ∈ l, key x ≤ key a := by
  cases l with
  | nil => simp [maxByKey] at h
  | cons x l =>
    cases h
    exact (foldl_best l x).2

end MaxByKey

end Ziggurat
