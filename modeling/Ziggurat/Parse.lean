import Ziggurat.Rust
import Ziggurat.Lib.BitCodec

/-!
# Parsers that can fail and can panic

A parser of the Rust code returns a value or an error, and it panics where it
indexes a buffer out of bounds.  `Parse` has the three outcomes apart: an error is a
value that the caller handles, a panic is not.

`Returns x Q` says that `x` does not panic and that a value it returns satisfies `Q`.
It has a rule for each way a parser is put together, so a parser is verified along
its own text: `bind` carries what one step established to the next one, `check` turns
a length check into a fact about the length, and `index` and `sliceFrom` are where
that fact is owed.
-/

namespace Ziggurat

open Lib.BitCodec

/-- A buffer. -/
abbrev Bytes := List UInt8

/-- Code that returns a value or an error, or panics. -/
abbrev Parse (ε α : Type) := ExceptT ε Checked α

namespace Parse

variable {ε α β : Type}

/-- A check that fails with an error. -/
def check (p : Prop) [Decidable p] (err : ε) : Parse ε Unit :=
  if p then pure () else throw err

/-- A result of a callee, whose error is converted. -/
def ofExcept {ε' : Type} (convert : ε' → ε) : Except ε' α → Parse ε α
  | .ok a => pure a
  | .error err => throw (convert err)

/-- `x?` for an `x` with another error type. -/
def mapError {ε' : Type} (convert : ε' → ε) (x : Parse ε' α) : Parse ε α :=
  ExceptT.mk (x.run.map (Except.mapError convert))

/-- `Result::ok`. -/
def toOption (x : Parse ε α) : Checked (Option α) := x.run.map Except.toOption

/-- The computation does not panic, and a value it returns satisfies `Q`. -/
def Returns (x : Parse ε α) (Q : α → Prop) : Prop :=
  ∃ r, x.run = .ok r ∧ ∀ a, r = .ok a → Q a

namespace Returns

variable {x : Parse ε α} {Q R : α → Prop}

theorem pure {a : α} (h : Q a) : Returns (pure a : Parse ε α) Q :=
  ⟨.ok a, rfl, fun _ heq => Except.ok.inj heq ▸ h⟩

theorem throw (err : ε) : Returns (throw err : Parse ε α) Q :=
  ⟨.error err, rfl, fun _ heq => nomatch heq⟩

theorem bind {f : α → Parse ε β} {S : β → Prop} (hx : Returns x Q)
    (hf : ∀ a, Q a → Returns (f a) S) : Returns (x >>= f) S := by
  obtain ⟨r, hr, hQ⟩ := hx
  cases r with
  | error err => exact ⟨.error err, by rw [ExceptT.run_bind, hr]; rfl, fun _ heq => nomatch heq⟩
  | ok a =>
    obtain ⟨s, hs, hS⟩ := hf a (hQ a rfl)
    exact ⟨s, by rw [ExceptT.run_bind, hr]; exact hs, hS⟩

theorem check {p : Prop} [Decidable p] (err : ε) : Returns (Parse.check p err) (fun _ => p) := by
  unfold Parse.check
  split
  next h => exact .pure h
  next => exact .throw err

theorem ite {p : Prop} [Decidable p] {y : Parse ε α} (hx : p → Returns x Q)
    (hy : ¬ p → Returns y Q) : Returns (if p then x else y) Q := by
  split
  next h => exact hx h
  next h => exact hy h

theorem ofExcept {ε' : Type} {convert : ε' → ε} {r : Except ε' α} (h : ∀ a, r = .ok a → Q a) :
    Returns (Parse.ofExcept convert r) Q := by
  cases r with
  | ok a => exact .pure (h a rfl)
  | error err => exact .throw _

theorem mapError {ε' : Type} {convert : ε' → ε} {y : Parse ε' α} (h : Returns y Q) :
    Returns (Parse.mapError convert y) Q := by
  obtain ⟨r, hr, hQ⟩ := h
  refine ⟨r.mapError convert, by rw [Parse.mapError, ExceptT.run_mk, hr]; rfl, fun a ha => ?_⟩
  cases r with
  | ok b =>
    cases ha
    exact hQ a rfl
  | error err => cases ha

theorem toOption (h : Returns x Q) :
    ∃ o, x.toOption = .ok o ∧ ∀ a, o = some a → Q a := by
  obtain ⟨r, hr, hQ⟩ := h
  refine ⟨r.toOption, by rw [Parse.toOption, hr]; rfl, fun a ha => ?_⟩
  cases r with
  | ok b =>
    cases ha
    exact hQ a rfl
  | error err => cases ha

/-- Code that cannot fail, only panic. -/
theorem lift {y : Checked α} {a : α} (hy : y = .ok a) (h : Q a) :
    Returns (liftM y : Parse ε α) Q :=
  ⟨.ok a, by subst hy; rfl, fun _ heq => Except.ok.inj heq ▸ h⟩

end Returns

/-! ### Parsers that succeed -/

theorem check_of {p : Prop} [Decidable p] (h : p) (err : ε) : check p err = pure () :=
  if_pos h

@[simp] theorem liftM_ok (a : α) : (liftM (Except.ok a : Checked α) : Parse ε α) = pure a := rfl

@[simp] theorem ofExcept_ok {ε' : Type} (convert : ε' → ε) (a : α) :
    ofExcept convert (.ok a) = pure a := rfl

@[simp] theorem mapError_pure {ε' : Type} (convert : ε' → ε) (a : α) :
    mapError convert (pure a) = pure a := rfl

@[simp] theorem toOption_pure (a : α) : (pure a : Parse ε α).toOption = .ok (some a) := rfl

theorem pure_eq_pure {a b : α} : (pure a : Parse ε α) = pure b ↔ a = b := by
  constructor
  · intro h
    cases h
    rfl
  · rintro rfl
    rfl

/-- A sequence that returns a value returned one at each step. -/
theorem bind_eq_pure {x : Parse ε α} {f : α → Parse ε β} {b : β} :
    (x >>= f) = pure b ↔ ∃ a, x = pure a ∧ f a = pure b := by
  constructor
  · intro h
    match x with
    | .error panic => cases h
    | .ok (.error err) => cases h
    | .ok (.ok a) => exact ⟨a, rfl, h⟩
  · rintro ⟨a, rfl, h⟩
    rw [pure_bind, h]

theorem check_eq_pure {p : Prop} [Decidable p] {err : ε} : check p err = pure () ↔ p := by
  constructor
  · intro h
    unfold check at h
    split at h
    next hp => exact hp
    next => cases h
  · exact fun hp => check_of hp err

theorem liftM_eq_pure {y : Checked α} {a : α} : (liftM y : Parse ε α) = pure a ↔ y = .ok a := by
  cases y with
  | error panic => exact ⟨fun h => (by cases h), fun h => (by cases h)⟩
  | ok b =>
    rw [liftM_ok, pure_eq_pure]
    exact ⟨fun h => h ▸ rfl, fun h => Except.ok.inj h⟩

theorem ofExcept_eq_pure {ε' : Type} {convert : ε' → ε} {r : Except ε' α} {a : α} :
    ofExcept convert r = pure a ↔ r = .ok a := by
  cases r with
  | error err => exact ⟨fun h => (by cases h), fun h => (by cases h)⟩
  | ok b =>
    rw [ofExcept_ok, pure_eq_pure]
    exact ⟨fun h => h ▸ rfl, fun h => Except.ok.inj h⟩

theorem mapError_eq_pure {ε' : Type} {convert : ε' → ε} {x : Parse ε' α} {a : α} :
    mapError convert x = pure a ↔ x = pure a := by
  constructor
  · intro h
    match x with
    | .error panic => cases h
    | .ok (.error err) => cases h
    | .ok (.ok b) =>
      cases h
      rfl
  · rintro rfl
    rfl

end Parse

/-! ## Buffers -/

namespace Bytes

/-- `bytes[i]`. -/
def index (bytes : Bytes) (i : Nat) : Checked UInt8 :=
  match bytes[i]? with
  | some byte => .ok byte
  | none => .error .index

/-- `&bytes[n..]`. -/
def sliceFrom (bytes : Bytes) (n : Nat) : Checked Bytes :=
  if n ≤ bytes.length then .ok (bytes.drop n) else .error .index

/-- `&bytes[..n]`. -/
def sliceTo (bytes : Bytes) (n : Nat) : Checked Bytes :=
  if n ≤ bytes.length then .ok (bytes.take n) else .error .index

theorem index_eq {bytes : Bytes} {i : Nat} (h : i < bytes.length) :
    bytes.index i = .ok bytes[i] := by
  simp [index, h]

theorem sliceFrom_eq {bytes : Bytes} {n : Nat} (h : n ≤ bytes.length) :
    bytes.sliceFrom n = .ok (bytes.drop n) :=
  if_pos h

theorem sliceTo_eq {bytes : Bytes} {n : Nat} (h : n ≤ bytes.length) :
    bytes.sliceTo n = .ok (bytes.take n) :=
  if_pos h

end Bytes

namespace Parse.Returns

variable {ε : Type} {bytes : Bytes}

theorem index {i : Nat} (h : i < bytes.length) :
    Returns (liftM (bytes.index i) : Parse ε UInt8) (fun _ => True) :=
  .lift (Bytes.index_eq h) trivial

theorem sliceFrom {n : Nat} (h : n ≤ bytes.length) :
    Returns (liftM (bytes.sliceFrom n) : Parse ε Bytes)
      (fun rest => bytes.length = n + rest.length) := by
  refine .lift (Bytes.sliceFrom_eq h) ?_
  rw [List.length_drop]
  omega

/-- A structure of a fixed width, with the number of bytes that it took. -/
theorem readFixed {α : Type} {c : Codec α} {k : Nat} (hc : c.Fixed k) {convert : ReadError → ε} :
    Returns (Parse.ofExcept convert (c.readBytes bytes))
      (fun r => r.2 = bytesFor k ∧ r.2 ≤ bytes.length) :=
  .ofExcept (fun _ hread => hc.readBytes hread)

theorem sliceTo {n : Nat} (h : n ≤ bytes.length) :
    Returns (liftM (bytes.sliceTo n) : Parse ε Bytes) (fun head => head.length = n) :=
  .lift (Bytes.sliceTo_eq h) (List.length_take_of_le h)

end Parse.Returns

end Ziggurat
