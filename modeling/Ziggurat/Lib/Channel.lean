import Mathlib.Data.List.Infix
import Mathlib.Order.Basic

/-!
# A bounded channel

`Channel α depth` is a queue that holds at most `depth` items, oldest first.  A sender appends to
it while there is room, and a receiver takes the oldest item.

`drained` is the liveness of such a queue: whoever goes on taking items comes past every item
that was sent.  `Inbox.Admits` is about senders that do not wait for room: some of the items come
through, in order, and all of them if there is room for all.
-/

namespace Ziggurat.Lib

/-- What a channel holds, oldest first. -/
structure Channel (α : Type) (depth : Nat) where
  items : List α
  fits : items.length ≤ depth

namespace Channel

variable {α : Type} {depth : Nat} {channel channel' : Channel α depth} {a : α}

def empty : Channel α depth := ⟨[], Nat.zero_le _⟩

/-- Append an item, unless the channel is full. -/
def trySend (channel : Channel α depth) (a : α) : Option (Channel α depth) :=
  if h : channel.items.length < depth then
    some ⟨channel.items ++ [a], by rw [List.length_append]; exact h⟩
  else
    none

/-- Take the oldest item, unless the channel is empty. -/
def tryReceive (channel : Channel α depth) : Option (α × Channel α depth) :=
  match channel with
  | ⟨[], _⟩ => none
  | ⟨a :: items, fits⟩ => some (a, ⟨items, Nat.le_of_succ_le fits⟩)

theorem items_of_trySend (h : channel.trySend a = some channel') :
    channel'.items = channel.items ++ [a] := by
  unfold trySend at h
  split at h
  · cases h
    rfl
  · cases h

theorem items_of_tryReceive (h : channel.tryReceive = some (a, channel')) :
    channel.items = a :: channel'.items := by
  unfold tryReceive at h
  split at h
  · cases h
  · cases h
    rfl

theorem tryReceive_eq_none : channel.tryReceive = none ↔ channel.items = [] := by
  unfold tryReceive
  split <;> simp

end Channel

/-! ## Senders that do not wait -/

/-- A channel, and what its receiver has taken out of it. -/
structure Inbox (α : Type) (depth : Nat) where
  taken : List α
  channel : Channel α depth

namespace Inbox

variable {α : Type} {depth : Nat} {inbox inbox₁ inbox₂ : Inbox α depth}

def empty : Inbox α depth := ⟨[], .empty⟩

/-- An item that does not fit is dropped. -/
def offer (inbox : Inbox α depth) (a : α) : Inbox α depth :=
  { inbox with channel := (inbox.channel.trySend a).getD inbox.channel }

def take (inbox : Inbox α depth) : Inbox α depth :=
  match inbox.channel.tryReceive with
  | some (a, channel) => ⟨inbox.taken ++ [a], channel⟩
  | none => inbox

/-- What came through, taken or not. -/
def items (inbox : Inbox α depth) : List α := inbox.taken ++ inbox.channel.items

/-- What comes through between two states of what is offered. -/
def Admits (inbox inbox' : Inbox α depth) (offered : List α) : Prop :=
  ∃ kept, inbox'.items = inbox.items ++ kept ∧ kept.Sublist offered ∧
    (inbox.items.length + offered.length ≤ depth → kept = offered)

theorem Admits.of_items (h : inbox₁.items = inbox.items) : Admits inbox inbox₁ [] :=
  ⟨[], by rw [h, List.append_nil], .slnil, fun _ => rfl⟩

theorem Admits.trans {offered offered' : List α} (h : Admits inbox inbox₁ offered)
    (h' : Admits inbox₁ inbox₂ offered') : Admits inbox inbox₂ (offered ++ offered') := by
  obtain ⟨kept, hitems, hkept, hall⟩ := h
  obtain ⟨kept', hitems', hkept', hall'⟩ := h'
  refine ⟨kept ++ kept', by rw [hitems', hitems, List.append_assoc], hkept.append hkept',
    fun hroom => ?_⟩
  rw [List.length_append] at hroom
  have hkept := hall (by omega)
  rw [hkept, hall' (by rw [hitems, hkept, List.length_append]; omega)]

theorem admits_offer (inbox : Inbox α depth) (a : α) : Admits inbox (inbox.offer a) [a] := by
  unfold offer Admits items
  cases hsend : inbox.channel.trySend a with
  | some channel =>
    refine ⟨[a], ?_, .refl _, fun _ => rfl⟩
    rw [Option.getD_some, Channel.items_of_trySend hsend, List.append_assoc]
  | none =>
    refine ⟨[], by rw [Option.getD_none, List.append_nil], List.nil_sublist _, fun hroom => ?_⟩
    unfold Channel.trySend at hsend
    split at hsend
    next => cases hsend
    next hfull =>
      rw [List.length_append, List.length_singleton] at hroom
      omega

theorem items_take (inbox : Inbox α depth) : inbox.take.items = inbox.items := by
  unfold take items
  split
  next a channel hreceive =>
    rw [Channel.items_of_tryReceive hreceive, List.append_assoc]
    rfl
  next => rfl

end Inbox

/-! ## Queues that are drained -/

section

variable {α : Type} {sent taken items : ℕ → List α}

/-- What was sent is never forgotten. -/
theorem sent_mono (hsent : ∀ n, sent n <+: sent (n + 1)) {n m : ℕ} (h : n ≤ m) :
    sent n <+: sent m := by
  induction h with
  | refl => exact List.prefix_rfl
  | step _ ih => exact ih.trans (hsent _)

/-- If the oldest item is taken again and again, then everything that was sent is taken. -/
theorem drained (hfifo : ∀ n, sent n = taken n ++ items n)
    (hsent : ∀ n, sent n <+: sent (n + 1)) (htaken : ∀ n, taken n <+: taken (n + 1))
    (hdrain : ∀ n, ∃ m ≥ n, items m = [] ∨ (taken m).length < (taken (m + 1)).length) (n : ℕ) :
    ∃ m ≥ n, sent n <+: taken m := by
  -- by induction on how many of the items of time `n` are still to be taken
  have hlength : ∀ missing k, n ≤ k → (sent n).length - (taken k).length = missing →
      ∃ m ≥ n, (sent n).length ≤ (taken m).length := by
    intro missing
    induction missing using Nat.strong_induction_on with
    | _ missing ih =>
      intro k hk hmissing
      by_cases hdone : (sent n).length ≤ (taken k).length
      · exact ⟨k, hk, hdone⟩
      obtain ⟨m, hm, hempty | hgrows⟩ := hdrain k
      · refine ⟨m, hk.trans hm, ?_⟩
        have hall := hfifo m
        rw [hempty, List.append_nil] at hall
        exact hall ▸ (sent_mono hsent (hk.trans hm)).length_le
      · have hle := (sent_mono htaken hm).length_le
        exact ih _ (by omega) (m + 1) (by omega) rfl
  obtain ⟨m, hm, hle⟩ := hlength _ n le_rfl rfl
  refine ⟨m, hm, ?_⟩
  have hprefix : taken m <+: sent m := ⟨items m, (hfifo m).symm⟩
  exact List.prefix_of_prefix_length_le (sent_mono hsent hm) hprefix hle

end

end Ziggurat.Lib
