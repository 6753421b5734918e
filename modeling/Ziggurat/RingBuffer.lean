import Mathlib.Data.List.DropRight
import Mathlib.Data.List.Rotate
import Ziggurat.Nwk.Neighbors

/-!
# The ring buffer of `ring_buffer.rs`

`RingBuffer` holds the last `N` values that were pushed, in an array that is overwritten from the
start once it is full.  The length and the index of the next slot are bytes, and the constructor
accepts every capacity from 1 to 255.

`Holds` relates the array to the values that were pushed since the last `clear`: the value with
the number `i` is in the slot `i % N`, if `N` or fewer came after it.  Every operation keeps this,
except for one: the length is incremented before it is cut to the capacity, so in a full buffer of
255 slots the increment overflows.

The neighbor table keeps its link quality samples in such a buffer with three slots, and
`Neighbors` models it by the list of the last three samples.  `lqa_lqaSamples` says that this makes
no difference to the median.
-/

namespace Ziggurat

structure RingBuffer (T : Type) (N : Nat) where
  slots : Vector T N
  len : UInt8
  next : UInt8

namespace RingBuffer

variable {T : Type} {N : Nat}

def new [Inhabited T] : RingBuffer T N := ⟨.replicate N default, 0, 0⟩

def push (ring : RingBuffer T N) (value : T) : Checked (RingBuffer T N) := do
  Checked.ensure (ring.next.toNat < N) .index
  let slots := ring.slots.setIfInBounds ring.next.toNat value
  Checked.ensure (ring.next.toNat + 1 < 2 ^ 8) .overflow
  let next := (ring.next + 1) % UInt8.ofNat N
  Checked.ensure (ring.len.toNat + 1 < 2 ^ 8) .overflow
  let len := min (ring.len + 1) (UInt8.ofNat N)
  return { slots, len, next }

def clear (ring : RingBuffer T N) : RingBuffer T N := { ring with len := 0, next := 0 }

def isFull (ring : RingBuffer T N) : Bool := ring.len.toNat = N

/-- The slots that are in use, in the order of the array. -/
def values (ring : RingBuffer T N) : Checked (List T) := do
  Checked.ensure (ring.len.toNat ≤ N) .index
  return ring.slots.toList.take ring.len.toNat

/-! ## Operations -/

inductive Op (T : Type) where
  | push (value : T)
  | clear

def Op.apply (ring : RingBuffer T N) : Op T → Checked (RingBuffer T N)
  | .push value => ring.push value
  | .clear => .ok ring.clear

def run (ops : List (Op T)) (ring : RingBuffer T N) : Checked (RingBuffer T N) :=
  ops.foldlM Op.apply ring

def Op.record (history : List T) : Op T → List T
  | .push value => history ++ [value]
  | .clear => []

/-- The values that were pushed since the last `clear`. -/
def history (ops : List (Op T)) : List T := ops.foldl Op.record []

theorem history_concat (ops : List (Op T)) (op : Op T) :
    history (ops ++ [op]) = op.record (history ops) :=
  List.foldl_append

theorem history_append_push (ops : List (Op T)) (values : List T) :
    history (ops ++ values.map .push) = history ops ++ values := by
  unfold history
  rw [List.foldl_append]
  generalize ops.foldl Op.record [] = before
  induction values generalizing before with
  | nil => exact (List.append_nil before).symm
  | cons value values ih =>
    rw [List.map_cons, List.foldl_cons, ih, Op.record, List.append_assoc]
    rfl

/-- The operations end with the pushes of their history. -/
theorem history_suffix (ops : List (Op T)) : (history ops).map .push <:+ ops := by
  induction ops using List.reverseRecOn with
  | nil => exact List.suffix_refl _
  | append_singleton ops op ih =>
    cases op with
    | clear =>
      rw [history_concat]
      exact List.nil_suffix
    | push value =>
      rw [history_concat, Op.record, List.map_append]
      exact List.suffix_append_inj_of_length_eq rfl |>.mpr ⟨ih, rfl⟩

/-! ## What the buffer holds -/

structure Holds (ring : RingBuffer T N) (history : List T) : Prop where
  len : ring.len.toNat = min history.length N
  next : ring.next.toNat = history.length % N
  slots : ∀ i, history.length ≤ i + N → i < history.length → ring.slots[i % N]? = history[i]?

theorem holds_nil {ring : RingBuffer T N} (hlen : ring.len = 0) (hnext : ring.next = 0) :
    ring.Holds [] := by
  refine ⟨?_, ?_, fun i _ hi => absurd hi (Nat.not_lt_zero i)⟩
  · rw [hlen]
    exact (Nat.zero_min N).symm
  · rw [hnext]
    exact (Nat.zero_mod N).symm

section

variable {ring ring' : RingBuffer T N} {history : List T}

/-- A push writes the slot of its number, unless the buffer has 255 slots and is full. -/
theorem Holds.push (h : ring.Holds history) (hpos : 0 < N) (hmax : N ≤ 255) (value : T) :
    (ring.push value = .error .overflow ∧ N = 255 ∧ 255 ≤ history.length) ∨
    ((N = 255 → history.length < 255) ∧
      ∃ ring', ring.push value = .ok ring' ∧ ring'.Holds (history ++ [value])) := by
  have hnext : ring.next.toNat < N := h.next ▸ Nat.mod_lt _ hpos
  have hindex : ring.next.toNat + 1 < 2 ^ 8 := by omega
  have hcapacity : (UInt8.ofNat N).toNat = N := UInt8.toNat_ofNat_of_lt' (show N < 256 by omega)
  have hlen := h.len
  unfold RingBuffer.push
  rw [Checked.ensure_of _ hnext, Checked.ok_bind, Checked.ensure_of _ hindex, Checked.ok_bind]
  by_cases hroom : ring.len.toNat + 1 < 2 ^ 8
  · refine .inr ⟨by omega, _, by rw [Checked.ensure_of _ hroom]; rfl, ?_, ?_, ?_⟩
    · rw [UInt8.toNat_min, UInt8.toNat_add, UInt8.toNat_one, Nat.mod_eq_of_lt hroom, hcapacity,
        List.length_append, List.length_singleton, hlen]
      omega
    · rw [UInt8.toNat_mod, UInt8.toNat_add, UInt8.toNat_one, Nat.mod_eq_of_lt hindex, hcapacity,
        h.next, Nat.mod_add_mod, List.length_append, List.length_singleton]
    · intro i hlast hi
      rw [List.length_append, List.length_singleton] at hlast hi
      dsimp only
      rw [Vector.getElem?_setIfInBounds, h.next]
      by_cases hnew : i = history.length
      · rw [hnew, if_pos rfl, if_pos (Nat.mod_lt _ hpos), List.getElem?_concat_length]
      · -- two numbers with one slot are at least `N` apart
        have hother : history.length % N ≠ i % N := by
          intro hsame
          have hdvd := Nat.dvd_of_mod_eq_zero (Nat.sub_mod_eq_zero_of_mod_eq hsame)
          have hapart := Nat.le_of_dvd (by omega) hdvd
          omega
        rw [if_neg hother, List.getElem?_append_left (by omega)]
        exact h.slots i (by omega) (by omega)
  · have hfull : 255 ≤ min history.length N := by omega
    refine .inl ⟨?_, by omega, by omega⟩
    rw [Checked.ensure, if_neg hroom]
    rfl

/-- What is read is the last values, rotated. -/
theorem Holds.values (h : ring.Holds history) :
    ∃ values, ring.values = .ok values ∧ values ~r history.rtake ring.len.toNat := by
  have hlen := h.len
  refine ⟨_, by rw [RingBuffer.values, Checked.ensure_of _ (by omega)]; rfl, ?_⟩
  rw [List.rtake]
  by_cases hshort : history.length ≤ N
  · -- nothing was overwritten
    rw [hlen, Nat.min_eq_left hshort, Nat.sub_self, List.drop_zero]
    refine ⟨0, ?_⟩
    rw [List.rotate_zero]
    apply List.ext_getElem?
    intro i
    by_cases hi : i < history.length
    · rw [List.getElem?_take_of_lt hi, ← h.slots i (by omega) hi,
        Nat.mod_eq_of_lt (by omega), Vector.getElem?_toList]
    · rw [List.getElem?_eq_none (by rw [List.length_take]; omega),
        List.getElem?_eq_none (by omega)]
  · rw [hlen, Nat.min_eq_right (by omega), List.take_of_length_le (by simp)]
    refine ⟨history.length % N, ?_⟩
    apply List.ext_getElem?
    intro i
    rw [List.getElem?_drop]
    by_cases hi : i < N
    · have hslot := h.slots (history.length - N + i) (by omega) (by omega)
      have hindex : (history.length - N + i) % N = (i + history.length % N) % N := by
        rw [Nat.add_mod_mod, Nat.add_comm, ← Nat.add_mod_right (i + (history.length - N)) N]
        congr 1
        omega
      rw [List.getElem?_rotate (by simpa using hi), ← hslot, hindex, Vector.length_toList,
        Vector.getElem?_toList]
    · rw [List.getElem?_eq_none (by simp; omega), List.getElem?_eq_none (by omega)]

end

/-! ## Runs -/

/-- A buffer that was made by operations holds their history. -/
theorem holds_of_run [Inhabited T] (hpos : 0 < N) (hmax : N ≤ 255) {ops : List (Op T)}
    {ring : RingBuffer T N} (h : run ops new = .ok ring) : ring.Holds (history ops) := by
  induction ops using List.reverseRecOn generalizing ring with
  | nil =>
    cases h
    exact holds_nil rfl rfl
  | append_singleton ops op ih =>
    rw [run, List.foldlM_append] at h
    obtain ⟨before, hbefore, h⟩ := Checked.bind_eq_ok.mp h
    obtain ⟨_, hop, h⟩ := Checked.bind_eq_ok.mp h
    cases h
    cases op with
    | clear =>
      cases hop
      rw [history_concat]
      exact holds_nil rfl rfl
    | push value =>
      obtain ⟨hfails, -⟩ | ⟨-, ring', hpushed, hholds⟩ := (ih hbefore).push hpos hmax value
      · cases hfails.symm.trans hop
      · cases hpushed.symm.trans hop
        rw [history_concat]
        exact hholds

/-- No operation panics if and only if the capacity is below 255, or there are never more than
255 pushes in a row. -/
theorem run_returns_iff [Inhabited T] (hpos : 0 < N) (hmax : N ≤ 255) (ops : List (Op T)) :
    (∃ ring : RingBuffer T N, run ops new = .ok ring) ↔
      N ≠ 255 ∨ ∀ values : List T, values.map .push <:+: ops → values.length ≤ 255 := by
  constructor
  · intro ⟨ring, h⟩
    by_contra hcondition
    push Not at hcondition
    obtain ⟨hfull, values, ⟨before, after, rfl⟩, hlong⟩ := hcondition
    -- the push with the number 255 finds a full buffer
    obtain ⟨value, rest, hdrop⟩ : ∃ value rest, values.drop 255 = value :: rest :=
      List.exists_cons_of_ne_nil (List.drop_eq_nil_iff.not.mpr (Nat.not_le.mpr hlong))
    rw [← List.take_append_drop 255 values, hdrop, List.map_append, List.map_cons,
      ← List.append_assoc, List.append_assoc, List.cons_append, run, List.foldlM_append] at h
    obtain ⟨ring₁, hring₁, h⟩ := Checked.bind_eq_ok.mp h
    have hholds := holds_of_run hpos hmax hring₁
    rw [history_append_push] at hholds
    obtain ⟨hfails, -⟩ | ⟨hroom, -⟩ := hholds.push hpos hmax value
    · rw [List.foldlM_cons, Op.apply, hfails] at h
      cases h
    · have hshort := hroom hfull
      rw [List.length_append, List.length_take, Nat.min_eq_left (by omega)] at hshort
      omega
  · intro hcondition
    induction ops using List.reverseRecOn with
    | nil => exact ⟨new, rfl⟩
    | append_singleton ops op ih =>
      obtain ⟨ring, hring⟩ := ih (hcondition.imp_right fun hruns values hvalues =>
        hruns values (hvalues.trans (List.prefix_append ops [op]).isInfix))
      have hstep (result : RingBuffer T N) (hop : op.apply ring = .ok result) :
          ∃ ring : RingBuffer T N, run (ops ++ [op]) new = .ok ring := by
        refine ⟨result, ?_⟩
        rw [run, List.foldlM_append, show ops.foldlM Op.apply new = .ok ring from hring,
          Checked.ok_bind, List.foldlM_cons, hop]
        rfl
      cases op with
      | clear => exact hstep ring.clear rfl
      | push value =>
        obtain ⟨-, hfull, hlong⟩ | ⟨-, ring', hpushed, -⟩ :=
          (holds_of_run hpos hmax hring).push hpos hmax value
        · -- the pushes of the history and this one are in a row
          have hrow := (hcondition.resolve_left (not_not.mpr hfull)) (history ops ++ [value]) (by
            rw [List.map_append]
            exact ((List.suffix_append_inj_of_length_eq rfl).mpr
              ⟨history_suffix ops, rfl⟩).isInfix)
          rw [List.length_append, List.length_singleton] at hrow
          omega
        · exact hstep ring' hpushed

/-! ## The median of the samples -/

/-- `LINK_QUALITY_SAMPLES`. -/
def linkQualitySamples : Nat := 3

/-- `TableEntry::lqa`, on the buffer that the entry has. -/
def lqa (lqas : RingBuffer UInt8 linkQualitySamples) : Checked (Option UInt8) := do
  if !lqas.isFull then
    return none
  let values ← lqas.values
  Checked.ensure (values.length = linkQualitySamples)
    (.explicit "copy_from_slice: source slice length does not match destination slice length")
  let sorted := values.mergeSort (· ≤ ·)
  if linkQualitySamples % 2 = 1 then
    let middle ← Bytes.index sorted (linkQualitySamples / 2)
    return some middle
  else
    let mid1 ← Bytes.index sorted (linkQualitySamples / 2 - 1)
    let mid2 ← Bytes.index sorted (linkQualitySamples / 2)
    return some (UInt8.ofNat ((mid1.toNat + mid2.toNat) / 2))

/-- One of the samples, with fewer than half of them below it and fewer than half above it. -/
def IsMedian (median : UInt8) (samples : List UInt8) : Prop :=
  median ∈ samples ∧ 2 * samples.countP (· < median) < samples.length ∧
    2 * samples.countP (median < ·) < samples.length

theorem pairwise_sorted (samples : List UInt8) :
    (samples.mergeSort (· ≤ ·)).Pairwise (· ≤ ·) := by
  have hsorted : (samples.mergeSort (· ≤ ·)).Pairwise fun a b => decide (a ≤ b) = true := by
    apply List.pairwise_mergeSort
    · intro a b c hab hbc
      exact decide_eq_true (UInt8.le_trans (of_decide_eq_true hab) (of_decide_eq_true hbc))
    · intro a b
      simpa using UInt8.le_total a b
  exact hsorted.imp of_decide_eq_true

/-- The order of the samples does not matter to what is sorted. -/
theorem mergeSort_of_perm {samples samples' : List UInt8} (h : samples.Perm samples') :
    samples.mergeSort (· ≤ ·) = samples'.mergeSort (· ≤ ·) := by
  refine List.Perm.eq_of_pairwise (fun a b _ _ hab hba => UInt8.le_antisymm hab hba)
    (pairwise_sorted samples) (pairwise_sorted samples') ?_
  exact ((List.mergeSort_perm ..).trans h).trans (List.mergeSort_perm ..).symm

/-- What is in the middle of the last three samples. -/
def middle (history : List UInt8) : Option UInt8 :=
  if 3 ≤ history.length then ((history.rtake 3).mergeSort (· ≤ ·))[1]? else none

theorem length_rtake (history : List UInt8) : (history.rtake 3).length = min history.length 3 := by
  rw [List.rtake, List.length_drop]
  omega

/-- The median is computed from the last samples, whatever slots they are in. -/
theorem Holds.lqa {lqas : RingBuffer UInt8 linkQualitySamples} {history : List UInt8}
    (h : lqas.Holds history) : lqas.lqa = .ok (middle history) := by
  have hlen : lqas.len.toNat = min history.length 3 := h.len
  by_cases hfull : lqas.isFull = true
  · have hthree : lqas.len.toNat = 3 := of_decide_eq_true hfull
    obtain ⟨values, hvalues, hrotated⟩ := h.values
    rw [hthree] at hrotated
    have hcount : values.length = linkQualitySamples := by
      rw [hrotated.perm.length_eq, length_rtake, ← hlen]
      exact hthree
    have hresult : middle history = (values.mergeSort (· ≤ ·))[1]? := by
      rw [middle, if_pos (by omega), mergeSort_of_perm hrotated.perm]
    rw [RingBuffer.lqa, hfull, hvalues, Checked.ok_bind, Checked.ensure_of _ hcount, hresult]
    have hmiddle : 1 < (values.mergeSort (· ≤ ·)).length := by
      rw [List.length_mergeSort, hcount]
      decide
    change (do
      let middle ← Bytes.index (values.mergeSort (· ≤ ·)) 1
      return some middle) = _
    rw [Bytes.index_eq hmiddle, List.getElem?_eq_getElem hmiddle]
    rfl
  · have hshort : lqas.len.toNat ≠ 3 := fun hthree => hfull (decide_eq_true hthree)
    have hresult : middle history = none := if_neg (by omega)
    rw [RingBuffer.lqa, Bool.eq_false_iff.mpr hfull, hresult]
    rfl

theorem isMedian_middle {history : List UInt8} (h : 3 ≤ history.length) :
    ∃ median, middle history = some median ∧ IsMedian median (history.rtake 3) := by
  have hperm := List.mergeSort_perm (history.rtake 3) (· ≤ ·)
  have hsorted := pairwise_sorted (history.rtake 3)
  have hlength : (history.rtake 3).length = 3 := (length_rtake history).trans (by omega)
  rw [middle, if_pos h]
  generalize (history.rtake 3).mergeSort (· ≤ ·) = sorted at hperm hsorted
  match sorted, hperm.length_eq.trans hlength with
  | [low, median, high], _ =>
    simp only [List.pairwise_cons, List.mem_cons, List.not_mem_nil, or_false, forall_eq_or_imp,
      forall_eq] at hsorted
    obtain ⟨⟨hlow, -⟩, hhigh, -⟩ := hsorted
    refine ⟨median, rfl, hperm.mem_iff.mp (by simp), ?_, ?_⟩
    · rw [← hperm.countP_eq, hlength]
      have hnot := UInt8.not_lt.mpr hhigh
      simp only [List.countP_cons, List.countP_nil, hnot, UInt8.lt_irrefl, decide_false,
        Bool.false_eq_true, if_false]
      split <;> decide
    · rw [← hperm.countP_eq, hlength]
      have hnot := UInt8.not_lt.mpr hlow
      simp only [List.countP_cons, List.countP_nil, hnot, UInt8.lt_irrefl, decide_false,
        Bool.false_eq_true, if_false]
      split <;> decide

/-- The list that `Neighbors` models the samples with holds the last three. -/
def lqaSamples (ops : List (Op UInt8)) : LqaSamples :=
  ops.foldl (fun lqas op => match op with
    | .push lqi => lqas.push lqi
    | .clear => []) []

theorem lqaSamples_eq (ops : List (Op UInt8)) : lqaSamples ops = (history ops).rtake 3 := by
  induction ops using List.reverseRecOn with
  | nil => rfl
  | append_singleton ops op ih =>
    rw [history_concat, lqaSamples, List.foldl_append,
      show List.foldl _ [] ops = (history ops).rtake 3 from ih]
    cases op with
    | clear => rfl
    | push lqi =>
      change LqaSamples.push ((history ops).rtake 3) lqi = (history ops ++ [lqi]).rtake 3
      rw [LqaSamples.push, length_rtake, List.rtake, List.rtake, List.length_append,
        List.length_singleton, List.drop_append, List.drop_append, List.drop_drop, List.length_drop]
      congr 2 <;> omega

/-- An entry of `Neighbors` answers as one that has the buffer. -/
theorem lqa_lqaSamples (ops : List (Op UInt8)) (entry : Neighbors.TableEntry) :
    ∃ lqas : RingBuffer UInt8 linkQualitySamples, run ops new = .ok lqas ∧
      lqas.lqa = .ok { entry with lqas := lqaSamples ops }.lqa := by
  obtain ⟨lqas, hrun⟩ := (run_returns_iff (by decide) (by decide) ops).mpr
    (.inl (by decide : linkQualitySamples ≠ 255))
  have hlength := length_rtake (history ops)
  refine ⟨lqas, hrun, ?_⟩
  rw [(holds_of_run (by decide) (by decide) hrun).lqa, Neighbors.TableEntry.lqa, lqaSamples_eq,
    middle]
  dsimp only
  congr 1
  exact if_congr (by omega) rfl rfl

end RingBuffer

/-! ## The result -/

open RingBuffer in
/-- The buffer holds the last values, if its capacity is below 255 or it is never pushed to more
than 255 times in a row.  The capacity of the link quality samples is three: they have a median
when there are three of them, and it is that of the last three. -/
theorem ring_buffer_last_values_iff {T : Type} [Inhabited T] {N : Nat}
    (hcapacity : 0 < N ∧ N ≤ 255) (ops : List (RingBuffer.Op T)) (samples : List (Op UInt8)) :
    ((∃ (ring : RingBuffer T N) (values : List T), run ops new = .ok ring ∧
        ring.len.toNat = min (history ops).length N ∧ ring.values = .ok values ∧
        values ~r (history ops).rtake ring.len.toNat) ↔
      N ≠ 255 ∨ ∀ values : List T, values.map .push <:+: ops → values.length ≤ 255) ∧
    ∃ lqas : RingBuffer UInt8 linkQualitySamples, run samples new = .ok lqas ∧
      if (history samples).length < 3 then lqas.lqa = .ok none
      else ∃ median, lqas.lqa = .ok (some median) ∧
        IsMedian median ((history samples).rtake 3) := by
  obtain ⟨hpos, hmax⟩ := hcapacity
  refine ⟨?_, ?_⟩
  · rw [← run_returns_iff hpos hmax]
    constructor
    · intro ⟨ring, values, hrun, _⟩
      exact ⟨ring, hrun⟩
    · intro ⟨ring, hrun⟩
      have hholds := holds_of_run hpos hmax hrun
      obtain ⟨values, hvalues, hrotated⟩ := hholds.values
      exact ⟨ring, values, hrun, hholds.len, hvalues, hrotated⟩
  · obtain ⟨lqas, hrun⟩ := (run_returns_iff (by decide) (by decide) samples).mpr
      (.inl (by decide : linkQualitySamples ≠ 255))
    have hholds := holds_of_run (by decide) (by decide) hrun
    refine ⟨lqas, hrun, ?_⟩
    rw [hholds.lqa]
    split
    next hshort => exact congrArg Except.ok (if_neg (Nat.not_le.mpr hshort))
    next hlong =>
      obtain ⟨median, hmiddle, hmedian⟩ := isMedian_middle (Nat.le_of_not_lt hlong)
      exact ⟨median, congrArg Except.ok hmiddle, hmedian⟩

open RingBuffer in
/-- Four pushes to a buffer of three slots. -/
theorem ring_buffer_last_values_iff_wrapped : ∃ (ring : RingBuffer UInt8 3) (values : List UInt8),
    run [.push 1, .push 2, .push 3, .push 4] new = .ok ring ∧ ring.len.toNat = 3 ∧
      ring.values = .ok values ∧ values ~r [2, 3, 4] :=
  (ring_buffer_last_values_iff (by decide) [.push 1, .push 2, .push 3, .push 4] []).1.mpr
    (.inl (by decide)) |>.imp fun _ => Exists.imp fun _ h => ⟨h.1, h.2.1, h.2.2.1, by
      obtain ⟨-, hlen, -, hrotated⟩ := h
      rw [hlen] at hrotated
      exact hrotated⟩

open RingBuffer in
/-- The constructor accepts 255 slots: the first 255 pushes fill them, and the next one panics. -/
theorem ring_buffer_overflows :
    (·.len) <$> run (List.replicate 255 (.push 7)) (new : RingBuffer UInt8 255) = .ok 255 ∧
    (·.len) <$> run (List.replicate 256 (.push 7)) (new : RingBuffer UInt8 255) =
      .error .overflow := by
  decide +kernel

end Ziggurat
