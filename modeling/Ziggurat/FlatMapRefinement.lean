import Mathlib.Data.Finmap
import Mathlib.Data.Finset.Sort
import Ziggurat.FlatMap
import Ziggurat.Rust

/-!
# `FlatMap` and `FlatSet` as finite maps and sets

`FlatMap` has the operations of the sorted vector with the proof that they keep it sorted.  This
module has them as the code runs them: on a bare vector, with every index checked, with the values
they return, with the entry handles that hold an index into the vector, and with closures that
have a state of their own.  `σ` is the state that the closures of a whole run share.

The specification is Mathlib's `Finmap`, whose keys are visited in ascending order.  `apply_refines`
says for each operation that the code returns, returns what the specification returns, and leaves
a vector that is sorted and has the contents of the specification.  The search of the vector is
`indexOf`, which is what `binary_search_by` promises for a sorted slice.
-/

namespace Ziggurat

open Lib.KeyedList

namespace FlatMap

variable {σ K V : Type} [LinearOrder K]

/-! ## The code -/

namespace Code

/-- `entries[index].1`. -/
def valueAt (entries : List (K × V)) (index : Nat) : Checked V :=
  match entries[index]? with
  | some e => .ok e.2
  | none => .error .index

/-- A write through a reference to `entries[index].1`. -/
def assign (entries : List (K × V)) (index : Nat) (value : V) : List (K × V) :=
  entries.modify index fun e => (e.1, value)

/-- What a closure does with a reference to `entries[index].1`, and the value that it found. -/
def modifyAt (entries : List (K × V)) (index : Nat) (f : V → StateM σ V) (env : σ) :
    Checked (V × σ × List (K × V)) := do
  let value ← valueAt entries index
  let (value', env) := f value env
  return (value, env, assign entries index value')

/-- `Vec::insert`. -/
def insertAt (entries : List (K × V)) (index : Nat) (e : K × V) : Checked (List (K × V)) := do
  Checked.ensure (index ≤ entries.length) .index
  return entries.insertIdx index e

def get (entries : List (K × V)) (key : K) : Checked (Option V) :=
  match indexOf entries key with
  | .ok index => some <$> valueAt entries index
  | .error _ => .ok none

def insert (entries : List (K × V)) (key : K) (value : V) :
    Checked (Option V × List (K × V)) :=
  match indexOf entries key with
  | .ok index => do
    let old ← valueAt entries index
    return (some old, assign entries index value)
  | .error index => do
    let entries ← insertAt entries index (key, value)
    return (none, entries)

def remove (entries : List (K × V)) (key : K) : Checked (Option V × List (K × V)) :=
  match indexOf entries key with
  | .ok index => do
    let old ← valueAt entries index
    return (some old, entries.eraseIdx index)
  | .error _ => .ok (none, entries)

def popFirst : List (K × V) → Option (K × V) × List (K × V)
  | [] => (none, [])
  | e :: entries => (some e, entries)

def retain (f : K → V → StateM σ (Bool × V)) : List (K × V) → StateM σ (List (K × V))
  | [] => pure []
  | (key, value) :: entries => do
    let (keep, value) ← f key value
    let entries ← retain f entries
    return if keep then (key, value) :: entries else entries

def extend (entries : List (K × V)) (items : List (K × V)) : Checked (List (K × V)) :=
  items.foldlM (fun entries item => Prod.snd <$> insert entries item.1 item.2) entries

/-- `PartialEq::eq`. -/
def eq [BEq V] : List (K × V) → List (K × V) → Bool
  | [], [] => true
  | (key, value) :: entries, (key', value') :: entries' =>
    decide (key = key') && value == value' && eq entries entries'
  | _, _ => false

end Code

/-- `Entry`: a handle to the slot of a key, or to the place where it belongs. -/
inductive Entry (K : Type) where
  | occupied (index : Nat)
  | vacant (index : Nat) (key : K)

namespace Code

def entry (entries : List (K × V)) (key : K) : Entry K :=
  match indexOf entries key with
  | .ok index => .occupied index
  | .error index => .vacant index key

/-- `OccupiedEntry::insert`, for some values in a row. -/
def occupiedInsert (index : Nat) : List V → List (K × V) → Checked (List V × List (K × V))
  | [], entries => .ok ([], entries)
  | value :: values, entries => do
    let old ← valueAt entries index
    let (olds, entries) ← occupiedInsert index values (assign entries index value)
    return (old :: olds, entries)

/-- `VacantEntry::insert`, which returns a reference to the slot `index`. -/
def vacantInsert (entries : List (K × V)) (index : Nat) (key : K) (value : V) :
    Checked (List (K × V)) := do
  let entries ← insertAt entries index (key, value)
  let _ ← valueAt entries index
  return entries

def andModify (entries : List (K × V)) (f : V → StateM σ V) (env : σ) :
    Entry K → Checked (σ × List (K × V))
  | .occupied index => Prod.snd <$> modifyAt entries index f env
  | .vacant _ _ => .ok (env, entries)

/-- `Entry::or_insert_with`: the index that the returned reference points to. -/
def orInsertWith (entries : List (K × V)) (default : StateM σ V) (env : σ) :
    Entry K → Checked (Nat × σ × List (K × V))
  | .occupied index => do
    let _ ← valueAt entries index
    return (index, env, entries)
  | .vacant index key => do
    let (value, env) := default env
    let entries ← vacantInsert entries index key value
    return (index, env, entries)

end Code

/-- What is done with an entry in the end: `or_insert_with` and a use of the reference that it
returns, or a `match` that calls `OccupiedEntry::insert` with some values in a row, and
`VacantEntry::insert` with one, whose reference it then uses. -/
inductive EntryCall (σ V : Type) where
  | orInsertWith (default : StateM σ V) (use : V → StateM σ V)
  | arms (occupied : List V) (vacant : Option (V × (V → StateM σ V)))

/-- `Entry::or_default`. -/
def EntryCall.orDefault [Inhabited V] (use : V → StateM σ V) : EntryCall σ V :=
  .orInsertWith (pure default) use

inductive Op (σ K V : Type) where
  | insert (key : K) (value : V)
  | remove (key : K)
  | popFirst
  | retain (f : K → V → StateM σ (Bool × V))
  | extend (items : List (K × V))
  | clear
  | entry (key : K) (modifies : List (V → StateM σ V)) (call : EntryCall σ V)

/-- What an operation returns. -/
inductive Ret (K V : Type) where
  | unit
  | value (value : Option V)
  | entry (entry : Option (K × V))
  /-- A reference, with the value that is read through it. -/
  | reference (value : V)
  /-- The values that `OccupiedEntry::insert` replaced. -/
  | replaced (values : List V)

namespace Code

def EntryCall.apply (entries : List (K × V)) (env : σ) (entry : Entry K) :
    EntryCall σ V → Checked (Ret K V × σ × List (K × V))
  | .orInsertWith default use => do
    let (index, env, entries) ← orInsertWith entries default env entry
    let (value, env, entries) ← modifyAt entries index use env
    return (.reference value, env, entries)
  | .arms occupied vacant =>
    match entry, vacant with
    | .occupied index, _ => do
      let (olds, entries) ← occupiedInsert index occupied entries
      return (.replaced olds, env, entries)
    | .vacant index key, some (value, use) => do
      let entries ← vacantInsert entries index key value
      let (value, env, entries) ← modifyAt entries index use env
      return (.reference value, env, entries)
    | .vacant _ _, none => .ok (.unit, env, entries)

def apply (entries : List (K × V)) (env : σ) : Op σ K V → Checked (Ret K V × σ × List (K × V))
  | .insert key value => do
    let (old, entries) ← insert entries key value
    return (.value old, env, entries)
  | .remove key => do
    let (old, entries) ← remove entries key
    return (.value old, env, entries)
  | .popFirst =>
    let (first, entries) := popFirst entries
    .ok (.entry first, env, entries)
  | .retain f =>
    let (entries, env) := retain f entries env
    .ok (.unit, env, entries)
  | .extend items => do
    let entries ← extend entries items
    return (.unit, env, entries)
  | .clear => .ok (.unit, env, [])
  | .entry key modifies call => do
    let handle := entry entries key
    let (env, entries) ← modifies.foldlM (fun (s : σ × List (K × V)) f =>
      andModify s.2 f s.1 handle) (env, entries)
    EntryCall.apply entries env handle call

/-- A sequence of operations, with what each of them returns. -/
def run : List (Op σ K V) → σ → List (K × V) → Checked (List (Ret K V) × σ × List (K × V))
  | [], env, entries => .ok ([], env, entries)
  | op :: ops, env, entries => do
    let (ret, env, entries) ← apply entries env op
    let (rets, env, entries) ← run ops env entries
    return (ret :: rets, env, entries)

end Code

/-! ## The specification -/

/-- A finite map, whose keys are visited in ascending order. -/
abbrev OrderedMap (K V : Type) := Finmap fun _ : K => V

namespace Spec

def keys (m : OrderedMap K V) : List K := m.keys.sort (· ≤ ·)

/-- What iteration visits. -/
def entries (m : OrderedMap K V) : List (K × V) :=
  (keys m).filterMap fun key => (m.lookup key).map fun value => (key, value)

/-- The keys that are left to visit, in order. -/
def retain (f : K → V → StateM σ (Bool × V)) : List K → OrderedMap K V → StateM σ (OrderedMap K V)
  | [], m => pure m
  | key :: keys, m =>
    match m.lookup key with
    | none => retain f keys m
    | some value => do
      let (keep, value) ← f key value
      retain f keys (if keep then m.insert key value else m.erase key)

def modify (key : K) (f : V → StateM σ V) (s : σ × OrderedMap K V) : σ × OrderedMap K V :=
  match s.2.lookup key with
  | some value =>
    let (value, env) := f value s.1
    (env, s.2.insert key value)
  | none => s

/-- A reference to the value of `key`, and its use. -/
def useAt (key : K) (use : V → StateM σ V) (s : (V × σ) × OrderedMap K V) :
    Ret K V × σ × OrderedMap K V :=
  let (value, env) := use s.1.1 s.1.2
  (.reference s.1.1, env, s.2.insert key value)

/-- The values that are replaced one after the other, starting with `old`. -/
def replace (key : K) : V → List V → OrderedMap K V → List V × OrderedMap K V
  | _, [], m => ([], m)
  | old, value :: values, m =>
    let (olds, m) := replace key value values (m.insert key value)
    (old :: olds, m)

def EntryCall.apply (key : K) (s : σ × OrderedMap K V) :
    EntryCall σ V → Ret K V × σ × OrderedMap K V
  | .orInsertWith default use =>
    match s.2.lookup key with
    | some value => useAt key use ((value, s.1), s.2)
    | none => useAt key use (default s.1, s.2)
  | .arms occupied vacant =>
    match s.2.lookup key, vacant with
    | some old, _ =>
      let (olds, m) := replace key old occupied s.2
      (.replaced olds, s.1, m)
    | none, some (value, use) => useAt key use ((value, s.1), s.2)
    | none, none => (.unit, s)

def apply (m : OrderedMap K V) (env : σ) : Op σ K V → Ret K V × σ × OrderedMap K V
  | .insert key value => (.value (m.lookup key), env, m.insert key value)
  | .remove key => (.value (m.lookup key), env, m.erase key)
  | .popFirst =>
    match (keys m).head? with
    | some key => (.entry ((m.lookup key).map fun value => (key, value)), env, m.erase key)
    | none => (.entry none, env, m)
  | .retain f =>
    let (m, env) := retain f (keys m) m env
    (.unit, env, m)
  | .extend items => (.unit, env, items.foldl (fun m item => m.insert item.1 item.2) m)
  | .clear => (.unit, env, ∅)
  | .entry key modifies call =>
    EntryCall.apply key (modifies.foldl (fun s f => modify key f s) (env, m)) call

def run : List (Op σ K V) → σ → OrderedMap K V → List (Ret K V) × σ × OrderedMap K V
  | [], env, m => ([], env, m)
  | op :: ops, env, m =>
    let (ret, env, m) := apply m env op
    let (rets, env, m) := run ops env m
    (ret :: rets, env, m)

end Spec

/-! ## Contents -/

/-- The contents of a vector that is sorted. -/
def contents (m : FlatMap K V) : OrderedMap K V :=
  AList.toFinmap ⟨m.entries.map fun e => ⟨e.1, e.2⟩, by
    rw [List.nodupKeys_iff_pairwise, List.pairwise_map]
    exact m.sorted.imp ne_of_lt⟩

@[simp] theorem lookup_contents (m : FlatMap K V) (key : K) :
    m.contents.lookup key = m.get key := by
  apply Option.ext
  intro value
  rw [contents, Finmap.lookup_toFinmap, AList.lookup, ← mem_entries,
    ← Option.mem_def, List.mem_dlookup_iff (AList.nodupKeys _), List.mem_map]
  constructor
  · rintro ⟨⟨_, _⟩, he, hsame⟩
    cases hsame
    exact he
  · exact fun he => ⟨(key, value), he, rfl⟩

theorem contents_eq {m : FlatMap K V} {s : OrderedMap K V}
    (h : ∀ key, m.get key = s.lookup key) : m.contents = s :=
  Finmap.ext_lookup fun key => (lookup_contents m key).trans (h key)

theorem contents_new : (new : FlatMap K V).contents = ∅ := by
  apply contents_eq
  intro key
  rw [get_new, Finmap.lookup_empty]

theorem contents_insert (m : FlatMap K V) (key : K) (value : V) :
    (m.insert key value).contents = m.contents.insert key value := by
  apply contents_eq
  intro other
  rw [get_insert]
  split
  next h => rw [h, Finmap.lookup_insert]
  next h => rw [Finmap.lookup_insert_of_ne _ h, lookup_contents]

theorem contents_remove (m : FlatMap K V) (key : K) :
    (m.remove key).contents = m.contents.erase key := by
  apply contents_eq
  intro other
  rw [get_remove]
  split
  next h => rw [h, Finmap.lookup_erase]
  next h => rw [Finmap.lookup_erase_ne h, lookup_contents]

/-- The vector has the keys in the order of the specification. -/
theorem keys_contents (m : FlatMap K V) : Spec.keys m.contents = m.keys := by
  have hkeys : m.keys.Pairwise (· < ·) := List.pairwise_map.mpr m.sorted
  apply (Finset.sortedLT_sort _).pairwise.eq_of_mem_iff hkeys
  intro key
  rw [Finset.mem_sort, Finmap.mem_keys, ← Finmap.lookup_isSome, lookup_contents, mem_keys]

theorem entries_contents (m : FlatMap K V) : Spec.entries m.contents = m.entries := by
  rw [Spec.entries, keys_contents, keys, List.filterMap_map]
  calc
    _ = m.entries.filterMap some := by
      apply List.filterMap_congr
      intro e he
      simp [mem_entries.mp he]
    _ = m.entries := List.filterMap_some

/-! ## Handles -/

/-- `index` is the slot of `key`. -/
def Slot (m : FlatMap K V) (key : K) (index : Nat) : Prop :=
  ∃ lo value hi, m.entries = lo ++ (key, value) :: hi ∧ (∀ e ∈ lo, e.1 < key) ∧
    lo.length = index

/-- `key` is absent, and `index` is where it belongs. -/
def Gap (m : FlatMap K V) (key : K) (index : Nat) : Prop :=
  ∃ lo hi, m.entries = lo ++ hi ∧ (∀ e ∈ lo, e.1 < key) ∧ (∀ e ∈ hi, key < e.1) ∧
    lo.length = index

theorem indexOf_cases (m : FlatMap K V) (key : K) :
    (∃ index, indexOf m.entries key = .ok index ∧ Slot m key index) ∨
      ∃ index, indexOf m.entries key = .error index ∧ Gap m key index := by
  rcases exists_split m.sorted key with ⟨lo, value, hi, h, hlo, -⟩ | ⟨lo, hi, h, hlo, hhi⟩
  · refine .inl ⟨lo.length, ?_, lo, value, hi, h, hlo, rfl⟩
    rw [h, indexOf_present hlo]
  · refine .inr ⟨lo.length, ?_, lo, hi, h, hlo, hhi, rfl⟩
    rw [h, indexOf_absent hlo hhi]

variable {m : FlatMap K V} {key : K} {index : Nat}

theorem entries_insert_present {lo hi : List (K × V)} {old : V}
    (h : m.entries = lo ++ (key, old) :: hi) (hlo : ∀ e ∈ lo, e.1 < key) (value : V) :
    (m.insert key value).entries = lo ++ (key, value) :: hi :=
  (congrArg (insertEntries · key value) h).trans (insertEntries_present hlo)

theorem entries_insert_absent {lo hi : List (K × V)} (h : m.entries = lo ++ hi)
    (hlo : ∀ e ∈ lo, e.1 < key) (hhi : ∀ e ∈ hi, key < e.1) (value : V) :
    (m.insert key value).entries = lo ++ (key, value) :: hi :=
  (congrArg (insertEntries · key value) h).trans (insertEntries_absent hlo hhi)

theorem entries_remove_present {lo hi : List (K × V)} {old : V}
    (h : m.entries = lo ++ (key, old) :: hi) (hlo : ∀ e ∈ lo, e.1 < key) :
    (m.remove key).entries = lo ++ hi :=
  (congrArg (removeEntries · key) h).trans (removeEntries_present hlo)

theorem Slot.valueAt (h : Slot m key index) :
    ∃ value, m.get key = some value ∧ Code.valueAt m.entries index = .ok value := by
  obtain ⟨lo, value, hi, h, -, rfl⟩ := h
  refine ⟨value, mem_entries.mp ?_, ?_⟩
  · rw [h]
    exact List.mem_append_right lo List.mem_cons_self
  · simp [Code.valueAt, h]

theorem Slot.assign (h : Slot m key index) (value : V) :
    Code.assign m.entries index value = (m.insert key value).entries := by
  obtain ⟨lo, old, hi, h, hlo, rfl⟩ := h
  rw [entries_insert_present h hlo, Code.assign, h, List.modify_eq_take_cons_drop (by simp)]
  simp

/-- A write through a handle leaves the handle where it is. -/
theorem Slot.insert (h : Slot m key index) (value : V) : Slot (m.insert key value) key index := by
  obtain ⟨lo, old, hi, h, hlo, hindex⟩ := h
  exact ⟨lo, value, hi, entries_insert_present h hlo value, hlo, hindex⟩

theorem Gap.get (h : Gap m key index) : m.get key = none := by
  obtain ⟨lo, hi, h, hlo, hhi, -⟩ := h
  rw [FlatMap.get, h, indexOf_absent hlo hhi]

theorem Gap.insertAt (h : Gap m key index) (value : V) :
    Code.insertAt m.entries index (key, value) = .ok (m.insert key value).entries := by
  obtain ⟨lo, hi, h, hlo, hhi, rfl⟩ := h
  rw [entries_insert_absent h hlo hhi, Code.insertAt, h, Checked.ensure_of _ (by simp),
    Checked.ok_bind, insertIdx_length_append, Checked.pure_eq_ok]

theorem Gap.slot (h : Gap m key index) (value : V) : Slot (m.insert key value) key index := by
  obtain ⟨lo, hi, h, hlo, hhi, hindex⟩ := h
  exact ⟨lo, value, hi, entries_insert_absent h hlo hhi value, hlo, hindex⟩

/-! ## The operations of the code -/

theorem code_get (m : FlatMap K V) (key : K) : Code.get m.entries key = .ok (m.get key) := by
  unfold Code.get
  rcases indexOf_cases m key with ⟨index, hindex, hslot⟩ | ⟨index, hindex, hgap⟩
  · obtain ⟨value, hget, hvalue⟩ := hslot.valueAt
    rw [hindex, hget]
    dsimp only
    rw [hvalue]
    rfl
  · rw [hindex, hgap.get]

theorem code_insert (m : FlatMap K V) (key : K) (value : V) :
    Code.insert m.entries key value = .ok (m.get key, (m.insert key value).entries) := by
  unfold Code.insert
  rcases indexOf_cases m key with ⟨index, hindex, hslot⟩ | ⟨index, hindex, hgap⟩
  · obtain ⟨old, hget, hold⟩ := hslot.valueAt
    rw [hindex, hget]
    dsimp only
    rw [hold, Checked.ok_bind, hslot.assign, Checked.pure_eq_ok]
  · rw [hindex, hgap.get]
    dsimp only
    rw [hgap.insertAt, Checked.ok_bind, Checked.pure_eq_ok]

theorem code_remove (m : FlatMap K V) (key : K) :
    Code.remove m.entries key = .ok (m.get key, (m.remove key).entries) := by
  unfold Code.remove remove removeEntries
  rcases indexOf_cases m key with ⟨index, hindex, hslot⟩ | ⟨index, hindex, hgap⟩
  · obtain ⟨old, hget, hold⟩ := hslot.valueAt
    simp only [hindex, hget, hold, Checked.ok_bind, Checked.pure_eq_ok]
  · simp only [hindex, hgap.get]

theorem code_extend (items : List (K × V)) (m : FlatMap K V) :
    Code.extend m.entries items =
      .ok (items.foldl (fun m item => m.insert item.1 item.2) m).entries := by
  induction items generalizing m with
  | nil => rfl
  | cons item items ih =>
    have hstep : Prod.snd <$> Code.insert m.entries item.1 item.2 =
        .ok (m.insert item.1 item.2).entries := by
      rw [code_insert]
      rfl
    rw [Code.extend, List.foldlM_cons, hstep, Checked.ok_bind]
    exact ih _

theorem contents_extend (items : List (K × V)) (m : FlatMap K V) :
    (items.foldl (fun m item => m.insert item.1 item.2) m).contents =
      items.foldl (fun s item => s.insert item.1 item.2) m.contents := by
  induction items generalizing m with
  | nil => rfl
  | cons item items ih => rw [List.foldl_cons, ih, contents_insert, List.foldl_cons]

omit [LinearOrder K] in
theorem code_retain_cons (f : K → V → StateM σ (Bool × V)) (key : K) (value : V)
    (entries : List (K × V)) (env : σ) :
    Code.retain f ((key, value) :: entries) env =
      (if (f key value env).1.1 then
          (key, (f key value env).1.2) :: (Code.retain f entries (f key value env).2).1
        else (Code.retain f entries (f key value env).2).1,
        (Code.retain f entries (f key value env).2).2) :=
  rfl

/-- The loop of `retain` after the entries `done`, which it has visited. -/
theorem retain_refines (f : K → V → StateM σ (Bool × V)) (entries : List (K × V))
    {done : List (K × V)} {m : FlatMap K V} (h : m.entries = done ++ entries) (env : σ) :
    ∃ m' : FlatMap K V, m'.entries = done ++ (Code.retain f entries env).1 ∧
      Spec.retain f (entries.map Prod.fst) m.contents env =
        (m'.contents, (Code.retain f entries env).2) := by
  induction entries generalizing done m env with
  | nil => exact ⟨m, h, rfl⟩
  | cons e entries ih =>
    obtain ⟨key, value⟩ := e
    have hlo : ∀ e ∈ done, e.1 < key := fun e he =>
      (List.pairwise_append.mp (h ▸ m.sorted)).2.2 e he (key, value) List.mem_cons_self
    have hlookup : m.contents.lookup key = some value := by
      rw [lookup_contents, ← mem_entries, h]
      exact List.mem_append_right done List.mem_cons_self
    rw [code_retain_cons]
    have hspec : Spec.retain f (((key, value) :: entries).map Prod.fst) m.contents env =
        Spec.retain f (entries.map Prod.fst)
          (if (f key value env).1.1 then m.contents.insert key (f key value env).1.2
            else m.contents.erase key) (f key value env).2 := by
      rw [List.map_cons, Spec.retain, hlookup]
      rfl
    rw [hspec]
    split
    · rw [← contents_insert]
      have hvisited : (m.insert key (f key value env).1.2).entries =
          (done ++ [(key, (f key value env).1.2)]) ++ entries := by
        rw [entries_insert_present h hlo, List.append_assoc, List.singleton_append]
      obtain ⟨m', hm', hrest⟩ := ih hvisited (f key value env).2
      refine ⟨m', ?_, hrest⟩
      rw [hm', List.append_assoc, List.singleton_append]
    · rw [← contents_remove]
      exact ih (entries_remove_present h hlo) _

/-! ## Refinement -/

/-- The code returns what the specification returns, and leaves its contents in a sorted vector. -/
def Refines {α : Type} (code : Checked (α × σ × List (K × V))) (spec : α × σ × OrderedMap K V) :
    Prop :=
  ∃ m : FlatMap K V, code = .ok (spec.1, spec.2.1, m.entries) ∧ m.contents = spec.2.2

theorem Slot.modifyAt_eq (h : Slot m key index) {value : V} (hget : m.get key = some value)
    (f : V → StateM σ V) (env : σ) :
    Code.modifyAt m.entries index f env =
      .ok (value, (f value env).2, (m.insert key (f value env).1).entries) := by
  obtain ⟨value', hget', hvalue⟩ := h.valueAt
  cases Option.some.inj (hget.symm.trans hget')
  rw [Code.modifyAt, hvalue, Checked.ok_bind, ← h.assign]
  rfl

/-- The use of a reference to the value of `key`. -/
theorem Slot.use_refines (h : Slot m key index) {value : V} (hget : m.get key = some value)
    (use : V → StateM σ V) (env : σ) {s : OrderedMap K V}
    (hcontents : m.contents = s ∨ m.contents = s.insert key value) :
    Refines (do
        let (value, env, entries) ← Code.modifyAt m.entries index use env
        return (.reference value, env, entries))
      (Spec.useAt key use ((value, env), s)) := by
  refine ⟨m.insert key (use value env).1, ?_, ?_⟩
  · rw [h.modifyAt_eq hget, Checked.ok_bind]
    rfl
  · rw [contents_insert]
    rcases hcontents with hsame | hinsert
    · rw [hsame]
      rfl
    · rw [hinsert, Finmap.insert_insert]
      rfl

theorem Slot.occupiedInsert_refines (values : List V) (h : Slot m key index) {old : V}
    (hget : m.get key = some old) :
    ∃ m' : FlatMap K V,
      Code.occupiedInsert index values m.entries =
        .ok ((Spec.replace key old values m.contents).1, m'.entries) ∧
      m'.contents = (Spec.replace key old values m.contents).2 := by
  induction values generalizing m old with
  | nil => exact ⟨m, rfl, rfl⟩
  | cons value values ih =>
    obtain ⟨old', hget', hvalue⟩ := h.valueAt
    cases Option.some.inj (hget.symm.trans hget')
    have hnew : (m.insert key value).get key = some value := by simp
    obtain ⟨m', hrest, hcontents⟩ := ih (h.insert value) hnew
    rw [contents_insert] at hrest hcontents
    refine ⟨m', ?_, hcontents⟩
    rw [Code.occupiedInsert, hvalue, Checked.ok_bind, h.assign, hrest, Checked.ok_bind]
    rfl

/-- The handle that `entry` returns: it stands for `key` in the vector. -/
inductive Handles (m : FlatMap K V) (key : K) : Entry K → Prop where
  | occupied {index : Nat} (h : Slot m key index) : Handles m key (.occupied index)
  | vacant {index : Nat} (h : Gap m key index) : Handles m key (.vacant index key)

theorem handles_entry (m : FlatMap K V) (key : K) : Handles m key (Code.entry m.entries key) := by
  unfold Code.entry
  rcases indexOf_cases m key with ⟨index, hindex, hslot⟩ | ⟨index, hindex, hgap⟩
  · rw [hindex]
    exact .occupied hslot
  · rw [hindex]
    exact .vacant hgap

/-- `and_modify` writes the vector and leaves the handle valid. -/
theorem Handles.andModify_refines {entry : Entry K} (h : Handles m key entry)
    (f : V → StateM σ V) (env : σ) :
    ∃ m' : FlatMap K V, Handles m' key entry ∧
      Code.andModify m.entries f env entry =
        .ok ((Spec.modify key f (env, m.contents)).1, m'.entries) ∧
      m'.contents = (Spec.modify key f (env, m.contents)).2 := by
  unfold Spec.modify
  dsimp only
  rw [lookup_contents]
  cases h with
  | occupied hslot =>
    obtain ⟨value, hget, -⟩ := hslot.valueAt
    rw [hget]
    refine ⟨m.insert key (f value env).1, .occupied (hslot.insert _), ?_, contents_insert m _ _⟩
    rw [Code.andModify, hslot.modifyAt_eq hget]
    rfl
  | vacant hgap =>
    rw [hgap.get]
    exact ⟨m, .vacant hgap, rfl, rfl⟩

theorem Handles.modifies_refines {entry : Entry K} (modifies : List (V → StateM σ V))
    (h : Handles m key entry) (env : σ) :
    ∃ m' : FlatMap K V, Handles m' key entry ∧
      modifies.foldlM (fun (s : σ × List (K × V)) f => Code.andModify s.2 f s.1 entry)
          (env, m.entries) =
        .ok ((modifies.foldl (fun s f => Spec.modify key f s) (env, m.contents)).1,
          m'.entries) ∧
      m'.contents = (modifies.foldl (fun s f => Spec.modify key f s) (env, m.contents)).2 := by
  induction modifies generalizing m env with
  | nil => exact ⟨m, h, rfl, rfl⟩
  | cons f modifies ih =>
    obtain ⟨m₁, hhandles, hcode, hcontents⟩ := h.andModify_refines f env
    obtain ⟨m', hhandles', hrest, hcontents'⟩ :=
      ih hhandles (Spec.modify key f (env, m.contents)).1
    rw [hcontents] at hrest hcontents'
    refine ⟨m', hhandles', ?_, hcontents'⟩
    rw [List.foldlM_cons, hcode, Checked.ok_bind]
    exact hrest

/-- `VacantEntry::insert`, and the slot that its reference points to. -/
theorem Gap.vacantInsert_eq (h : Gap m key index) (value : V) :
    Code.vacantInsert m.entries index key value = .ok (m.insert key value).entries := by
  obtain ⟨value', -, hvalue⟩ := (h.slot value).valueAt
  rw [Code.vacantInsert, h.insertAt, Checked.ok_bind, hvalue, Checked.ok_bind, Checked.pure_eq_ok]

theorem Handles.call_refines {entry : Entry K} (h : Handles m key entry) (env : σ)
    (call : EntryCall σ V) :
    Refines (Code.EntryCall.apply m.entries env entry call)
      (Spec.EntryCall.apply key (env, m.contents) call) := by
  cases h with
  | occupied hslot =>
    obtain ⟨value, hget, hvalue⟩ := hslot.valueAt
    cases call with
    | orInsertWith default use =>
      have huse := hslot.use_refines hget use env (.inl rfl)
      simpa only [Code.EntryCall.apply, Code.orInsertWith, hvalue, Checked.ok_bind,
        Checked.pure_eq_ok, Spec.EntryCall.apply, lookup_contents, hget] using huse
    | arms occupied vacant =>
      obtain ⟨m', hcode, hcontents⟩ := hslot.occupiedInsert_refines occupied hget
      refine ⟨m', ?_, ?_⟩
      · simp only [Code.EntryCall.apply, hcode, Checked.ok_bind, Checked.pure_eq_ok,
          Spec.EntryCall.apply, lookup_contents, hget]
      · simp only [Spec.EntryCall.apply, lookup_contents, hget, hcontents]
  | vacant hgap =>
    have hvacant (value : V) (use : V → StateM σ V) (env : σ) :=
      (hgap.slot value).use_refines (by simp) use env (.inr (contents_insert m _ value))
    cases call with
    | orInsertWith default use =>
      rcases hdefault : default env with ⟨value, env'⟩
      simpa only [Code.EntryCall.apply, Code.orInsertWith, hdefault, hgap.vacantInsert_eq,
        Checked.ok_bind, Checked.pure_eq_ok, Spec.EntryCall.apply, lookup_contents, hgap.get]
        using hvacant value use env'
    | arms occupied vacant =>
      cases vacant with
      | none =>
        refine ⟨m, ?_, ?_⟩
        · simp only [Code.EntryCall.apply, Spec.EntryCall.apply, lookup_contents, hgap.get]
        · simp only [Spec.EntryCall.apply, lookup_contents, hgap.get]
      | some insertion =>
        simpa only [Code.EntryCall.apply, hgap.vacantInsert_eq, Checked.ok_bind,
          Spec.EntryCall.apply, lookup_contents, hgap.get]
          using hvacant insertion.1 insertion.2 env

theorem popFirst_refines (m : FlatMap K V) (env : σ) :
    Refines (Code.apply m.entries env .popFirst) (Spec.apply m.contents env .popFirst) := by
  cases hentries : m.entries with
  | nil =>
    have hhead : m.keys.head? = none := by rw [keys, hentries, List.map_nil, List.head?_nil]
    have hspec : Spec.apply m.contents env .popFirst = (.entry none, env, m.contents) := by
      simp only [Spec.apply, keys_contents, hhead]
    rw [hspec]
    exact ⟨m, by rw [hentries]; rfl, rfl⟩
  | cons e entries =>
    obtain ⟨key, value⟩ := e
    have hhead : m.keys.head? = some key := by
      rw [keys, hentries, List.map_cons, List.head?_cons]
    have hget : m.get key = some value := by
      rw [← mem_entries, hentries]
      exact List.mem_cons_self
    have hspec : Spec.apply m.contents env .popFirst =
        (.entry (some (key, value)), env, m.contents.erase key) := by
      simp only [Spec.apply, keys_contents, hhead, lookup_contents, hget, Option.map_some]
    have hremove : (m.remove key).entries = entries :=
      entries_remove_present (hentries.trans (List.nil_append _).symm) (by simp)
    rw [hspec]
    exact ⟨m.remove key, by rw [hremove]; rfl, contents_remove m key⟩

/-- Every operation returns and has the effect of the operation on the finite map. -/
theorem apply_refines (m : FlatMap K V) (env : σ) (op : Op σ K V) :
    Refines (Code.apply m.entries env op) (Spec.apply m.contents env op) := by
  cases op with
  | insert key value =>
    refine ⟨m.insert key value, ?_, contents_insert m key value⟩
    simp only [Code.apply, code_insert, Checked.ok_bind, Checked.pure_eq_ok, Spec.apply,
      lookup_contents]
  | remove key =>
    refine ⟨m.remove key, ?_, contents_remove m key⟩
    simp only [Code.apply, code_remove, Checked.ok_bind, Checked.pure_eq_ok, Spec.apply,
      lookup_contents]
  | popFirst => exact popFirst_refines m env
  | retain f =>
    obtain ⟨m', hm', hspec⟩ := retain_refines f m.entries (List.nil_append m.entries).symm env
    have hkeys : Spec.keys m.contents = m.entries.map Prod.fst := keys_contents m
    rw [Spec.apply, hkeys, hspec]
    refine ⟨m', ?_, rfl⟩
    rw [hm', List.nil_append]
    rfl
  | extend items =>
    rw [Code.apply, code_extend, Checked.ok_bind, Spec.apply, ← contents_extend]
    exact ⟨_, rfl, rfl⟩
  | clear => exact ⟨new, rfl, contents_new⟩
  | entry key modifies call =>
    obtain ⟨m', hhandles, hcode, hcontents⟩ :=
      (handles_entry m key).modifies_refines modifies env
    have hcall := hhandles.call_refines
      (modifies.foldl (fun s f => Spec.modify key f s) (env, m.contents)).1 call
    rw [hcontents] at hcall
    rw [Code.apply, hcode, Checked.ok_bind]
    exact hcall

theorem run_refines (ops : List (Op σ K V)) (m : FlatMap K V) (env : σ) :
    Refines (Code.run ops env m.entries) (Spec.run ops env m.contents) := by
  induction ops generalizing m env with
  | nil => exact ⟨m, rfl, rfl⟩
  | cons op ops ih =>
    obtain ⟨m₁, hcode, hcontents⟩ := apply_refines m env op
    obtain ⟨m', hrest, hcontents'⟩ := ih m₁ (Spec.apply m.contents env op).2.1
    rw [hcontents] at hrest hcontents'
    refine ⟨m', ?_, hcontents'⟩
    simp only [Code.run, hcode, Checked.ok_bind, hrest, Checked.pure_eq_ok, Spec.run]

/-! ## Equality -/

/-- The key of the first entry is in no other. -/
theorem get_tail (e : K × V) (entries : List (K × V)) (h : KeySorted (e :: entries)) :
    (⟨entries, h.tail⟩ : FlatMap K V).get e.1 = none := by
  apply Option.eq_none_iff_forall_ne_some.mpr
  intro value hget
  exact lt_irrefl e.1 (h.head_lt (e.1, value) (mem_entries.mpr hget))

theorem get_cons (e : K × V) (entries : List (K × V)) (h : KeySorted (e :: entries)) (key : K) :
    (⟨e :: entries, h⟩ : FlatMap K V).get key =
      if key = e.1 then some e.2 else (⟨entries, h.tail⟩ : FlatMap K V).get key := by
  apply Option.ext
  intro value
  rw [← mem_entries, List.mem_cons]
  split
  next hkey =>
    have habsent : (e.1, value) ∉ entries := fun hmem =>
      lt_irrefl e.1 (h.head_lt (e.1, value) hmem)
    simp [hkey, habsent, Prod.ext_iff, eq_comm]
  next hkey =>
    rw [← mem_entries]
    simp [Prod.ext_iff, hkey]

/-- The least keys of two vectors with the same keys are the same. -/
theorem head_eq {e e' : K × V} {entries entries' : List (K × V)} (h : KeySorted (e :: entries))
    (h' : KeySorted (e' :: entries'))
    (hkeys : ∀ key, key ∈ (e :: entries).map Prod.fst ↔ key ∈ (e' :: entries').map Prod.fst) :
    e.1 = e'.1 := by
  have hle {e e' : K × V} {entries : List (K × V)} (h : KeySorted (e :: entries))
      (hmem : e'.1 ∈ (e :: entries).map Prod.fst) : e.1 ≤ e'.1 := by
    obtain ⟨d, hd, hkey⟩ := List.mem_map.mp hmem
    rcases List.mem_cons.mp hd with rfl | hd
    · exact hkey.le
    · exact hkey ▸ (h.head_lt d hd).le
  exact le_antisymm (hle h ((hkeys e'.1).mpr List.mem_cons_self))
    (hle h' ((hkeys e.1).mp List.mem_cons_self))

private theorem isSome_eq_of_rel {r : V → V → Prop} {o o' : Option V} (h : Option.Rel r o o') :
    o.isSome = o'.isSome := by
  cases h <;> rfl

/-- Two vectors are equal exactly if every key has equal values in them, or none in both. -/
theorem code_eq_iff [BEq V] (m m' : FlatMap K V) :
    Code.eq m.entries m'.entries = true ↔
      ∀ key, Option.Rel (fun v v' => (v == v') = true) (m.get key) (m'.get key) := by
  obtain ⟨entries, h⟩ := m
  obtain ⟨entries', h'⟩ := m'
  dsimp only
  induction entries generalizing entries' with
  | nil =>
    cases entries' with
    | nil => exact iff_of_true rfl fun _ => .none
    | cons e' entries' =>
      refine iff_of_false (by simp [Code.eq]) fun hsame => ?_
      have hhead := hsame e'.1
      rw [get_cons, if_pos rfl] at hhead
      cases hhead
  | cons e entries ih =>
    cases entries' with
    | nil =>
      refine iff_of_false (by simp [Code.eq]) fun hsame => ?_
      have hhead := hsame e.1
      rw [get_cons, if_pos rfl] at hhead
      cases hhead
    | cons e' entries' =>
      have hcode : Code.eq (e :: entries) (e' :: entries') = true ↔
          e.1 = e'.1 ∧ (e.2 == e'.2) = true ∧ Code.eq entries entries' = true := by
        simp [Code.eq, and_assoc]
      rw [hcode, ih h.tail entries' h'.tail]
      constructor
      · intro ⟨hkey, hvalue, hrest⟩ key
        rw [get_cons, get_cons, ← hkey]
        split
        · exact .some hvalue
        · exact hrest key
      · intro hsame
        have hkey : e.1 = e'.1 := by
          refine head_eq h h' fun key => ?_
          have hsome := Bool.eq_iff_iff.mp (isSome_eq_of_rel (hsame key))
          exact mem_keys.trans (hsome.trans mem_keys.symm)
        refine ⟨hkey, ?_, fun key => ?_⟩
        · have hhead := hsame e.1
          rw [get_cons, get_cons, if_pos rfl, if_pos hkey] at hhead
          cases hhead with
          | some hvalue => exact hvalue
        · have hrest := hsame key
          rw [get_cons, get_cons, ← hkey] at hrest
          split at hrest
          next hhere =>
            rw [hhere, get_tail e entries h, hkey, get_tail e' entries' h']
            exact .none
          next => exact hrest

/-- What a run of the code comes to: it returns what the run of the specification returns, and
`entries` has its contents, in order. -/
structure Outcome {α : Type} (code : Checked (α × σ × List (K × V)))
    (spec : α × σ × OrderedMap K V) (entries : List (K × V)) : Prop where
  returns : code = .ok (spec.1, spec.2.1, entries)
  sorted : KeySorted entries
  iterates : entries = Spec.entries spec.2.2
  finds : ∀ key, Code.get entries key = .ok (spec.2.2.lookup key)

theorem run_outcome (ops : List (Op σ K V)) (env : σ) :
    ∃ m : FlatMap K V, m.contents = (Spec.run ops env ∅).2.2 ∧
      Outcome (Code.run ops env []) (Spec.run ops env ∅) m.entries := by
  obtain ⟨m, hcode, hcontents⟩ := run_refines ops new env
  rw [contents_new] at hcode hcontents
  refine ⟨m, hcontents, hcode, m.sorted, ?_, ?_⟩
  · rw [← hcontents, entries_contents]
  · intro key
    rw [code_get, ← hcontents, lookup_contents]

end FlatMap

/-! ## Sets -/

namespace FlatSet

variable {T : Type} [LinearOrder T]

inductive Op (T : Type) where
  | insert (value : T)
  | remove (value : T)
  | extend (values : List T)
  | clear

namespace Code

def insert (entries : List (T × Unit)) (value : T) : Checked (Bool × List (T × Unit)) := do
  let (old, entries) ← FlatMap.Code.insert entries value ()
  return (old.isNone, entries)

def remove (entries : List (T × Unit)) (value : T) : Checked (Bool × List (T × Unit)) := do
  let (old, entries) ← FlatMap.Code.remove entries value
  return (old.isSome, entries)

def extend (entries : List (T × Unit)) (values : List T) : Checked (List (T × Unit)) :=
  values.foldlM (fun entries value => Prod.snd <$> insert entries value) entries

def apply (entries : List (T × Unit)) : Op T → Checked (Option Bool × List (T × Unit))
  | .insert value => do
    let (new, entries) ← insert entries value
    return (some new, entries)
  | .remove value => do
    let (removed, entries) ← remove entries value
    return (some removed, entries)
  | .extend values => do
    let entries ← extend entries values
    return (none, entries)
  | .clear => .ok (none, [])

def run : List (Op T) → List (T × Unit) → Checked (List (Option Bool) × List (T × Unit))
  | [], entries => .ok ([], entries)
  | op :: ops, entries => do
    let (ret, entries) ← apply entries op
    let (rets, entries) ← run ops entries
    return (ret :: rets, entries)

end Code

namespace Spec

def apply (s : Finset T) : Op T → Option Bool × Finset T
  | .insert value => (some (value ∉ s), Insert.insert value s)
  | .remove value => (some (value ∈ s), s.erase value)
  | .extend values => (none, s ∪ values.toFinset)
  | .clear => (none, ∅)

def run : List (Op T) → Finset T → List (Option Bool) × Finset T
  | [], s => ([], s)
  | op :: ops, s =>
    let (ret, s) := apply s op
    let (rets, s) := run ops s
    (ret :: rets, s)

end Spec

/-- The elements of a set, which are the keys of its map. -/
def elements (m : FlatMap T Unit) : Finset T := m.keys.toFinset

theorem mem_elements {m : FlatMap T Unit} {value : T} :
    value ∈ elements m ↔ (m.get value).isSome = true :=
  List.mem_toFinset.trans FlatMap.mem_keys

theorem elements_insert (m : FlatMap T Unit) (value : T) :
    elements (m.insert value ()) = Insert.insert value (elements m) := by
  ext other
  rw [mem_elements, FlatMap.get_insert, Finset.mem_insert, mem_elements]
  split
  next h => simp [h]
  next h => simp [h]

theorem elements_remove (m : FlatMap T Unit) (value : T) :
    elements (m.remove value) = (elements m).erase value := by
  ext other
  rw [mem_elements, FlatMap.get_remove, Finset.mem_erase, mem_elements]
  split
  next h => simp [h]
  next h => simp [h]

theorem code_insert (m : FlatMap T Unit) (value : T) :
    Code.insert m.entries value =
      .ok (decide (value ∉ elements m), (m.insert value ()).entries) := by
  have hnew : (m.get value).isNone = decide (value ∉ elements m) := by
    rw [Bool.eq_iff_iff, decide_eq_true_iff, mem_elements]
    simp
  simp only [Code.insert, FlatMap.code_insert, Checked.ok_bind, Checked.pure_eq_ok, hnew]

theorem code_remove (m : FlatMap T Unit) (value : T) :
    Code.remove m.entries value =
      .ok (decide (value ∈ elements m), (m.remove value).entries) := by
  have hold : (m.get value).isSome = decide (value ∈ elements m) := by
    rw [Bool.eq_iff_iff, decide_eq_true_iff, mem_elements]
  simp only [Code.remove, FlatMap.code_remove, Checked.ok_bind, Checked.pure_eq_ok, hold]

theorem code_extend (values : List T) (m : FlatMap T Unit) :
    ∃ m' : FlatMap T Unit, Code.extend m.entries values = .ok m'.entries ∧
      elements m' = elements m ∪ values.toFinset := by
  induction values generalizing m with
  | nil => exact ⟨m, rfl, (Finset.union_empty _).symm⟩
  | cons value values ih =>
    obtain ⟨m', hcode, helements⟩ := ih (m.insert value ())
    have hstep : Prod.snd <$> Code.insert m.entries value =
        .ok (m.insert value ()).entries := by
      rw [code_insert]
      rfl
    refine ⟨m', ?_, ?_⟩
    · rw [Code.extend, List.foldlM_cons, hstep, Checked.ok_bind]
      exact hcode
    · rw [helements, elements_insert, List.toFinset_cons, Finset.insert_union,
        Finset.union_insert]

theorem apply_refines (m : FlatMap T Unit) (op : Op T) :
    ∃ m' : FlatMap T Unit,
      Code.apply m.entries op = .ok ((Spec.apply (elements m) op).1, m'.entries) ∧
      elements m' = (Spec.apply (elements m) op).2 := by
  cases op with
  | insert value =>
    refine ⟨m.insert value (), ?_, elements_insert m value⟩
    simp only [Code.apply, code_insert, Checked.ok_bind, Checked.pure_eq_ok, Spec.apply]
  | remove value =>
    refine ⟨m.remove value, ?_, elements_remove m value⟩
    simp only [Code.apply, code_remove, Checked.ok_bind, Checked.pure_eq_ok, Spec.apply]
  | extend values =>
    obtain ⟨m', hcode, helements⟩ := code_extend values m
    refine ⟨m', ?_, helements⟩
    simp only [Code.apply, hcode, Checked.ok_bind, Checked.pure_eq_ok, Spec.apply]
  | clear => exact ⟨FlatMap.new, rfl, rfl⟩

theorem run_refines (ops : List (Op T)) (m : FlatMap T Unit) :
    ∃ m' : FlatMap T Unit,
      Code.run ops m.entries = .ok ((Spec.run ops (elements m)).1, m'.entries) ∧
      elements m' = (Spec.run ops (elements m)).2 := by
  induction ops generalizing m with
  | nil => exact ⟨m, rfl, rfl⟩
  | cons op ops ih =>
    obtain ⟨m₁, hcode, helements⟩ := apply_refines m op
    obtain ⟨m', hrest, helements'⟩ := ih m₁
    rw [helements] at hrest helements'
    refine ⟨m', ?_, helements'⟩
    simp only [Code.run, hcode, Checked.ok_bind, hrest, Checked.pure_eq_ok, Spec.run]

/-- What a run of the code comes to, with the elements in the order of iteration. -/
structure Outcome (code : Checked (List (Option Bool) × List (T × Unit)))
    (spec : List (Option Bool) × Finset T) (entries : List (T × Unit)) : Prop where
  returns : code = .ok (spec.1, entries)
  sorted : KeySorted entries
  iterates : entries.map Prod.fst = spec.2.sort (· ≤ ·)

theorem run_outcome (ops : List (Op T)) :
    ∃ m : FlatMap T Unit, elements m = (Spec.run ops ∅).2 ∧
      Outcome (Code.run ops []) (Spec.run ops ∅) m.entries := by
  obtain ⟨m, hcode, helements⟩ := run_refines ops FlatMap.new
  refine ⟨m, helements, hcode, m.sorted, ?_⟩
  have hkeys : m.keys.Pairwise (· < ·) := List.pairwise_map.mpr m.sorted
  apply hkeys.eq_of_mem_iff (Finset.sortedLT_sort _).pairwise
  intro value
  rw [Finset.mem_sort]
  exact List.mem_toFinset.symm.trans (Finset.ext_iff.mp helements value)

theorem code_eq_iff (m m' : FlatMap T Unit) :
    FlatMap.Code.eq m.entries m'.entries = true ↔ elements m = elements m' := by
  rw [FlatMap.code_eq_iff, Finset.ext_iff]
  apply forall_congr'
  intro value
  rw [mem_elements, mem_elements]
  cases m.get value <;> cases m'.get value <;> simp

end FlatSet

/-! ## The result -/

/-- Two runs of operations on maps, and two on sets, each with what the same operations come to
on a finite map or set.  The vectors that they leave are equal exactly if the contents are. -/
theorem flat_map_refines {σ σ' K V T : Type} [LinearOrder K] [LinearOrder T] [BEq V]
    (ops : List (FlatMap.Op σ K V)) (env : σ) (ops' : List (FlatMap.Op σ' K V)) (env' : σ')
    (setOps setOps' : List (FlatSet.Op T)) :
    (∃ entries entries', FlatMap.Outcome (FlatMap.Code.run ops env []) (FlatMap.Spec.run ops env ∅)
        entries ∧
      FlatMap.Outcome (FlatMap.Code.run ops' env' []) (FlatMap.Spec.run ops' env' ∅) entries' ∧
      (FlatMap.Code.eq entries entries' = true ↔
        ∀ key, Option.Rel (fun v v' => (v == v') = true)
          ((FlatMap.Spec.run ops env ∅).2.2.lookup key)
          ((FlatMap.Spec.run ops' env' ∅).2.2.lookup key))) ∧
    ∃ entries entries', FlatSet.Outcome (FlatSet.Code.run setOps []) (FlatSet.Spec.run setOps ∅)
        entries ∧
      FlatSet.Outcome (FlatSet.Code.run setOps' []) (FlatSet.Spec.run setOps' ∅) entries' ∧
      (FlatMap.Code.eq entries entries' = true ↔
        (FlatSet.Spec.run setOps ∅).2 = (FlatSet.Spec.run setOps' ∅).2) := by
  constructor
  · obtain ⟨m, hcontents, houtcome⟩ := FlatMap.run_outcome ops env
    obtain ⟨m', hcontents', houtcome'⟩ := FlatMap.run_outcome ops' env'
    refine ⟨m.entries, m'.entries, houtcome, houtcome', ?_⟩
    rw [← hcontents, ← hcontents', FlatMap.code_eq_iff]
    simp only [FlatMap.lookup_contents]
  · obtain ⟨m, helements, houtcome⟩ := FlatSet.run_outcome setOps
    obtain ⟨m', helements', houtcome'⟩ := FlatSet.run_outcome setOps'
    refine ⟨m.entries, m'.entries, houtcome, houtcome', ?_⟩
    rw [← helements, ← helements', FlatSet.code_eq_iff]

end Ziggurat
