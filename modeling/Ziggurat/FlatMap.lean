import Ziggurat.Lib.KeyedList

/-!
# The sorted-vector map of `flat_map.rs`

`FlatMap` keeps its entries in a vector in strictly increasing key order and
finds a key by binary search.  The order is a field of the structure, so every
operation below carries the proof that it keeps it.

`indexOf` is `binary_search_by` on a strictly sorted vector: the index of the
key if it is present, and otherwise the index where its entry belongs.  Both
are the number of entries with a smaller key.

A reference handed out by `get_mut` is written back with `set`, and a pass of
`iter_mut` over the values is `mapVal`.

`get` is the view that the tables built on this map reason with:
`get_insert`, `get_remove` and `get_mapVal` say what each operation does to
every key, `mem_entries` ties iteration to lookup, and `ext_get` says that the
lookups determine the map.
-/

namespace Ziggurat

open Lib.KeyedList

/-- A map as a vector of entries in strictly increasing key order. -/
structure FlatMap (K V : Type) [LinearOrder K] where
  entries : List (K × V)
  sorted : KeySorted entries

namespace FlatMap

variable {K V : Type} [LinearOrder K]

/-! ## The operations -/

/-- `FlatMap::new`. -/
def new : FlatMap K V := ⟨[], keySorted_nil⟩

/-- The binary search of `index_of`: `ok` with the index of the key, or
`error` with the index where it belongs. -/
def indexOf (entries : List (K × V)) (key : K) : Except Nat Nat :=
  let i := (entries.takeWhile (fun e => decide (e.1 < key))).length
  if (entries[i]?).map Prod.fst = some key then .ok i else .error i

private theorem takeWhile_split {lo rest : List (K × V)} {key : K}
    (hlo : ∀ e ∈ lo, e.1 < key) (hrest : ∀ e ∈ rest.head?, ¬ e.1 < key) :
    (lo ++ rest).takeWhile (fun e => decide (e.1 < key)) = lo := by
  rw [List.takeWhile_append_of_pos (fun e he => by simpa using hlo e he)]
  cases rest with
  | nil => simp
  | cons e rest =>
    have he : ¬ e.1 < key := hrest e (by simp)
    simp [he]

/-- The search finds a present key at its place. -/
theorem indexOf_present {lo hi : List (K × V)} {key : K} {value : V}
    (hlo : ∀ e ∈ lo, e.1 < key) :
    indexOf (lo ++ (key, value) :: hi) key = .ok lo.length := by
  unfold indexOf
  rw [takeWhile_split hlo (by simp)]
  simp

/-- The search returns the place of an absent key. -/
theorem indexOf_absent {lo hi : List (K × V)} {key : K}
    (hlo : ∀ e ∈ lo, e.1 < key) (hhi : ∀ e ∈ hi, key < e.1) :
    indexOf (lo ++ hi) key = .error lo.length := by
  unfold indexOf
  rw [takeWhile_split hlo (fun e he => lt_asymm (hhi e (List.mem_of_mem_head? he)))]
  cases hi with
  | nil => simp
  | cons e hi =>
    have hne : e.1 ≠ key := (hhi e (by simp)).ne'
    simp [hne]

/-- `FlatMap::get`. -/
def get (m : FlatMap K V) (key : K) : Option V :=
  match indexOf m.entries key with
  | .ok i => (m.entries[i]?).map Prod.snd
  | .error _ => none

/-- `FlatMap::contains_key`. -/
def containsKey (m : FlatMap K V) (key : K) : Bool :=
  match indexOf m.entries key with
  | .ok _ => true
  | .error _ => false

/-- The entries after `insert`: replaced in place or inserted at the index
the search returned. -/
def insertEntries (entries : List (K × V)) (key : K) (value : V) : List (K × V) :=
  match indexOf entries key with
  | .ok i => entries.set i (key, value)
  | .error i => entries.insertIdx i (key, value)

/-- The entries after `remove`. -/
def removeEntries (entries : List (K × V)) (key : K) : List (K × V) :=
  match indexOf entries key with
  | .ok i => entries.eraseIdx i
  | .error _ => entries

theorem insertEntries_present {lo hi : List (K × V)} {key : K} {old value : V}
    (hlo : ∀ e ∈ lo, e.1 < key) :
    insertEntries (lo ++ (key, old) :: hi) key value = lo ++ (key, value) :: hi := by
  unfold insertEntries
  rw [indexOf_present hlo]
  simp

theorem insertEntries_absent {lo hi : List (K × V)} {key : K} {value : V}
    (hlo : ∀ e ∈ lo, e.1 < key) (hhi : ∀ e ∈ hi, key < e.1) :
    insertEntries (lo ++ hi) key value = lo ++ (key, value) :: hi := by
  unfold insertEntries
  rw [indexOf_absent hlo hhi]
  exact insertIdx_length_append lo hi (key, value)

theorem removeEntries_present {lo hi : List (K × V)} {key : K} {old : V}
    (hlo : ∀ e ∈ lo, e.1 < key) :
    removeEntries (lo ++ (key, old) :: hi) key = lo ++ hi := by
  unfold removeEntries
  rw [indexOf_present hlo]
  simp [List.eraseIdx_append_of_length_le]

theorem removeEntries_absent {lo hi : List (K × V)} {key : K}
    (hlo : ∀ e ∈ lo, e.1 < key) (hhi : ∀ e ∈ hi, key < e.1) :
    removeEntries (lo ++ hi) key = lo ++ hi := by
  unfold removeEntries
  rw [indexOf_absent hlo hhi]

/-- The entries stay in key order under `insert`. -/
theorem keySorted_insertEntries {entries : List (K × V)} (h : KeySorted entries)
    (key : K) (value : V) : KeySorted (insertEntries entries key value) := by
  rcases exists_split h key with ⟨lo, old, hi, rfl, hlo, hhi⟩ | ⟨lo, hi, rfl, hlo, hhi⟩
  · rw [insertEntries_present hlo]
    exact keySorted_insert (keySorted_erase h) hlo hhi
  · rw [insertEntries_absent hlo hhi]
    exact keySorted_insert h hlo hhi

/-- The entries stay in key order under `remove`. -/
theorem keySorted_removeEntries {entries : List (K × V)} (h : KeySorted entries)
    (key : K) : KeySorted (removeEntries entries key) := by
  rcases exists_split h key with ⟨lo, old, hi, rfl, hlo, hhi⟩ | ⟨lo, hi, rfl, hlo, hhi⟩
  · rw [removeEntries_present hlo]
    exact keySorted_erase h
  · rw [removeEntries_absent hlo hhi]
    exact h

/-- The map after `FlatMap::insert`. -/
def insert (m : FlatMap K V) (key : K) (value : V) : FlatMap K V :=
  ⟨insertEntries m.entries key value, keySorted_insertEntries m.sorted key value⟩

/-- The map after `FlatMap::remove`, which also returns `get m key`. -/
def remove (m : FlatMap K V) (key : K) : FlatMap K V :=
  ⟨removeEntries m.entries key, keySorted_removeEntries m.sorted key⟩

/-- Write `value` back through the reference that `get_mut` handed out. -/
def set (m : FlatMap K V) (key : K) (value : V) : FlatMap K V :=
  m.insert key value

/-- A pass of `iter_mut` that rewrites every value in place. -/
def mapVal (m : FlatMap K V) (f : K → V → V) : FlatMap K V :=
  ⟨m.entries.map (fun e => (e.1, f e.1 e.2)), m.sorted.map f⟩

/-- `FlatMap::retain`, where the closure only decides. -/
def retain (m : FlatMap K V) (keep : K → V → Bool) : FlatMap K V :=
  ⟨m.entries.filter (fun e => keep e.1 e.2), m.sorted.filter _⟩

/-- The map after `FlatMap::pop_first`. -/
def popFirst (m : FlatMap K V) : FlatMap K V :=
  ⟨m.entries.drop 1, m.sorted.drop 1⟩

/-- The first entry in key order whose value satisfies `p`. -/
def findValue (m : FlatMap K V) (p : V → Bool) : Option (K × V) :=
  m.entries.find? (fun e => p e.2)

/-- `values_mut().find(p)`, with `f` written through the reference. -/
def modifyFirst (m : FlatMap K V) (p : V → Bool) (f : V → V) : FlatMap K V :=
  match m.findValue p with
  | some (key, value) => m.set key (f value)
  | none => m

/-- `FlatMap::keys`. -/
def keys (m : FlatMap K V) : List K := m.entries.map Prod.fst

/-- `FlatMap::values`. -/
def values (m : FlatMap K V) : List V := m.entries.map Prod.snd

/-! ## Lookup -/

/-- Iteration visits exactly the pairs that lookup answers. -/
theorem mem_entries {m : FlatMap K V} {key : K} {value : V} :
    (key, value) ∈ m.entries ↔ m.get key = some value := by
  obtain ⟨entries, sorted⟩ := m
  simp only [get]
  rcases exists_split sorted key with ⟨lo, v, hi, rfl, hlo, hhi⟩ | ⟨lo, hi, rfl, hlo, hhi⟩
  · rw [indexOf_present hlo]
    constructor
    · intro h
      have hv : v = value := sorted.value_unique (by simp) h
      simp [hv]
    · intro h
      have hv : v = value := by simpa using h
      simp [hv]
  · rw [indexOf_absent hlo hhi]
    constructor
    · intro h
      rcases List.mem_append.mp h with h | h
      · exact absurd (hlo _ h) (lt_irrefl _)
      · exact absurd (hhi _ h) (lt_irrefl _)
    · intro h
      simp at h

theorem containsKey_eq_isSome (m : FlatMap K V) (key : K) :
    m.containsKey key = (m.get key).isSome := by
  obtain ⟨entries, sorted⟩ := m
  simp only [containsKey, get]
  rcases exists_split sorted key with ⟨lo, v, hi, rfl, hlo, hhi⟩ | ⟨lo, hi, rfl, hlo, hhi⟩
  · rw [indexOf_present hlo]; simp
  · rw [indexOf_absent hlo hhi]; simp

theorem mem_keys {m : FlatMap K V} {key : K} :
    key ∈ m.keys ↔ (m.get key).isSome = true := by
  unfold keys
  rw [Option.isSome_iff_exists]
  constructor
  · intro h
    obtain ⟨e, he, rfl⟩ := List.mem_map.mp h
    exact ⟨e.2, mem_entries.mp he⟩
  · rintro ⟨value, h⟩
    exact List.mem_map.mpr ⟨(key, value), mem_entries.mpr h, rfl⟩

theorem mem_values {m : FlatMap K V} {value : V} :
    value ∈ m.values ↔ ∃ key, m.get key = some value := by
  unfold values
  constructor
  · intro h
    obtain ⟨e, he, rfl⟩ := List.mem_map.mp h
    exact ⟨e.1, mem_entries.mp he⟩
  · rintro ⟨key, h⟩
    exact List.mem_map.mpr ⟨(key, value), mem_entries.mpr h, rfl⟩

theorem nodup_keys (m : FlatMap K V) : m.keys.Nodup :=
  m.sorted.nodup_keys

/-- The lookups determine the map. -/
theorem ext_get {m m' : FlatMap K V} (h : ∀ key, m.get key = m'.get key) : m = m' := by
  obtain ⟨entries, sorted⟩ := m
  obtain ⟨entries', sorted'⟩ := m'
  have hentries : entries = entries' := by
    refine sorted.ext sorted' (fun e => ?_)
    have h1 := @mem_entries K V _ ⟨entries, sorted⟩ e.1 e.2
    have h2 := @mem_entries K V _ ⟨entries', sorted'⟩ e.1 e.2
    rw [h e.1] at h1
    exact h1.trans h2.symm
  subst hentries
  rfl

@[simp] theorem get_new (key : K) : (new : FlatMap K V).get key = none := rfl

/-- No entry below the key or above it has the key. -/
private theorem notMem_split {lo hi : List (K × V)} {key : K} (hlo : ∀ e ∈ lo, e.1 < key)
    (hhi : ∀ e ∈ hi, key < e.1) (value : V) : (key, value) ∉ lo ∧ (key, value) ∉ hi :=
  ⟨fun h => lt_irrefl _ (hlo _ h), fun h => lt_irrefl _ (hhi _ h)⟩

private theorem mem_insert {m : FlatMap K V} {key key' : K} {value value' : V} :
    (key', value') ∈ (m.insert key value).entries ↔
      if key' = key then value = value' else (key', value') ∈ m.entries := by
  obtain ⟨entries, sorted⟩ := m
  simp only [insert]
  rcases exists_split sorted key with ⟨lo, v, hi, rfl, hlo, hhi⟩ | ⟨lo, hi, rfl, hlo, hhi⟩
  · rw [insertEntries_present hlo]
    split_ifs with hk
    · subst hk
      obtain ⟨h1, h2⟩ := notMem_split hlo hhi value'
      simp [h1, h2, eq_comm]
    · simp [hk]
  · rw [insertEntries_absent hlo hhi]
    split_ifs with hk
    · subst hk
      obtain ⟨h1, h2⟩ := notMem_split hlo hhi value'
      simp [h1, h2, eq_comm]
    · simp [hk]

private theorem mem_remove {m : FlatMap K V} {key key' : K} {value' : V} :
    (key', value') ∈ (m.remove key).entries ↔
      key' ≠ key ∧ (key', value') ∈ m.entries := by
  obtain ⟨entries, sorted⟩ := m
  simp only [remove]
  rcases exists_split sorted key with ⟨lo, v, hi, rfl, hlo, hhi⟩ | ⟨lo, hi, rfl, hlo, hhi⟩
  · rw [removeEntries_present hlo]
    by_cases hk : key' = key
    · subst hk
      obtain ⟨h1, h2⟩ := notMem_split hlo hhi value'
      simp [h1, h2]
    · simp [hk]
  · rw [removeEntries_absent hlo hhi]
    by_cases hk : key' = key
    · subst hk
      obtain ⟨h1, h2⟩ := notMem_split hlo hhi value'
      simp [h1, h2]
    · simp [hk]

/-- Two lookups agree when the same values answer both. -/
private theorem get_eq_of_mem {o o' : Option V}
    (h : ∀ value, o = some value ↔ o' = some value) : o = o' :=
  Option.ext h

@[simp] theorem get_insert (m : FlatMap K V) (key key' : K) (value : V) :
    (m.insert key value).get key' = if key' = key then some value else m.get key' := by
  refine get_eq_of_mem (fun value' => ?_)
  rw [← mem_entries, mem_insert]
  split_ifs
  · simp
  · exact mem_entries

@[simp] theorem get_set (m : FlatMap K V) (key key' : K) (value : V) :
    (m.set key value).get key' = if key' = key then some value else m.get key' :=
  get_insert m key key' value

@[simp] theorem get_remove (m : FlatMap K V) (key key' : K) :
    (m.remove key).get key' = if key' = key then none else m.get key' := by
  refine get_eq_of_mem (fun value' => ?_)
  rw [← mem_entries, mem_remove]
  split_ifs with hk
  · simp [hk]
  · simp [hk, mem_entries]

@[simp] theorem get_mapVal (m : FlatMap K V) (f : K → V → V) (key : K) :
    (m.mapVal f).get key = (m.get key).map (f key) := by
  refine get_eq_of_mem (fun value' => ?_)
  rw [← mem_entries]
  simp only [mapVal, List.mem_map, Prod.mk.injEq, Prod.exists, Option.map_eq_some_iff]
  constructor
  · rintro ⟨k, v, hmem, rfl, rfl⟩
    exact ⟨v, mem_entries.mp hmem, rfl⟩
  · rintro ⟨v, hget, rfl⟩
    exact ⟨key, v, mem_entries.mpr hget, rfl, rfl⟩

@[simp] theorem get_retain (m : FlatMap K V) (keep : K → V → Bool) (key : K) :
    (m.retain keep).get key = (m.get key).filter (keep key) := by
  refine get_eq_of_mem (fun value => ?_)
  rw [← mem_entries, Option.filter_eq_some_iff]
  simp only [retain, List.mem_filter, mem_entries]

theorem get_of_findValue {m : FlatMap K V} {p : V → Bool} {key : K} {value : V}
    (h : m.findValue p = some (key, value)) : m.get key = some value ∧ p value = true := by
  have hfound := List.find?_some h
  exact ⟨mem_entries.mp (List.mem_of_find?_eq_some h), hfound⟩

theorem findValue_eq_none {m : FlatMap K V} {p : V → Bool} :
    m.findValue p = none ↔ ∀ key value, m.get key = some value → p value = false := by
  unfold findValue
  rw [List.find?_eq_none]
  constructor
  · intro h key value hget
    exact Bool.eq_false_iff.mpr (h (key, value) (mem_entries.mpr hget))
  · rintro h ⟨key, value⟩ hmem
    exact Bool.eq_false_iff.mp (h key value (mem_entries.mp hmem))

/-- A loop of removals. -/
theorem get_foldl_remove (m : FlatMap K V) (keys : List K) (key : K) :
    (keys.foldl (fun m key => m.remove key) m).get key =
      if key ∈ keys then none else m.get key := by
  induction keys generalizing m with
  | nil => simp
  | cons k keys ih =>
    rw [List.foldl_cons, ih, get_remove]
    by_cases hk : key = k <;> simp [hk]

/-- A loop of removals, each under a condition on the entry. -/
theorem get_foldl_removeIf (removes : K → Option V → Bool) (m : FlatMap K V) (keys : List K)
    (key : K) :
    (keys.foldl (fun m key => if removes key (m.get key) then m.remove key else m) m).get key =
      if key ∈ keys ∧ removes key (m.get key) then none else m.get key := by
  induction keys generalizing m with
  | nil => simp
  | cons k keys ih =>
    rw [List.foldl_cons, ih]
    by_cases hk : key = k
    · subst hk
      by_cases hremoves : removes key (m.get key) <;> simp [hremoves]
    · have hkeeps : (if removes k (m.get k) then m.remove k else m).get key = m.get key := by
        split
        · rw [get_remove, if_neg hk]
        · rfl
      simp [hk, hkeeps]

/-! ### Counting -/

/-- An insertion counts its value, in the place of the one that it replaces. -/
theorem countP_values_insert (m : FlatMap K V) (key : K) (value : V) (p : V → Bool) :
    (m.insert key value).values.countP p + (if (m.get key).any p then 1 else 0) =
      m.values.countP p + (if p value then 1 else 0) := by
  have hcount (lo hi : List (K × V)) (v : V) :
      ((lo ++ (key, v) :: hi).map Prod.snd).countP p =
        ((lo ++ hi).map Prod.snd).countP p + (if p v then 1 else 0) := by
    rw [List.map_append, List.map_cons, List.countP_append, List.countP_cons, List.map_append,
      List.countP_append, Nat.add_assoc]
  obtain ⟨entries, sorted⟩ := m
  rcases exists_split sorted key with ⟨lo, v, hi, rfl, hlo, hhi⟩ | ⟨lo, hi, rfl, hlo, hhi⟩
  · have hget : (⟨lo ++ (key, v) :: hi, sorted⟩ : FlatMap K V).get key = some v :=
      mem_entries.mp (List.mem_append_right lo List.mem_cons_self)
    rw [hget, Option.any_some]
    unfold insert values
    dsimp only
    rw [insertEntries_present hlo, hcount, hcount]
    omega
  · have hget : (⟨lo ++ hi, sorted⟩ : FlatMap K V).get key = none := by
      unfold get
      dsimp only
      rw [indexOf_absent hlo hhi]
    rw [hget, Option.any_none]
    unfold insert values
    dsimp only
    rw [insertEntries_absent hlo hhi, hcount]
    rfl

/-! ### Walks that answer some of the entries -/

/-- The keys whose value `f` answers, with the answers, in key order. -/
def answers {X : Type} (m : FlatMap K V) (f : V → Option X) : List (K × X) :=
  m.entries.filterMap fun e => (f e.2).map fun x => (e.1, x)

theorem mem_answers {X : Type} {m : FlatMap K V} {f : V → Option X} {key : K} {x : X} :
    (key, x) ∈ m.answers f ↔ (m.get key).bind f = some x := by
  simp only [answers, List.mem_filterMap, Option.map_eq_some_iff, Option.bind_eq_some_iff,
    Prod.exists, Prod.mk.injEq, mem_entries]
  constructor
  · rintro ⟨k, v, hv, x', hx, rfl, rfl⟩
    exact ⟨v, hv, hx⟩
  · rintro ⟨v, hv, hx⟩
    exact ⟨key, v, hv, x, hx, rfl, rfl⟩

theorem nodup_answers {X : Type} (m : FlatMap K V) (f : V → Option X) :
    ((m.answers f).map Prod.fst).Nodup := by
  have hkeys : (m.answers f).map Prod.fst =
      (m.entries.filter fun e => (f e.2).isSome).map Prod.fst := by
    unfold answers
    induction m.entries with
    | nil => rfl
    | cons e rest ih => cases h : f e.2 <;> simp [h, ih]
  rw [hkeys]
  exact (List.filter_sublist.map Prod.fst).nodup m.nodup_keys

end FlatMap

end Ziggurat
