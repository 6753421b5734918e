import Ziggurat.Lib.ExactCodec

/-!
# Codecs with reserved fields

A codec reads a structure off the front of some bits, and skips its reserved fields whatever they
are.  A write makes them zero.  So what is written for a value that was read is what it was read
from, except for the reserved fields.

`Took` says this of one read: how many bits it took, and which fields of them are reserved.  A
codec that takes the same number of bits at every read has a `Shape`, and the shape of a
structure follows from those of its fields.  For a field that depends on another one, such as a
list behind its length, the rules of `Took` go on from the value that was read.

`Took.writeBytes` is the form on bytes: a buffer is written back as it was just if there is
nothing behind the structure and its reserved fields are zero.
-/

namespace Ziggurat.Lib.BitCodec

/-! ## Fields -/

/-- The value of the field of `width` bits at `offset`. -/
def field (bits : List Bool) (offset width : Nat) : Nat := bitsNat ((bits.drop offset).take width)

theorem field_drop (bits : List Bool) (k offset width : Nat) :
    field (bits.drop k) offset width = field bits (k + offset) width := by
  rw [field, field, List.drop_drop]

theorem bitsNat_eq_zero {bits : List Bool} :
    bitsNat bits = 0 ↔ bits = List.replicate bits.length false := by
  induction bits with
  | nil => simp [bitsNat]
  | cons b bits ih =>
    rw [bitsNat, List.length_cons, List.replicate_succ, List.cons.injEq, ← ih]
    cases b <;> simp

/-- The fields are zero.  A field is its offset and its width. -/
def Clear (bits : List Bool) (fields : List (Nat × Nat)) : Prop :=
  ∀ f ∈ fields, field bits f.1 f.2 = 0

/-- The same fields of a structure that begins at bit `k`. -/
def shift (k : Nat) (fields : List (Nat × Nat)) : List (Nat × Nat) :=
  fields.map fun f => (k + f.1, f.2)

theorem clear_nil (bits : List Bool) : Clear bits [] := fun _ h => absurd h List.not_mem_nil

theorem clear_append {bits : List Bool} {fields fields' : List (Nat × Nat)} :
    Clear bits (fields ++ fields') ↔ Clear bits fields ∧ Clear bits fields' :=
  List.forall_mem_append

theorem clear_shift {bits : List Bool} {k : Nat} {fields : List (Nat × Nat)} :
    Clear bits (shift k fields) ↔ Clear (bits.drop k) fields := by
  unfold Clear shift
  rw [List.forall_mem_map]
  simp only [field_drop]

/-- The fields of `n` structures of `k` bits in a row. -/
def repeated (k : Nat) (fields : List (Nat × Nat)) : Nat → List (Nat × Nat)
  | 0 => []
  | n + 1 => fields ++ shift k (repeated k fields n)

@[simp] theorem repeated_nil (k n : Nat) : repeated k [] n = [] := by
  induction n with
  | zero => rfl
  | succ n ih => rw [repeated, ih]; rfl

namespace Codec

variable {α β γ κ : Type}

/-! ## What a read took -/

/-- A read of `a` took `k` bits, and skipped the reserved fields among them. -/
structure Took (c : Codec α) (bits : List Bool) (a : α) (rest : List Bool) (k : Nat)
    (gaps : List (Nat × Nat)) : Prop where
  room : k ≤ bits.length
  rest_eq : rest = bits.drop k
  written : ∃ w, c.write a = some w ∧ w.length = k ∧ (w = bits.take k ↔ Clear bits gaps)

/-- Every read takes `k` bits with the same reserved fields. -/
def Shape (c : Codec α) (k : Nat) (gaps : List (Nat × Nat)) : Prop :=
  ∀ ⦃bits a rest⦄, c.read bits = .ok (a, rest) → c.Took bits a rest k gaps

variable {c : Codec α} {d : Codec β} {k m : Nat} {gaps gaps' : List (Nat × Nat)}
  {bits mid rest : List Bool}

theorem Exact.shape (hexact : Exact c) (hfixed : Fixed c k) : c.Shape k [] := by
  intro bits a rest h
  obtain ⟨w, hw, rfl⟩ := hexact h
  obtain ⟨w', hw', rfl⟩ := hfixed a
  cases hw.symm.trans hw'
  refine ⟨by rw [List.length_append]; omega, (List.drop_left' rfl).symm, w, hw, rfl, ?_⟩
  rw [List.take_left' rfl]
  exact iff_of_true rfl (clear_nil _)

theorem shape_uint (n : Nat) : (uint n).Shape n [] := (exact_uint n).shape (fixed_uint n)

theorem shape_bool : bool.Shape 1 [] := exact_bool.shape fixed_bool

theorem shape_enum {n : Nat} (e : Enum n α) : (enum e).Shape n [] :=
  (exact_enum e).shape (fixed_enum e)

theorem shape_reserved (n : Nat) : (reserved n).Shape n [(0, n)] := by
  intro bits a rest h
  change (if n ≤ bits.length then _ else _) = _ at h
  split at h
  next hn =>
    cases h
    refine ⟨hn, rfl, _, rfl, List.length_replicate, ?_⟩
    have hlength : (bits.take n).length = n := List.length_take_of_le hn
    have hzero : bitsNat (bits.take n) = 0 ↔ bits.take n = List.replicate n false := by
      rw [bitsNat_eq_zero, hlength]
    unfold Clear field
    simp only [List.mem_singleton, forall_eq, List.drop_zero]
    rw [hzero, eq_comm]
  next => cases h

/-- Fields of no width are not reserved. -/
theorem Took.of_clear_iff {a : α} (h : c.Took bits a rest k gaps)
    (hclear : Clear bits gaps ↔ Clear bits gaps') : c.Took bits a rest k gaps' := by
  obtain ⟨w, hw, hlength, hsame⟩ := h.written
  exact ⟨h.room, h.rest_eq, w, hw, hlength, hsame.trans hclear⟩

theorem Took.imap {a : α} (h : c.Took bits a rest k gaps) {f : α → β} {g : β → α}
    {fg : ∀ b, f (g b) = b} {gf : ∀ a, g (f a) = a} :
    (c.imap f g fg gf).Took bits (f a) rest k gaps := by
  obtain ⟨w, hw, hlength, hsame⟩ := h.written
  refine ⟨h.room, h.rest_eq, w, ?_, hlength, hsame⟩
  change c.write (g (f a)) = some w
  rw [gf, hw]

theorem read_imap {f : α → β} {g : β → α} {fg : ∀ b, f (g b) = b} {gf : ∀ a, g (f a) = a} {b : β}
    (h : (c.imap f g fg gf).read bits = .ok (b, rest)) :
    ∃ a, c.read bits = .ok (a, rest) ∧ b = f a := by
  obtain ⟨⟨a, rest'⟩, ha, h⟩ := bind_eq_ok.mp h
  cases h
  exact ⟨a, ha, rfl⟩

theorem Shape.imap (h : c.Shape k gaps) {f : α → β} {g : β → α}
    {fg : ∀ b, f (g b) = b} {gf : ∀ a, g (f a) = a} : (c.imap f g fg gf).Shape k gaps := by
  intro bits b rest hread
  obtain ⟨a, ha, rfl⟩ := read_imap hread
  exact (h ha).imap

/-- Two reads in a row, by whatever codec writes what the two codecs write. -/
theorem Took.append {a : α} {b : β} {e : Codec γ} {x : γ} (ha : c.Took bits a mid k gaps)
    (hb : d.Took mid b rest m gaps')
    (hwrite : ∀ {w w'}, c.write a = some w → d.write b = some w' → e.write x = some (w ++ w')) :
    e.Took bits x rest (k + m) (gaps ++ shift k gaps') := by
  obtain ⟨w, hw, hwlength, hsame⟩ := ha.written
  obtain ⟨w', hw', hwlength', hsame'⟩ := hb.written
  have hroom := ha.room
  have hroom' := hb.room
  obtain rfl := ha.rest_eq
  rw [List.length_drop] at hroom'
  refine ⟨by omega, ?_, w ++ w', hwrite hw hw', by rw [List.length_append, hwlength, hwlength'], ?_⟩
  · rw [hb.rest_eq, List.drop_drop]
  · rw [clear_append, clear_shift, ← hsame, ← hsame', List.take_add]
    constructor
    · intro h
      have hlength : w.length = (bits.take k).length := by
        rw [hwlength, List.length_take_of_le hroom]
      exact List.append_inj h hlength
    · rintro ⟨rfl, rfl⟩
      rfl

theorem Took.pair {a : α} {b : β} (ha : c.Took bits a mid k gaps)
    (hb : d.Took mid b rest m gaps') :
    (c.pair d).Took bits (a, b) rest (k + m) (gaps ++ shift k gaps') :=
  ha.append hb fun hw hw' => by simp [Codec.pair, hw, hw']

theorem Shape.pair (hc : c.Shape k gaps) (hd : d.Shape m gaps') :
    (c.pair d).Shape (k + m) (gaps ++ shift k gaps') := by
  intro bits p rest h
  obtain ⟨mid, ha, hb⟩ := read_pair h
  exact (hc ha).pair (hd hb)

/-! ## Fields that depend on others -/

section

variable {c : Codec (κ × β)} {key : γ → Option κ} {d : κ → Codec γ}
  (key_read : ∀ {k bits x rest}, (d k).read bits = .ok (x, rest) → key x = some k)

/-- The key that was read, and the reads with it. -/
theorem read_keyed {b : β} {x : γ}
    (h : (c.keyed key d key_read).read bits = .ok ((b, x), rest)) :
    ∃ selected mid, c.read bits = .ok ((selected, b), mid) ∧
      (d selected).read mid = .ok (x, rest) := by
  obtain ⟨⟨⟨selected, b'⟩, mid⟩, hb, h⟩ := bind_eq_ok.mp h
  obtain ⟨⟨x', rest'⟩, hx, h⟩ := bind_eq_ok.mp h
  cases h
  exact ⟨selected, mid, hb, hx⟩

/-- A structure whose head has a shape, and whose tail has one for each key. -/
theorem Shape.keyed {size : κ → Nat} {tail : κ → List (Nat × Nat)} (hc : c.Shape k gaps)
    (hd : ∀ selected, (d selected).Shape (size selected) (tail selected)) {b : β} {x : γ}
    (h : (c.keyed key d key_read).read bits = .ok ((b, x), rest)) :
    ∃ selected, (∃ mid, c.read bits = .ok ((selected, b), mid)) ∧
      (c.keyed key d key_read).Took bits (b, x) rest (k + size selected)
        (gaps ++ shift k (tail selected)) := by
  obtain ⟨selected, mid, hb, hx⟩ := read_keyed key_read h
  refine ⟨selected, ⟨mid, hb⟩, (hc hb).append (hd selected hx) fun hw hw' => ?_⟩
  simp [Codec.keyed, key_read hx, hw, hw']

end

theorem shape_presence (hexact : Exact c) (hfixed : Fixed c k) (has : Bool) :
    (presence has c).Shape (k * has.toNat) [] := by
  intro bits o rest h
  cases has with
  | false =>
    cases h
    refine ⟨Nat.zero_le _, rfl, [], rfl, rfl, ?_⟩
    exact iff_of_true rfl (clear_nil _)
  | true =>
    obtain ⟨⟨a, rest'⟩, ha, h⟩ := bind_eq_ok.mp h
    cases h
    have htook := hexact.shape hfixed ha
    rw [Bool.toNat_true, Nat.mul_one]
    exact ⟨htook.room, htook.rest_eq, htook.written⟩

theorem Shape.readMany (hc : c.Shape k gaps) {n : Nat} {l : List α}
    (h : readMany c n bits = .ok (l, rest)) :
    n * k ≤ bits.length ∧ rest = bits.drop (n * k) ∧
      ∃ w, writeMany c l = some w ∧ w.length = n * k ∧
        (w = bits.take (n * k) ↔ Clear bits (repeated k gaps n)) := by
  induction n generalizing bits l with
  | zero =>
    cases h
    rw [Nat.zero_mul]
    exact ⟨Nat.zero_le _, rfl, [], rfl, rfl, iff_of_true rfl (clear_nil _)⟩
  | succ n ih =>
    obtain ⟨⟨a, mid⟩, ha, h⟩ := bind_eq_ok.mp h
    obtain ⟨⟨as, rest'⟩, has, h⟩ := bind_eq_ok.mp h
    cases h
    obtain ⟨hroom, hrest, w', hw', hlength', hsame'⟩ := ih has
    have htail : (vec n c).Took mid as rest (n * k) (repeated k gaps n) :=
      ⟨hroom, hrest, w', (if_pos (length_read_vec has)).trans hw', hlength', hsame'⟩
    have htook : (vec (n + 1) c).Took bits (a :: as) rest (k + n * k)
        (gaps ++ shift k (repeated k gaps n)) := by
      refine (hc ha).append htail fun {w w'} hw hw' => ?_
      have hlength : as.length = n := length_read_vec has
      change (if as.length = n then _ else _) = _ at hw'
      rw [if_pos hlength] at hw'
      change (if (a :: as).length = n + 1 then _ else _) = _
      rw [if_pos (by rw [List.length_cons, hlength])]
      simp [writeMany, hw, hw']
    rw [Nat.succ_mul, Nat.add_comm]
    obtain ⟨w, hw, hlength, hsame⟩ := htook.written
    refine ⟨htook.room, htook.rest_eq, w, ?_, hlength, hsame⟩
    change (if (a :: as).length = n + 1 then _ else _) = _ at hw
    rwa [if_pos (by rw [List.length_cons, length_read_vec has])] at hw

theorem Shape.vec (hc : c.Shape k gaps) (n : Nat) :
    (vec n c).Shape (n * k) (repeated k gaps n) := by
  intro bits l rest h
  obtain ⟨hroom, hrest, w, hw, hlength, hsame⟩ := hc.readMany h
  exact ⟨hroom, hrest, w, (if_pos (length_read_vec h)).trans hw, hlength, hsame⟩

/-- A list behind its length. -/
theorem Shape.counted {n : Nat} {c : Codec (Fin (2 ^ n) × β)} {item : Codec α}
    (hc : c.Shape k gaps) (hitem : item.Shape m gaps') {b : β} {l : List α}
    (h : (c.counted item).read bits = .ok ((b, l), rest)) :
    ∃ count, (∃ mid, c.read bits = .ok ((count, b), mid)) ∧
      (c.counted item).Took bits (b, l) rest (k + count.val * m)
        (gaps ++ shift k (repeated m gaps' count.val)) :=
  Shape.keyed (fun {n _ _ _} hread => (length_read_vec hread).symm ▸ lengthKey_val n) hc
    (fun count => hitem.vec count.val) h

/-! ## Whole bytes -/

/-- What is written is the buffer itself just if nothing stands behind the structure and its
reserved fields are zero. -/
theorem Took.writeBytes {bytes : List UInt8} {a : α} (h : c.Took (bitsOf bytes) a rest k gaps)
    (hwhole : 8 ∣ k) :
    c.writeBytes a = some bytes ↔ 8 * bytes.length = k ∧ Clear (bitsOf bytes) gaps := by
  obtain ⟨w, hw, hlength, hsame⟩ := h.written
  rw [Codec.writeBytes, hw, Option.map_some, Option.some.injEq, ← hsame]
  constructor
  · rintro rfl
    have hfill : bytesFor w.length * 8 = w.length := by
      unfold bytesFor
      omega
    have hbits : bitsOf (pack w) = w := by
      rw [pack, bitsOf_packBytes (by omega), Nat.mul_comm, hfill, Nat.sub_self]
      exact List.append_nil w
    rw [hbits, length_pack, List.take_of_length_le hlength.le]
    exact ⟨by omega, rfl⟩
  · rintro ⟨hfills, hbits⟩
    rw [List.take_of_length_le (by rw [length_bitsOf]; omega)] at hbits
    rw [hbits, pack_bitsOf]

end Codec

end Ziggurat.Lib.BitCodec
