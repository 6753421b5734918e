import Mathlib.Tactic.Ring
import Mathlib.Data.List.Nodup

/-!
# Codecs of packed bit fields

A packed structure is a sequence of fields of a few bits each, lowest bit first,
that runs over the bytes of a buffer lowest bit first.  So a structure is a list of
bits, and a codec reads it off the front of such a list and writes it back.

`Codec` carries its two laws as fields: what is written is read back, and a read
takes as many bits as a write of its result makes.  The second one is the law a
caller with a buffer of a fixed size needs: a value that was read from a buffer fits
into one of the same size.

The combinators build the codec of a structure from those of its fields.  `uint`,
`bool`, `enum` and `reserved` are the plain fields.  `pair` puts two codecs in a row,
`imap` renames the fields, and `keyed` is the one for a field whose codec depends on
an earlier one: a list whose length was read before it, or a field whose presence is
a flag.  A write can fail, since a list can be too long for its length field.
-/

namespace Ziggurat.Lib.BitCodec

/-! ## Numbers as bits -/

-- the literals of fields of these widths
instance neZero_bit : NeZero (2 ^ 1) := ⟨by decide⟩
instance neZero_twoBits : NeZero (2 ^ 2) := ⟨by decide⟩
instance neZero_threeBits : NeZero (2 ^ 3) := ⟨by decide⟩
instance neZero_nibble : NeZero (2 ^ 4) := ⟨by decide⟩
instance neZero_byte : NeZero (2 ^ 8) := ⟨by decide⟩

/-- The number whose bits, lowest first, are the list. -/
def bitsNat : List Bool → Nat
  | [] => 0
  | b :: bits => b.toNat + 2 * bitsNat bits

/-- The `n` lowest bits of a number, lowest first. -/
def natBits : Nat → Nat → List Bool
  | 0, _ => []
  | n + 1, v => decide (v % 2 = 1) :: natBits n (v / 2)

theorem bitsNat_lt (bits : List Bool) : bitsNat bits < 2 ^ bits.length := by
  induction bits with
  | nil => simp [bitsNat]
  | cons b bits ih =>
    have hb : b.toNat ≤ 1 := Bool.toNat_le b
    rw [bitsNat, List.length_cons, pow_succ]
    omega

@[simp] theorem length_natBits (n v : Nat) : (natBits n v).length = n := by
  induction n generalizing v with
  | zero => rfl
  | succ n ih => simp [natBits, ih]

theorem bitsNat_natBits {n v : Nat} (h : v < 2 ^ n) : bitsNat (natBits n v) = v := by
  induction n generalizing v with
  | zero =>
    simp only [pow_zero, Nat.lt_one_iff] at h
    simp [natBits, bitsNat, h]
  | succ n ih =>
    rw [pow_succ] at h
    rw [natBits, bitsNat, ih (by omega)]
    rcases Nat.mod_two_eq_zero_or_one v with hv | hv <;> simp [hv] <;> omega

theorem natBits_zero (n : Nat) : natBits n 0 = List.replicate n false := by
  induction n with
  | zero => rfl
  | succ n ih => simp [natBits, ih, List.replicate_succ]

/-- The bits of a number read off a list are the list, padded with zeros. -/
theorem natBits_bitsNat {n : Nat} {bits : List Bool} (h : bits.length ≤ n) :
    natBits n (bitsNat bits) = bits ++ List.replicate (n - bits.length) false := by
  induction bits generalizing n with
  | nil => simp [bitsNat, natBits_zero]
  | cons b bits ih =>
    cases n with
    | zero => simp at h
    | succ n =>
      have hhalf : (b.toNat + 2 * bitsNat bits) / 2 = bitsNat bits := by
        cases b <;> simp [Nat.add_mul_div_left]
      have hlow : decide ((b.toNat + 2 * bitsNat bits) % 2 = 1) = b := by
        cases b <;> simp [Nat.add_mul_mod_self_left]
      rw [bitsNat, natBits, hhalf, hlow, ih (by simpa using h)]
      simp

/-! ## Bytes as bits -/

/-- The bits of a buffer. -/
def bitsOf (bytes : List UInt8) : List Bool :=
  bytes.flatMap (fun byte => natBits 8 byte.toNat)

@[simp] theorem length_bitsOf (bytes : List UInt8) : (bitsOf bytes).length = 8 * bytes.length := by
  induction bytes with
  | nil => rfl
  | cons byte bytes ih =>
    rw [bitsOf, List.flatMap_cons, List.length_append, length_natBits, ← bitsOf, ih,
      List.length_cons]
    ring

/-- The first `n` bytes that a list of bits fills, the last one padded with zeros. -/
def packBytes : Nat → List Bool → List UInt8
  | 0, _ => []
  | n + 1, bits => UInt8.ofNat (bitsNat (bits.take 8)) :: packBytes n (bits.drop 8)

/-- The number of bytes that hold `n` bits. -/
def bytesFor (n : Nat) : Nat := (n + 7) / 8

/-- The bytes that a list of bits fills. -/
def pack (bits : List Bool) : List UInt8 := packBytes (bytesFor bits.length) bits

@[simp] theorem length_packBytes (n : Nat) (bits : List Bool) : (packBytes n bits).length = n := by
  induction n generalizing bits with
  | zero => rfl
  | succ n ih => simp [packBytes, ih]

@[simp] theorem length_pack (bits : List Bool) : (pack bits).length = bytesFor bits.length :=
  length_packBytes _ _

@[simp] theorem bitsOf_append (bytes bytes' : List UInt8) :
    bitsOf (bytes ++ bytes') = bitsOf bytes ++ bitsOf bytes' :=
  List.flatMap_append

/-- Packed bits are found again, padded with zeros. -/
theorem bitsOf_packBytes {n : Nat} {bits : List Bool} (h : bits.length ≤ 8 * n) :
    bitsOf (packBytes n bits) = bits ++ List.replicate (8 * n - bits.length) false := by
  induction n generalizing bits with
  | zero =>
    obtain rfl := List.eq_nil_of_length_eq_zero (Nat.le_zero.mp h)
    rfl
  | succ n ih =>
    have hbyte : (UInt8.ofNat (bitsNat (bits.take 8))).toNat = bitsNat (bits.take 8) := by
      refine Nat.mod_eq_of_lt (lt_of_lt_of_le (bitsNat_lt _) ?_)
      exact Nat.pow_le_pow_right (by decide) (List.length_take_le 8 bits)
    rw [packBytes, bitsOf, List.flatMap_cons, ← bitsOf, hbyte,
      natBits_bitsNat (List.length_take_le 8 bits), ih (by rw [List.length_drop]; omega)]
    rcases Nat.lt_or_ge bits.length 8 with hlen | hlen
    · rw [List.take_of_length_le hlen.le, List.drop_of_length_le hlen.le, List.nil_append,
        List.append_assoc, List.replicate_append_replicate]
      congr 2
      simp only [List.length_nil]
      omega
    · rw [List.length_take_of_le hlen, Nat.sub_self, List.replicate_zero, List.append_nil,
        ← List.append_assoc, List.take_append_drop, List.length_drop]
      congr 2
      omega

/-! ## Codecs -/

/-- Why a read fails. -/
inductive ReadError where
  | unexpectedEnd
  | invalidDiscriminant (got : Nat)
  deriving DecidableEq, Repr

/-- A reader and a writer of `α` that agree.  A read returns the value and the bits
after it. -/
structure Codec (α : Type) where
  read : List Bool → Except ReadError (α × List Bool)
  write : α → Option (List Bool)
  /-- What is written is read back. -/
  read_write : ∀ {a w}, write a = some w → ∀ rest, read (w ++ rest) = .ok (a, rest)
  /-- A read takes as many bits as a write of its result makes. -/
  write_read : ∀ {bits a rest}, read bits = .ok (a, rest) →
    ∃ w, write a = some w ∧ bits.length = w.length + rest.length

namespace Codec

variable {α β γ κ : Type}

theorem bind_eq_ok {ε : Type} {x : Except ε α} {f : α → Except ε β} {b : β} :
    (x >>= f) = .ok b ↔ ∃ a, x = .ok a ∧ f a = .ok b := by
  cases x with
  | error err =>
    constructor
    · intro h
      cases h
    · rintro ⟨_, h, _⟩
      cases h
  | ok a =>
    constructor
    · exact fun h => ⟨a, rfl, h⟩
    · rintro ⟨_, h, hf⟩
      cases h
      exact hf

theorem bitsNat_take_lt {bits : List Bool} {n : Nat} (h : n ≤ bits.length) :
    bitsNat (bits.take n) < 2 ^ n := by
  have hlt := bitsNat_lt (bits.take n)
  rwa [List.length_take_of_le h] at hlt

/-- An unsigned field of `n` bits. -/
def uint (n : Nat) : Codec (Fin (2 ^ n)) where
  read bits :=
    if h : n ≤ bits.length then .ok (⟨bitsNat (bits.take n), bitsNat_take_lt h⟩, bits.drop n)
    else .error .unexpectedEnd
  write a := some (natBits n a.val)
  read_write := by
    rintro a w hw rest
    obtain rfl := Option.some.inj hw
    simp [bitsNat_natBits a.isLt]
  write_read := by
    intro bits a rest hread
    split at hread
    · cases hread
      refine ⟨_, rfl, ?_⟩
      rw [length_natBits, List.length_drop]
      omega
    · cases hread

/-- A flag. -/
def bool : Codec Bool where
  read
    | [] => .error .unexpectedEnd
    | b :: rest => .ok (b, rest)
  write b := some [b]
  read_write := by
    rintro b w hw rest
    obtain rfl := Option.some.inj hw
    rfl
  write_read := by
    intro bits b rest hread
    cases bits with
    | nil => cases hread
    | cons b' bits =>
      cases hread
      exact ⟨[b], rfl, by simp [Nat.add_comm]⟩

/-- Bits that are skipped by a read and zero in a write. -/
def reserved (n : Nat) : Codec Unit where
  read bits := if n ≤ bits.length then .ok ((), bits.drop n) else .error .unexpectedEnd
  write _ := some (List.replicate n false)
  read_write := by
    rintro _ w hw rest
    obtain rfl := Option.some.inj hw
    simp
  write_read := by
    intro bits _ rest hread
    split at hread
    · cases hread
      refine ⟨_, rfl, ?_⟩
      rw [List.length_replicate, List.length_drop]
      omega
    · cases hread

/-- An enumeration of `n` bits: its members, and the value of each. -/
structure Enum (n : Nat) (α : Type) where
  all : List α
  disc : α → Fin (2 ^ n)
  mem_all : ∀ a, a ∈ all
  nodup : (all.map disc).Nodup

namespace Enum

variable {n : Nat} (e : Enum n α)

/-- The member with a value, if there is one. -/
def ofDisc (d : Fin (2 ^ n)) : Option α :=
  e.all.find? (fun a => e.disc a = d)

theorem ofDisc_disc (a : α) : e.ofDisc (e.disc a) = some a := by
  cases h : e.ofDisc (e.disc a) with
  | none =>
    have := List.find?_eq_none.mp h a (e.mem_all a)
    simp at this
  | some b =>
    have heq : e.disc b = e.disc a := by simpa using List.find?_some h
    rw [List.inj_on_of_nodup_map e.nodup (e.mem_all b) (e.mem_all a) heq]

theorem disc_of_ofDisc {d : Fin (2 ^ n)} {a : α} (h : e.ofDisc d = some a) : e.disc a = d := by
  simpa using List.find?_some h

end Enum

/-- The codec of an enumeration. -/
def enum {n : Nat} (e : Enum n α) : Codec α where
  read bits := do
    let (d, rest) ← (uint n).read bits
    match e.ofDisc d with
    | some a => .ok (a, rest)
    | none => .error (.invalidDiscriminant d.val)
  write a := (uint n).write (e.disc a)
  read_write := by
    intro a w hw rest
    rw [(uint n).read_write hw rest]
    change (match e.ofDisc (e.disc a) with | some a => _ | none => _) = _
    rw [e.ofDisc_disc]
  write_read := by
    intro bits a rest hread
    obtain ⟨⟨d, rest'⟩, hd, hread⟩ := bind_eq_ok.mp hread
    change (match e.ofDisc d with | some a => _ | none => _) = _ at hread
    split at hread
    next a' ha =>
      cases hread
      rw [e.disc_of_ofDisc ha]
      exact (uint n).write_read hd
    next => cases hread

/-- The same bits under another type. -/
def imap (c : Codec α) (f : α → β) (g : β → α) (fg : ∀ b, f (g b) = b) (gf : ∀ a, g (f a) = a) :
    Codec β where
  read bits := do
    let (a, rest) ← c.read bits
    return (f a, rest)
  write b := c.write (g b)
  read_write := by
    intro b w hw rest
    rw [c.read_write hw rest]
    exact congrArg (fun b => (Except.ok (b, rest) : Except ReadError _)) (fg b)
  write_read := by
    intro bits b rest hread
    obtain ⟨⟨a, rest'⟩, ha, hread⟩ := bind_eq_ok.mp hread
    cases hread
    rw [gf]
    exact c.write_read ha

/-- One codec after the other. -/
def pair (c : Codec α) (d : Codec β) : Codec (α × β) where
  read bits := do
    let (a, rest) ← c.read bits
    let (b, rest) ← d.read rest
    return ((a, b), rest)
  write p := do
    let w ← c.write p.1
    let w' ← d.write p.2
    return w ++ w'
  read_write := by
    rintro ⟨a, b⟩ w hw rest
    obtain ⟨wa, hwa, hw⟩ := Option.bind_eq_some_iff.mp hw
    obtain ⟨wb, hwb, hw⟩ := Option.bind_eq_some_iff.mp hw
    cases hw
    rw [List.append_assoc, c.read_write hwa]
    change ((d.read (wb ++ rest)) >>= _) = _
    rw [d.read_write hwb]
    rfl
  write_read := by
    rintro bits ⟨a, b⟩ rest hread
    obtain ⟨⟨a', mid⟩, ha, hread⟩ := bind_eq_ok.mp hread
    obtain ⟨⟨b', rest'⟩, hb, hread⟩ := bind_eq_ok.mp hread
    cases hread
    obtain ⟨wa, hwa, hla⟩ := c.write_read ha
    obtain ⟨wb, hwb, hlb⟩ := d.write_read hb
    refine ⟨wa ++ wb, by simp [hwa, hwb], ?_⟩
    rw [List.length_append]
    omega

theorem read_pair {c : Codec α} {d : Codec β} {bits rest : List Bool} {p : α × β}
    (h : (pair c d).read bits = .ok (p, rest)) :
    ∃ mid, c.read bits = .ok (p.1, mid) ∧ d.read mid = .ok (p.2, rest) := by
  obtain ⟨⟨a, mid⟩, ha, h⟩ := bind_eq_ok.mp h
  obtain ⟨⟨b, rest'⟩, hb, h⟩ := bind_eq_ok.mp h
  cases h
  exact ⟨mid, ha, hb⟩

/-- A codec that depends on a field of the codec in front of it.  `key` says what that
field is for a value, unless it cannot hold it. -/
def keyed (c : Codec (κ × β)) (key : γ → Option κ) (d : κ → Codec γ)
    (key_read : ∀ {k bits x rest}, (d k).read bits = .ok (x, rest) → key x = some k) :
    Codec (β × γ) where
  read bits := do
    let ((k, b), rest) ← c.read bits
    let (x, rest) ← (d k).read rest
    return ((b, x), rest)
  write p := do
    let k ← key p.2
    let w ← c.write (k, p.1)
    let w' ← (d k).write p.2
    return w ++ w'
  read_write := by
    rintro ⟨b, x⟩ w hw rest
    obtain ⟨k, hk, hw⟩ := Option.bind_eq_some_iff.mp hw
    obtain ⟨wb, hwb, hw⟩ := Option.bind_eq_some_iff.mp hw
    obtain ⟨wx, hwx, hw⟩ := Option.bind_eq_some_iff.mp hw
    cases hw
    rw [List.append_assoc, c.read_write hwb]
    change ((d k).read (wx ++ rest) >>= _) = _
    rw [(d k).read_write hwx]
    rfl
  write_read := by
    rintro bits ⟨b, x⟩ rest hread
    obtain ⟨⟨⟨k, b'⟩, mid⟩, hb, hread⟩ := bind_eq_ok.mp hread
    obtain ⟨⟨x', rest'⟩, hx, hread⟩ := bind_eq_ok.mp hread
    cases hread
    obtain ⟨wb, hwb, hlb⟩ := c.write_read hb
    obtain ⟨wx, hwx, hlx⟩ := (d k).write_read hx
    refine ⟨wb ++ wx, by simp [key_read hx, hwb, hwx], ?_⟩
    rw [List.length_append]
    omega

/-- The value of a length field of `k` bits, unless the length does not fit. -/
def lengthKey (k : Nat) (n : Nat) : Option (Fin (2 ^ k)) :=
  if h : n < 2 ^ k then some ⟨n, h⟩ else none

theorem lengthKey_val {k : Nat} (n : Fin (2 ^ k)) : lengthKey k n.val = some n := by
  simp [lengthKey]

/-- Read `n` values in a row. -/
def readMany (c : Codec α) : Nat → List Bool → Except ReadError (List α × List Bool)
  | 0, bits => .ok ([], bits)
  | n + 1, bits => do
    let (a, rest) ← c.read bits
    let (as, rest) ← readMany c n rest
    return (a :: as, rest)

/-- Write the values of a list in a row. -/
def writeMany (c : Codec α) : List α → Option (List Bool)
  | [] => some []
  | a :: as => do
    let w ← c.write a
    let w' ← writeMany c as
    return w ++ w'

theorem readMany_writeMany (c : Codec α) {l : List α} {w : List Bool}
    (h : writeMany c l = some w) (rest : List Bool) :
    readMany c l.length (w ++ rest) = .ok (l, rest) := by
  induction l generalizing w with
  | nil =>
    cases h
    rfl
  | cons a l ih =>
    obtain ⟨wa, hwa, h⟩ := Option.bind_eq_some_iff.mp h
    obtain ⟨wl, hwl, h⟩ := Option.bind_eq_some_iff.mp h
    cases h
    rw [List.length_cons, readMany, List.append_assoc, c.read_write hwa]
    change (readMany c l.length (wl ++ rest) >>= _) = _
    rw [ih hwl]
    rfl

theorem writeMany_readMany (c : Codec α) {n : Nat} {bits rest : List Bool} {l : List α}
    (h : readMany c n bits = .ok (l, rest)) :
    l.length = n ∧ ∃ w, writeMany c l = some w ∧ bits.length = w.length + rest.length := by
  induction n generalizing bits l with
  | zero =>
    cases h
    exact ⟨rfl, [], rfl, by simp⟩
  | succ n ih =>
    obtain ⟨⟨a, mid⟩, ha, h⟩ := bind_eq_ok.mp h
    obtain ⟨⟨as, rest'⟩, has, h⟩ := bind_eq_ok.mp h
    cases h
    obtain ⟨wa, hwa, hla⟩ := c.write_read ha
    obtain ⟨hlen, wl, hwl, hll⟩ := ih has
    refine ⟨by rw [List.length_cons, hlen], wa ++ wl, by simp [writeMany, hwa, hwl], ?_⟩
    rw [List.length_append]
    omega

/-- A list whose length is known. -/
def vec (n : Nat) (c : Codec α) : Codec (List α) where
  read := readMany c n
  write l := if l.length = n then writeMany c l else none
  read_write := by
    intro l w hw rest
    split at hw
    next hlen => exact hlen ▸ readMany_writeMany c hw rest
    next => cases hw
  write_read := by
    intro bits l rest hread
    obtain ⟨hlen, hw⟩ := writeMany_readMany c hread
    simpa [hlen] using hw

theorem length_read_vec {n : Nat} {c : Codec α} {bits rest : List Bool} {l : List α}
    (h : (vec n c).read bits = .ok (l, rest)) : l.length = n :=
  (writeMany_readMany c h).1

/-- A list whose length is a field of `k` bits in front of it. -/
def counted {k : Nat} (c : Codec (Fin (2 ^ k) × β)) (item : Codec α) : Codec (β × List α) :=
  c.keyed (fun l => lengthKey k l.length) (fun n => vec n.val item)
    (fun {n _ _ _} hread => (length_read_vec hread).symm ▸ lengthKey_val n)

/-- A field that is present or not. -/
def presence (has : Bool) (c : Codec α) : Codec (Option α) where
  read bits :=
    if has then do
      let (a, rest) ← c.read bits
      return (some a, rest)
    else .ok (none, bits)
  write
    | some a => if has then c.write a else none
    | none => if has then none else some []
  read_write := by
    intro o w hw rest
    cases has <;> cases o
    · cases hw
      rfl
    · cases hw
    · cases hw
    · simp only [if_true] at hw ⊢
      rw [c.read_write hw]
      rfl
  write_read := by
    intro bits o rest hread
    cases has
    · cases hread
      exact ⟨[], rfl, by simp⟩
    · simp only [if_true] at hread
      obtain ⟨⟨a, rest'⟩, ha, hread⟩ := bind_eq_ok.mp hread
      cases hread
      exact c.write_read ha

theorem isSome_read_presence {has : Bool} {c : Codec α} {bits rest : List Bool} {o : Option α}
    (h : (presence has c).read bits = .ok (o, rest)) : o.isSome = has := by
  cases has
  · cases h
    rfl
  · obtain ⟨⟨a, rest'⟩, -, h⟩ := bind_eq_ok.mp h
    cases h
    rfl

/-! ## Codecs of a fixed width -/

/-- Every value is written, in `k` bits. -/
def Fixed (c : Codec α) (k : Nat) : Prop :=
  ∀ a, ∃ w, c.write a = some w ∧ w.length = k

theorem fixed_uint (n : Nat) : Fixed (uint n) n :=
  fun a => ⟨natBits n a.val, rfl, length_natBits n a.val⟩

theorem fixed_bool : Fixed bool 1 := fun b => ⟨[b], rfl, rfl⟩

theorem fixed_reserved (n : Nat) : Fixed (reserved n) n :=
  fun _ => ⟨_, rfl, List.length_replicate⟩

theorem fixed_enum {n : Nat} (e : Enum n α) : Fixed (enum e) n :=
  fun a => fixed_uint n (e.disc a)

theorem Fixed.imap {c : Codec α} {k : Nat} (hc : Fixed c k) {f : α → β} {g : β → α}
    {fg : ∀ b, f (g b) = b} {gf : ∀ a, g (f a) = a} : Fixed (c.imap f g fg gf) k :=
  fun b => hc (g b)

theorem Fixed.pair {c : Codec α} {d : Codec β} {k m : Nat} (hc : Fixed c k) (hd : Fixed d m) :
    Fixed (c.pair d) (k + m) := by
  rintro ⟨a, b⟩
  obtain ⟨wa, hwa, hla⟩ := hc a
  obtain ⟨wb, hwb, hlb⟩ := hd b
  exact ⟨wa ++ wb, by simp [Codec.pair, hwa, hwb], by rw [List.length_append, hla, hlb]⟩

/-- A list of values of a fixed width. -/
theorem Fixed.vec {c : Codec α} {k : Nat} (hc : Fixed c k) (l : List α) :
    ∃ w, (vec l.length c).write l = some w ∧ w.length = l.length * k := by
  simp only [Codec.vec, if_true]
  induction l with
  | nil => exact ⟨[], rfl, by simp⟩
  | cons a l ih =>
    obtain ⟨wa, hwa, hla⟩ := hc a
    obtain ⟨wl, hwl, hll⟩ := ih
    refine ⟨wa ++ wl, by simp [writeMany, hwa, hwl], ?_⟩
    rw [List.length_append, hla, hll, List.length_cons]
    ring

theorem Fixed.counted {k m n : Nat} {c : Codec (Fin (2 ^ k) × β)} {item : Codec α}
    (hc : Fixed c m) (hitem : Fixed item n) (b : β) {l : List α} (h : l.length < 2 ^ k) :
    ∃ w, (c.counted item).write (b, l) = some w ∧ w.length = m + l.length * n := by
  obtain ⟨wb, hwb, hlb⟩ := hc (⟨l.length, h⟩, b)
  obtain ⟨wl, hwl, hll⟩ := hitem.vec l
  refine ⟨wb ++ wl, by simp [Codec.counted, keyed, lengthKey, h, hwb, hwl], ?_⟩
  rw [List.length_append, hlb, hll]

/-- A list that is too long for its length field is not written. -/
theorem write_counted_eq_none {k : Nat} {c : Codec (Fin (2 ^ k) × β)} {item : Codec α} {b : β}
    {l : List α} (h : 2 ^ k ≤ l.length) : (c.counted item).write (b, l) = none := by
  simp [counted, keyed, lengthKey, Nat.not_lt.mpr h]

/-! ## Codecs on bytes -/

/-- Read a value off the front of a buffer, with the number of bytes it took. -/
def readBytes (c : Codec α) (bytes : List UInt8) : Except ReadError (α × Nat) := do
  let (a, rest) ← c.read (bitsOf bytes)
  return (a, bytesFor (8 * bytes.length - rest.length))

/-- The bytes of a value. -/
def writeBytes (c : Codec α) (a : α) : Option (List UInt8) :=
  (c.write a).map pack

/-- A value read from a buffer is written in the bytes it took, and fits the buffer. -/
theorem writeBytes_readBytes {c : Codec α} {bytes : List UInt8} {a : α} {n : Nat}
    (h : c.readBytes bytes = .ok (a, n)) :
    ∃ w, c.writeBytes a = some w ∧ w.length = n ∧ n ≤ bytes.length := by
  obtain ⟨⟨a', rest⟩, ha, h⟩ := bind_eq_ok.mp h
  cases h
  obtain ⟨w, hw, hlen⟩ := c.write_read ha
  rw [length_bitsOf] at hlen
  refine ⟨pack w, by simp [writeBytes, hw], ?_, ?_⟩
  · rw [length_pack, hlen, Nat.add_sub_cancel]
  · unfold bytesFor
    omega

/-- What was written is read back, whatever comes after it. -/
theorem readBytes_writeBytes {c : Codec α} {a : α} {written : List UInt8}
    (h : c.writeBytes a = some written) (rest : List UInt8) :
    c.readBytes (written ++ rest) = .ok (a, written.length) := by
  obtain ⟨w, hw, rfl⟩ := Option.map_eq_some_iff.mp h
  have hroom : w.length ≤ 8 * bytesFor w.length := by
    unfold bytesFor
    omega
  have hbits := bitsOf_packBytes hroom
  rw [readBytes, bitsOf_append, pack, hbits, List.append_assoc, c.read_write hw]
  change Except.ok (a, _) = _
  congr 2
  simp only [List.length_append, length_packBytes, List.length_replicate, length_bitsOf]
  congr 1
  omega

theorem Fixed.writeBytes {c : Codec α} {k : Nat} (hc : Fixed c k) (a : α) :
    ∃ w, c.writeBytes a = some w ∧ w.length = bytesFor k := by
  obtain ⟨w, hw, hlen⟩ := hc a
  exact ⟨pack w, by simp [Codec.writeBytes, hw], by rw [length_pack, hlen]⟩

/-- A structure of a fixed width takes its bytes. -/
theorem Fixed.readBytes {c : Codec α} {k : Nat} (hc : Fixed c k) {bytes : List UInt8} {a : α}
    {n : Nat} (h : c.readBytes bytes = .ok (a, n)) : n = bytesFor k ∧ n ≤ bytes.length := by
  obtain ⟨w, hw, hlen, hle⟩ := writeBytes_readBytes h
  obtain ⟨w', hw', hlen'⟩ := hc.writeBytes a
  rw [hw] at hw'
  cases hw'
  exact ⟨hlen.symm.trans hlen', hle⟩

end Codec

end Ziggurat.Lib.BitCodec
