import Ziggurat.Lib.BitCodec

/-!
# Codecs that lose nothing

A codec reads back what it writes.  The other way around, a codec is *exact* if the bits that it
reads are those that it writes for the value: then a buffer that was accepted can be replaced by
the value and the rest.  Plain fields are exact, and so are the combinations of exact codecs.
Reserved bits are not, since a read skips them whatever they are.

`Exact.readBytes` is the form for a structure that fills whole bytes.
-/

namespace Ziggurat.Lib.BitCodec

/-! ## Bytes and their bits -/

theorem packBytes_bitsOf (bytes : List UInt8) : packBytes bytes.length (bitsOf bytes) = bytes := by
  induction bytes with
  | nil => rfl
  | cons byte bytes ih =>
    have hsplit : bitsOf (byte :: bytes) = natBits 8 byte.toNat ++ bitsOf bytes := by
      rw [bitsOf, List.flatMap_cons]
      rfl
    have hlen : (natBits 8 byte.toNat).length = 8 := length_natBits 8 _
    rw [List.length_cons, packBytes, hsplit, List.take_left' hlen, List.drop_left' hlen, ih,
      bitsNat_natBits byte.toNat_lt, UInt8.ofNat_toNat]

theorem pack_bitsOf (bytes : List UInt8) : pack (bitsOf bytes) = bytes := by
  have hfill : bytesFor (8 * bytes.length) = bytes.length := by
    unfold bytesFor
    omega
  rw [pack, length_bitsOf, hfill, packBytes_bitsOf]

namespace Codec

variable {α β γ κ : Type}

/-- What is read is what would be written. -/
def Exact (c : Codec α) : Prop :=
  ∀ ⦃bits a rest⦄, c.read bits = .ok (a, rest) → ∃ w, c.write a = some w ∧ bits = w ++ rest

theorem exact_uint (n : Nat) : Exact (uint n) := by
  intro bits a rest h
  refine ⟨_, rfl, ?_⟩
  change (if h : n ≤ bits.length then _ else _) = _ at h
  split at h
  next hn =>
    cases h
    have hlen : (bits.take n).length = n := List.length_take_of_le hn
    have hbits := natBits_bitsNat hlen.le
    rw [hlen, Nat.sub_self, List.replicate_zero, List.append_nil] at hbits
    rw [hbits, List.take_append_drop]
  next => cases h

theorem exact_bool : Exact bool := by
  intro bits b rest h
  cases bits with
  | nil => cases h
  | cons b' bits =>
    cases h
    exact ⟨[b], rfl, rfl⟩

theorem exact_enum {n : Nat} (e : Enum n α) : Exact (enum e) := by
  intro bits a rest h
  obtain ⟨⟨d, rest'⟩, hd, h⟩ := bind_eq_ok.mp h
  dsimp only at h
  cases ha : e.ofDisc d with
  | none =>
    rw [ha] at h
    cases h
  | some a' =>
    rw [ha] at h
    cases h
    obtain ⟨w, hw, hbits⟩ := exact_uint n hd
    exact ⟨w, by rw [← hw, ← e.disc_of_ofDisc ha]; rfl, hbits⟩

theorem Exact.imap {c : Codec α} (hc : Exact c) {f : α → β} {g : β → α}
    {fg : ∀ b, f (g b) = b} {gf : ∀ a, g (f a) = a} : Exact (c.imap f g fg gf) := by
  intro bits b rest h
  obtain ⟨⟨a, rest'⟩, ha, h⟩ := bind_eq_ok.mp h
  cases h
  obtain ⟨w, hw, hbits⟩ := hc ha
  refine ⟨w, ?_, hbits⟩
  change c.write (g (f a)) = some w
  rw [gf, hw]

theorem Exact.pair {c : Codec α} {d : Codec β} (hc : Exact c) (hd : Exact d) :
    Exact (c.pair d) := by
  intro bits p rest h
  obtain ⟨mid, ha, hb⟩ := read_pair h
  obtain ⟨wa, hwa, rfl⟩ := hc ha
  obtain ⟨wb, hwb, rfl⟩ := hd hb
  exact ⟨wa ++ wb, by simp [Codec.pair, hwa, hwb], by rw [List.append_assoc]⟩

theorem Exact.keyed {c : Codec (κ × β)} {key : γ → Option κ} {d : κ → Codec γ}
    (key_read : ∀ {k bits x rest}, (d k).read bits = .ok (x, rest) → key x = some k)
    (hc : Exact c) (hd : ∀ k, Exact (d k)) : Exact (c.keyed key d key_read) := by
  intro bits p rest h
  obtain ⟨⟨⟨k, b⟩, mid⟩, hb, h⟩ := bind_eq_ok.mp h
  obtain ⟨⟨x, rest'⟩, hx, h⟩ := bind_eq_ok.mp h
  cases h
  obtain ⟨wb, hwb, rfl⟩ := hc hb
  obtain ⟨wx, hwx, rfl⟩ := hd k hx
  exact ⟨wb ++ wx, by simp [Codec.keyed, key_read hx, hwb, hwx], by rw [List.append_assoc]⟩

theorem Exact.readMany {c : Codec α} (hc : Exact c) {n : Nat} {bits rest : List Bool}
    {l : List α} (h : readMany c n bits = .ok (l, rest)) :
    ∃ w, writeMany c l = some w ∧ bits = w ++ rest := by
  induction n generalizing bits l with
  | zero =>
    cases h
    exact ⟨[], rfl, rfl⟩
  | succ n ih =>
    obtain ⟨⟨a, mid⟩, ha, h⟩ := bind_eq_ok.mp h
    obtain ⟨⟨as, rest'⟩, has, h⟩ := bind_eq_ok.mp h
    cases h
    obtain ⟨wa, hwa, rfl⟩ := hc ha
    obtain ⟨wl, hwl, rfl⟩ := ih has
    exact ⟨wa ++ wl, by simp [writeMany, hwa, hwl], by rw [List.append_assoc]⟩

theorem Exact.vec {c : Codec α} (hc : Exact c) (n : Nat) : Exact (vec n c) := by
  intro bits l rest h
  obtain ⟨w, hw, hbits⟩ := hc.readMany h
  exact ⟨w, (if_pos (length_read_vec h)).trans hw, hbits⟩

theorem Exact.counted {k : Nat} {c : Codec (Fin (2 ^ k) × β)} {item : Codec α} (hc : Exact c)
    (hitem : Exact item) : Exact (c.counted item) :=
  Exact.keyed (fun {n _ _ _} hread => (length_read_vec hread).symm ▸ lengthKey_val n) hc
    fun n => hitem.vec n.val

/-! ## Whole bytes -/

/-- The bytes that a structure of whole bytes was read from are those that are written. -/
theorem Exact.readBytes {c : Codec α} (hc : Exact c)
    (hwhole : ∀ {a w}, c.write a = some w → 8 ∣ w.length) {bytes : List UInt8} {a : α} {n : Nat}
    (h : c.readBytes bytes = .ok (a, n)) :
    n ≤ bytes.length ∧ c.writeBytes a = some (bytes.take n) := by
  obtain ⟨⟨a', rest⟩, ha, h⟩ := bind_eq_ok.mp h
  cases h
  obtain ⟨w, hw, hbits⟩ := hc ha
  obtain ⟨m, hm⟩ := hwhole hw
  have hlen : 8 * bytes.length = 8 * m + rest.length := by
    rw [← length_bitsOf, hbits, List.length_append, hm]
  have hn : bytesFor (8 * bytes.length - rest.length) = m := by
    unfold bytesFor
    omega
  have htake : bitsOf (bytes.take m) = w := by
    have hsplit : bitsOf (bytes.take m) ++ bitsOf (bytes.drop m) = w ++ rest := by
      rw [← bitsOf_append, List.take_append_drop, hbits]
    refine (List.append_inj hsplit ?_).1
    rw [length_bitsOf, List.length_take, hm]
    omega
  rw [hn]
  refine ⟨by omega, ?_⟩
  rw [writeBytes, hw, Option.map_some, ← htake, pack_bitsOf]

theorem Fixed.whole {c : Codec α} {k : Nat} (hc : Fixed c k) (hk : 8 ∣ k) {a : α}
    {w : List Bool} (h : c.write a = some w) : 8 ∣ w.length := by
  obtain ⟨w', hw', hlen⟩ := hc a
  rw [hw'] at h
  cases h
  rwa [hlen]

end Codec

end Ziggurat.Lib.BitCodec
