import Ziggurat.Ieee802154.Wire
import Ziggurat.Lib.ExactCodec

/-!
# What the parsers of fields accept

A parser of a field takes the bytes of a value off the front of a buffer.  The lemmas here say so
in both directions at once: the parser returns a value and a rest exactly if the buffer is the
bytes of the value followed by the rest.  A parser that is a sequence of such parsers is then
inverted field by field, and run on what was serialized with the same lemmas.
-/

namespace Ziggurat

open Lib.BitCodec

/-! ## Bytes -/

namespace Bytes

variable {bytes rest : Bytes} {byte : UInt8}

theorem sliceFrom_append {w : Bytes} {n : Nat} (h : w.length = n) (rest : Bytes) :
    (w ++ rest).sliceFrom n = .ok rest := by
  rw [sliceFrom_eq (by rw [List.length_append]; omega), List.drop_left' h]

theorem eq_append_of_sliceFrom {n : Nat} (h : bytes.sliceFrom n = .ok rest) :
    n ≤ bytes.length ∧ bytes = bytes.take n ++ rest := by
  unfold sliceFrom at h
  split at h
  next hn =>
    cases h
    exact ⟨hn, (List.take_append_drop n bytes).symm⟩
  next => cases h

/-- The first byte and the others. -/
theorem eq_cons_of_index (hbyte : bytes.index 0 = .ok byte) (hrest : bytes.sliceFrom 1 = .ok rest) :
    bytes = byte :: rest := by
  cases bytes with
  | nil => cases hbyte
  | cons b bytes =>
    cases hbyte
    obtain ⟨-, h⟩ := eq_append_of_sliceFrom hrest
    exact h

@[simp] theorem index_cons_zero (bytes : Bytes) : index (byte :: bytes) 0 = .ok byte := rfl

@[simp] theorem sliceFrom_cons_one (bytes : Bytes) : sliceFrom (byte :: bytes) 1 = .ok bytes :=
  sliceFrom_append rfl bytes (w := [byte])

end Bytes

/-! ## Integers -/

theorem leBytes_leNat (bytes : Bytes) : leBytes bytes.length (leNat bytes) = bytes := by
  induction bytes with
  | nil => rfl
  | cons byte bytes ih =>
    have hnat : leNat (byte :: bytes) = byte.toNat + 256 * leNat bytes := Nat.ofDigits_cons ..
    have hbyte : byte.toNat < 256 := byte.toNat_lt
    have hlow : (byte.toNat + 256 * leNat bytes) % 256 = byte.toNat := by omega
    have hhigh : (byte.toNat + 256 * leNat bytes) / 256 = leNat bytes := by omega
    rw [List.length_cons, leBytes, hnat, hlow, hhigh, ih, UInt8.ofNat_toNat]

theorem leNat_lt (bytes : Bytes) : leNat bytes < 2 ^ (8 * bytes.length) := by
  have hlt := Nat.ofDigits_lt_base_pow_length (b := 256) (l := bytes.map UInt8.toNat) (by decide)
    (fun d hd => by
      obtain ⟨byte, -, rfl⟩ := List.mem_map.mp hd
      exact byte.toNat_lt)
  rw [List.length_map] at hlt
  exact hlt.trans_eq (by rw [pow_mul]; rfl)

theorem deserializeLe_eq_pure {width : Nat} {ty : String} {bytes rest : Bytes}
    {v : Fin (2 ^ (8 * width))} :
    deserializeLe width ty bytes = pure (v, rest) ↔ bytes = leBytes width v.val ++ rest := by
  constructor
  · intro h
    obtain ⟨_, hcheck, h⟩ := Parse.bind_eq_pure.mp h
    obtain ⟨head, hhead, h⟩ := Parse.bind_eq_pure.mp h
    obtain ⟨tail, htail, h⟩ := Parse.bind_eq_pure.mp h
    have hlen := Parse.check_eq_pure.mp hcheck
    rw [Bytes.sliceTo_eq hlen, Parse.liftM_ok, Parse.pure_eq_pure] at hhead
    obtain ⟨-, hbytes⟩ := Bytes.eq_append_of_sliceFrom (Parse.liftM_eq_pure.mp htail)
    cases Parse.pure_eq_pure.mp h
    have hwidth : (bytes.take width).length = width := List.length_take_of_le hlen
    have hlt := leNat_lt (bytes.take width)
    have hback := leBytes_leNat (bytes.take width)
    rw [hwidth] at hlt hback
    subst hhead
    rw [Fin.val_ofNat, Nat.mod_eq_of_lt hlt, hback]
    exact hbytes
  · rintro rfl
    exact deserializeLe_leBytes width ty v rest

theorem Bytes.u32At_append (v : UInt32) (rest : Bytes) :
    (leBytes 4 v.toNat ++ rest).u32At 0 = .ok v := by
  have hnat : leNat (leBytes 4 v.toNat) = v.toNat := leNat_leBytes v.toNat_lt
  change (Except.ok (UInt32.ofNat (leNat (leBytes 4 v.toNat))) : Checked UInt32) = .ok v
  rw [hnat, UInt32.ofNat_toNat]

theorem Bytes.eq_append_of_u32At {bytes rest : Bytes} {v : UInt32} (hv : bytes.u32At 0 = .ok v)
    (hrest : bytes.sliceFrom 4 = .ok rest) : bytes = leBytes 4 v.toNat ++ rest := by
  obtain ⟨hlen, hbytes⟩ := eq_append_of_sliceFrom hrest
  match bytes, hlen with
  | b₀ :: b₁ :: b₂ :: b₃ :: tail, _ =>
    have hlt : leNat [b₀, b₁, b₂, b₃] < 2 ^ 32 := leNat_lt [b₀, b₁, b₂, b₃]
    have hback : leBytes 4 (leNat [b₀, b₁, b₂, b₃]) = [b₀, b₁, b₂, b₃] :=
      leBytes_leNat [b₀, b₁, b₂, b₃]
    obtain rfl : UInt32.ofNat (leNat [b₀, b₁, b₂, b₃]) = v := Except.ok.inj hv
    rw [UInt32.toNat_ofNat_of_lt' hlt, hback]
    exact hbytes

theorem FrameBytes.fromSliceOr_eq_pure {ε : Type} {bytes : Bytes} {err : ε} {buffer : FrameBytes} :
    fromSliceOr bytes err = pure buffer ↔ bytes = buffer.bytes := by
  constructor
  · intro h
    unfold fromSliceOr at h
    split at h
    next found hfound =>
      cases Parse.pure_eq_pure.mp h
      exact (bytes_fromSlice hfound).symm
    next => cases h
  · rintro rfl
    exact fromSliceOr_bytes buffer err

/-! ## Packed structures -/

section

variable {α ε : Type} {c : Codec α} {k : Nat} {bytes rest : Bytes} {a : α}

/-- A structure of whole bytes is read from what is written for it. -/
theorem readBytes_eq_ok (hc : c.Exact) (hwhole : ∀ {a w}, c.write a = some w → 8 ∣ w.length)
    {n : Nat} : c.readBytes bytes = .ok (a, n) ↔
      ∃ w rest, c.writeBytes a = some w ∧ w.length = n ∧ bytes = w ++ rest := by
  constructor
  · intro h
    obtain ⟨hle, hw⟩ := hc.readBytes hwhole h
    exact ⟨_, _, hw, List.length_take_of_le hle, (List.take_append_drop n bytes).symm⟩
  · rintro ⟨w, rest, hw, rfl, rfl⟩
    exact Codec.readBytes_writeBytes hw rest

/-- A structure is read, and the buffer is sliced behind it. -/
theorem eq_append_of_readBytes (hc : c.Exact)
    (hwhole : ∀ {a w}, c.write a = some w → 8 ∣ w.length) {n : Nat}
    (hread : c.readBytes bytes = .ok (a, n)) (hrest : bytes.sliceFrom n = .ok rest) :
    ∃ w, c.writeBytes a = some w ∧ bytes = w ++ rest := by
  obtain ⟨w, rest', hw, rfl, rfl⟩ := (readBytes_eq_ok hc hwhole).mp hread
  rw [Bytes.sliceFrom_append rfl] at hrest
  cases hrest
  exact ⟨w, hw, rfl⟩

end

end Ziggurat
