import Ziggurat.Spinel.Frame

/-!
# Packed integers

Spinel writes an integer of up to 21 bits in groups of seven, lowest group first, with the high
bit set on every byte but the last.  `packed_uint21_to_bytes` loops until no bits are left, and
`packed_uint21_deserialize` gives up after three bytes.

The bound that the encoder checks is `1 << 21`, which is one too much: that value takes a fourth
byte.  `packed_uint21_round_trip_iff` says that it is the only one which is lost, and that
nothing which the decoder accepts is too big for the encoder.
-/

namespace Ziggurat

/-- `U21_MAX`. -/
def u21Max : UInt32 := (1 : UInt32) <<< 21

theorem toNat_shiftRight_seven (v : UInt32) : (v >>> 7).toNat = v.toNat / 128 := by
  rw [UInt32.toNat_shiftRight, Nat.shiftRight_eq_div_pow]
  rfl

/-- The loop of `packed_uint21_to_bytes`. -/
def packedChunks (temp : UInt32) (chunks : Bytes) : Bytes :=
  if 0 < temp then
    packedChunks (temp >>> 7) (chunks ++ [(temp.toUInt8 &&& 0b01111111) ||| 0b10000000])
  else chunks
termination_by temp.toNat
decreasing_by
  have hpos : 0 < temp.toNat := UInt32.lt_iff_toNat_lt.mp ‹0 < temp›
  rw [toNat_shiftRight_seven]
  omega

/-- The bytes of a value that is not zero: the high bit of the last chunk is cleared. -/
def packedBytes (value : UInt32) : Bytes :=
  (packedChunks value []).modify ((packedChunks value []).length - 1) (· &&& 0b01111111)

/-- `packed_uint21_to_bytes`. -/
def packedUint21ToBytes (value : UInt32) : Checked Bytes := do
  if value = 0 then
    return [0]
  Checked.ensure (¬ value > u21Max) (.explicit "Cannot serialize value, too big")
  -- the index of the last chunk
  Checked.ensure (1 ≤ (packedChunks value []).length) .overflow
  return packedBytes value

/-! ## Bytes as numbers -/

theorem toNat_group (byte : UInt8) : (byte &&& 0b01111111).toNat = byte.toNat % 128 := by
  rw [UInt8.toNat_and]
  exact Nat.and_two_pow_sub_one_eq_mod byte.toNat 7

theorem toNat_chunk (v : UInt32) :
    ((v.toUInt8 &&& 0b01111111) ||| 0b10000000).toNat = v.toNat % 128 + 128 := by
  have hlow : (v.toUInt8 &&& 0b01111111).toNat = v.toNat % 128 := by
    rw [toNat_group, UInt32.toNat_toUInt8]
    omega
  rw [UInt8.toNat_or, hlow, Nat.or_comm]
  have hor := Nat.two_pow_add_eq_or_of_lt (show v.toNat % 128 < 2 ^ 7 by omega) 1
  exact hor.symm.trans (Nat.add_comm ..)

theorem last_iff (byte : UInt8) : byte &&& 0b10000000 = 0 ↔ byte.toNat < 128 := by
  have hall : ∀ n < 256, n &&& 128 = 0 ↔ n < 128 := by decide +kernel
  rw [← UInt8.toNat_inj, UInt8.toNat_and]
  exact hall byte.toNat byte.toNat_lt

/-! ## The encoder -/

theorem packedChunks_append (v : UInt32) (chunks : Bytes) :
    packedChunks v chunks = chunks ++ packedChunks v [] := by
  induction hv : v.toNat using Nat.strong_induction_on generalizing v chunks with
  | _ n ih =>
    unfold packedChunks
    split
    next hpos =>
      have hlt : (v >>> 7).toNat < n := by
        have := UInt32.lt_iff_toNat_lt.mp hpos
        rw [toNat_shiftRight_seven]
        omega
      rw [ih _ hlt (v >>> 7) _ rfl, ih _ hlt (v >>> 7) ([] ++ _) rfl, List.nil_append,
        List.append_assoc]
    next => exact (List.append_nil chunks).symm

theorem packedChunks_of_pos {v : UInt32} (h : 0 < v.toNat) :
    packedChunks v [] =
      ((v.toUInt8 &&& 0b01111111) ||| 0b10000000) :: packedChunks (v >>> 7) [] := by
  have hpos : 0 < v := UInt32.lt_iff_toNat_lt.mpr h
  rw [packedChunks, if_pos hpos, packedChunks_append]
  rfl

theorem packedChunks_zero {v : UInt32} (h : v.toNat = 0) : packedChunks v [] = [] := by
  rw [packedChunks, if_neg]
  intro hpos
  have hlt : 0 < v.toNat := UInt32.lt_iff_toNat_lt.mp hpos
  omega

/-- The last group. -/
theorem packedBytes_of_lt {v : UInt32} (hpos : 0 < v.toNat) (h : v.toNat < 128) :
    ∃ byte : UInt8, packedBytes v = [byte] ∧ byte.toNat = v.toNat := by
  have hrest : packedChunks (v >>> 7) [] = [] :=
    packedChunks_zero (by rw [toNat_shiftRight_seven]; omega)
  refine ⟨((v.toUInt8 &&& 0b01111111) ||| 0b10000000) &&& 0b01111111, ?_, ?_⟩
  · rw [packedBytes, packedChunks_of_pos hpos, hrest]
    rfl
  · rw [toNat_group, toNat_chunk]
    omega

/-- A group that others follow. -/
theorem packedBytes_of_ge {v : UInt32} (h : 128 ≤ v.toNat) :
    ∃ byte : UInt8, packedBytes v = byte :: packedBytes (v >>> 7) ∧
      byte.toNat = v.toNat % 128 + 128 := by
  have hrest : 0 < (v >>> 7).toNat := by
    rw [toNat_shiftRight_seven]
    omega
  refine ⟨_, ?_, toNat_chunk v⟩
  rw [packedBytes, packedBytes, packedChunks_of_pos (by omega), packedChunks_of_pos hrest]
  rfl

theorem length_packedBytes_le {v : UInt32} {n : Nat} (hpos : 0 < v.toNat)
    (h : v.toNat < 128 ^ n) : (packedBytes v).length ≤ n := by
  induction n generalizing v with
  | zero =>
    rw [pow_zero] at h
    omega
  | succ n ih =>
    by_cases hsmall : v.toNat < 128
    · obtain ⟨byte, hbytes, -⟩ := packedBytes_of_lt hpos hsmall
      rw [hbytes]
      exact Nat.succ_le_succ (Nat.zero_le n)
    · obtain ⟨byte, hbytes, -⟩ := packedBytes_of_ge (Nat.le_of_not_lt hsmall)
      have hshift := toNat_shiftRight_seven v
      have hrest := ih (show 0 < (v >>> 7).toNat by omega) (by
        rw [hshift]
        exact Nat.div_lt_of_lt_mul (by rw [pow_succ] at h; omega))
      rw [hbytes]
      exact Nat.succ_le_succ hrest

theorem packedUint21ToBytes_eq {v : UInt32} (hpos : 0 < v.toNat) (h : v.toNat ≤ 2 ^ 21) :
    packedUint21ToBytes v = .ok (packedBytes v) := by
  have hzero : v ≠ 0 := by
    rintro rfl
    cases hpos
  have hroom : ¬ v > u21Max := by
    intro hgt
    have : 2 ^ 21 < v.toNat := UInt32.lt_iff_toNat_lt.mp hgt
    omega
  rw [packedUint21ToBytes, if_neg hzero, Checked.ensure_of _ hroom, packedChunks_of_pos hpos]
  rfl

/-! ## The decoder -/

/-- A group is put above the bits that were read. -/
theorem toNat_merge {index : Nat} {result : UInt32} (byte : UInt8) (hindex : index ≤ 2)
    (hresult : result.toNat < 128 ^ index) :
    (result ||| ((byte &&& 0b01111111).toUInt32 <<< UInt32.ofNat (7 * index))).toNat =
      result.toNat + byte.toNat % 128 * 128 ^ index := by
  have hpow : 128 ^ index = 2 ^ (7 * index) := (pow_mul 2 7 index).symm
  have hbound : byte.toNat % 128 * 2 ^ (7 * index) < 2 ^ 32 := by
    have hexp : 2 ^ (7 * index) ≤ 2 ^ 14 := Nat.pow_le_pow_right (by decide) (by omega)
    calc byte.toNat % 128 * 2 ^ (7 * index) ≤ 127 * 2 ^ 14 := Nat.mul_le_mul (by omega) hexp
      _ < 2 ^ 32 := by decide
  have hshift : (UInt32.ofNat (7 * index)).toNat % 32 = 7 * index := by
    rw [UInt32.toNat_ofNat']
    omega
  rw [hpow] at hresult ⊢
  rw [UInt32.toNat_or, UInt32.toNat_shiftLeft, UInt8.toNat_toUInt32, toNat_group, hshift,
    Nat.shiftLeft_eq, Nat.mod_eq_of_lt hbound, Nat.or_comm, ← Nat.shiftLeft_eq,
    ← Nat.shiftLeft_add_eq_or_of_lt hresult, Nat.add_comm]

theorem merge_lt {index : Nat} {result : UInt32} (byte : UInt8) (hindex : index ≤ 2)
    (hresult : result.toNat < 128 ^ index) :
    (result ||| ((byte &&& 0b01111111).toUInt32 <<< UInt32.ofNat (7 * index))).toNat <
      128 ^ (index + 1) := by
  have hle : byte.toNat % 128 * 128 ^ index ≤ 127 * 128 ^ index :=
    Nat.mul_le_mul_right _ (by omega)
  rw [toNat_merge byte hindex hresult, pow_succ]
  omega

/-- The last group is read. -/
theorem go_packedBytes_last {index : Nat} {v result : UInt32} (rest : Bytes) (hindex : index ≤ 2)
    (hresult : result.toNat < 128 ^ index) (hpos : 0 < v.toNat) (hsmall : v.toNat < 128) :
    ∃ value, packedUint21Deserialize.go index result (packedBytes v ++ rest) = .ok (value, rest) ∧
      value.toNat = result.toNat + v.toNat * 128 ^ index := by
  obtain ⟨byte, hbytes, hbyte⟩ := packedBytes_of_lt hpos hsmall
  rw [hbytes]
  refine ⟨_, if_pos ((last_iff byte).mpr (by omega)), ?_⟩
  rw [toNat_merge byte hindex hresult, hbyte, Nat.mod_eq_of_lt hsmall]

/-- The decoder reads the groups back. -/
theorem go_packedBytes {index : Nat} {v result : UInt32} (rest : Bytes) (hindex : index ≤ 2)
    (hresult : result.toNat < 128 ^ index) (hpos : 0 < v.toNat)
    (h : v.toNat < 128 ^ (3 - index)) :
    ∃ value, packedUint21Deserialize.go index result (packedBytes v ++ rest) = .ok (value, rest) ∧
      value.toNat = result.toNat + v.toNat * 128 ^ index := by
  -- on the bytes that may still be read
  induction hleft : 2 - index generalizing index v result with
  | zero =>
    have hlast : index = 2 := by omega
    have hsmall : v.toNat < 128 := by rwa [hlast] at h
    exact go_packedBytes_last rest hindex hresult hpos hsmall
  | succ left ih =>
    by_cases hsmall : v.toNat < 128
    · exact go_packedBytes_last rest hindex hresult hpos hsmall
    · obtain ⟨byte, hbytes, hbyte⟩ := packedBytes_of_ge (Nat.le_of_not_lt hsmall)
      have hshift := toNat_shiftRight_seven v
      have hrest : (v >>> 7).toNat < 128 ^ (3 - (index + 1)) := by
        rw [hshift]
        apply Nat.div_lt_of_lt_mul
        rw [show 3 - index = (3 - (index + 1)) + 1 by omega, pow_succ] at h
        omega
      obtain ⟨value, hvalue, hnat⟩ := ih (by omega) (merge_lt byte hindex hresult) (by omega) hrest
        (by omega)
      refine ⟨value, ?_, ?_⟩
      · rw [hbytes, List.cons_append, packedUint21Deserialize.go,
          if_neg (fun hend => by have := (last_iff byte).mp hend; omega),
          if_neg (show ¬ index ≥ 2 by omega)]
        exact hvalue
      · have hgroup : byte.toNat % 128 + v.toNat / 128 * 128 = v.toNat := by omega
        rw [hnat, toNat_merge byte hindex hresult, hshift, pow_succ, Nat.add_assoc,
          Nat.mul_comm (128 ^ index) 128, ← Nat.mul_assoc, ← Nat.add_mul, hgroup]

/-- What the decoder accepts: it reads three bytes at most, and the value has no more groups than
it read. -/
theorem bounds_of_go {index : Nat} {result value : UInt32} {bytes rest : Bytes} (hindex : index ≤ 2)
    (hresult : result.toNat < 128 ^ index)
    (h : packedUint21Deserialize.go index result bytes = .ok (value, rest)) :
    ∃ taken, bytes = taken ++ rest ∧ index + taken.length ≤ 3 ∧ 1 ≤ taken.length ∧
      value.toNat < 128 ^ (index + taken.length) := by
  induction bytes generalizing index result with
  | nil => cases h
  | cons byte bytes ih =>
    have hmerge := merge_lt byte hindex hresult
    rw [packedUint21Deserialize.go] at h
    split at h
    next =>
      cases h
      exact ⟨[byte], rfl, Nat.succ_le_succ hindex, Nat.le_refl 1, hmerge⟩
    next =>
      split at h
      next => cases h
      next hmore =>
        obtain ⟨taken, hbytes, hthree, -, hvalue⟩ := ih (by omega) hmerge h
        have hlength : index + (byte :: taken).length = index + 1 + taken.length := by
          rw [List.length_cons]
          omega
        exact ⟨byte :: taken, congrArg (byte :: ·) hbytes, hlength ▸ hthree,
          Nat.succ_le_succ (Nat.zero_le _), hlength ▸ hvalue⟩

/-! ## The result -/

theorem packedBytes_u21Max : packedBytes u21Max = [0x80, 0x80, 0x80, 0x01] := by
  have hchunks : packedChunks u21Max [] = [0x80, 0x80, 0x80, 0x81] := by
    rw [packedChunks_of_pos (by decide), packedChunks_of_pos (by decide),
      packedChunks_of_pos (by decide), packedChunks_of_pos (by decide),
      packedChunks_zero (by decide)]
    decide
  rw [packedBytes, hchunks]
  rfl

/-- A value that the encoder takes is read back before any other bytes, unless it is the bound
itself; and a value that the decoder accepts is encoded again, in no more bytes. -/
theorem packed_uint21_round_trip_iff (v : UInt32) (encoded : Bytes)
    (h : packedUint21ToBytes v = .ok encoded) :
    ((∀ rest, packedUint21Deserialize (encoded ++ rest) = .ok (v, rest)) ↔ v ≠ u21Max) ∧
    ∀ bytes value rest, packedUint21Deserialize bytes = .ok (value, rest) →
      ∃ taken again, bytes = taken ++ rest ∧ taken.length ≤ 3 ∧
        packedUint21ToBytes value = .ok again ∧ again.length ≤ taken.length := by
  constructor
  · by_cases hzero : v = 0
    · rw [hzero] at h ⊢
      cases h
      exact iff_of_true (fun rest => rfl) (by decide)
    · have hpos : 0 < v.toNat := Nat.pos_of_ne_zero fun hnat => hzero (UInt32.toNat_inj.mp hnat)
      have hmax : v.toNat ≤ 2 ^ 21 := by
        rw [packedUint21ToBytes, if_neg hzero] at h
        obtain ⟨_, hroom, -⟩ := Checked.bind_eq_ok.mp h
        have hle := Checked.of_ensure hroom
        exact Nat.le_of_not_lt fun hlt => hle (UInt32.lt_iff_toNat_lt.mpr hlt)
      rw [packedUint21ToBytes_eq hpos hmax] at h
      cases h
      constructor
      · rintro hread rfl
        have hfails := hread []
        rw [packedBytes_u21Max] at hfails
        cases hfails
      · intro hne rest
        have hlt : v.toNat < 128 ^ (3 - 0) := by
          have hnat : v.toNat ≠ 2 ^ 21 := fun hnat => hne (UInt32.toNat_inj.mp hnat)
          exact Nat.lt_of_le_of_ne hmax hnat
        obtain ⟨value, hvalue, hnat⟩ := @go_packedBytes 0 v 0 rest (by decide) (by decide) hpos hlt
        rw [packedUint21Deserialize, hvalue]
        have hsame : value = v := UInt32.toNat_inj.mp (by simpa using hnat)
        rw [hsame]
  · intro bytes value rest hread
    obtain ⟨taken, hbytes, hthree, hone, hvalue⟩ := @bounds_of_go 0 0 value bytes rest (by decide)
      (by decide) hread
    rw [Nat.zero_add] at hthree hvalue
    by_cases hzero : value = 0
    · exact ⟨taken, [0], hbytes, hthree, by rw [hzero]; rfl, hone⟩
    · have hpos : 0 < value.toNat :=
        Nat.pos_of_ne_zero fun hnat => hzero (UInt32.toNat_inj.mp hnat)
      have hmax : 128 ^ taken.length ≤ 2 ^ 21 := Nat.pow_le_pow_right (by decide : 0 < 128) hthree
      exact ⟨taken, packedBytes value, hbytes, hthree,
        packedUint21ToBytes_eq hpos (hvalue.le.trans hmax), length_packedBytes_le hpos hvalue⟩

/-- The test vector of the source, before another byte. -/
theorem packed_uint21_round_trip_iff_vector :
    packedUint21Deserialize [0xFC, 0xAF, 0x7F, 0x05] = .ok (0x1FD7FC, [0x05]) := by
  have hchunks : packedChunks 0x1FD7FC [] = [0xFC, 0xAF, 0xFF] := by
    rw [packedChunks_of_pos (by decide), packedChunks_of_pos (by decide),
      packedChunks_of_pos (by decide), packedChunks_zero (by decide)]
    decide
  have hbytes : packedUint21ToBytes 0x1FD7FC = .ok [0xFC, 0xAF, 0x7F] := by
    rw [packedUint21ToBytes_eq (by decide) (by decide), packedBytes, hchunks]
    rfl
  exact (packed_uint21_round_trip_iff 0x1FD7FC _ hbytes).1.mpr (by decide) [0x05]

/-- The encoder takes its bound, and the decoder gives up on what it writes. -/
theorem packed_uint21_bound_lost :
    packedUint21ToBytes u21Max = .ok [0x80, 0x80, 0x80, 0x01] ∧
    packedUint21Deserialize [0x80, 0x80, 0x80, 0x01] = .error .packedU21DidNotTerminate := by
  refine ⟨?_, rfl⟩
  rw [packedUint21ToBytes_eq (by decide) (by decide)]
  exact congrArg Except.ok packedBytes_u21Max

end Ziggurat
