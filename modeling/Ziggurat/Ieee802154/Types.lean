import Mathlib.Data.Nat.Digits.Defs
import Ziggurat.Parse
import Ziggurat.Types

/-!
# Frame buffers and the byte forms of addresses

`FrameBytes` is the inline buffer that payloads and ciphertexts are kept in: at most
127 bytes, which is the largest 802.15.4 frame.  Its bound is a field, so every
function that makes one says what happens to longer input.

Integers, addresses and keys are little-endian on the air.  `deserializeLe` is the
parser that `Nwk`, `PanId` and `Eui64` share.

`extendAbstractBits` writes a packed structure through a scratch buffer of 127 bytes
and panics if it does not fit.
-/

namespace Ziggurat

open Lib.BitCodec

/-- The identifier of a PAN. -/
abbrev PanId := Fin (2 ^ 16)

/-- An AES-128 key. -/
abbrev Key := Fin (2 ^ 128)

instance Key.neZero : NeZero (2 ^ 128) := ⟨by decide⟩

/-! ## Little-endian integers -/

/-- The `n` low bytes of a number, lowest first. -/
def leBytes : Nat → Nat → Bytes
  | 0, _ => []
  | n + 1, v => UInt8.ofNat (v % 256) :: leBytes n (v / 256)

/-- The number whose bytes, lowest first, are the list. -/
def leNat (bytes : Bytes) : Nat := Nat.ofDigits 256 (bytes.map UInt8.toNat)

@[simp] theorem length_leBytes (n v : Nat) : (leBytes n v).length = n := by
  induction n generalizing v with
  | zero => rfl
  | succ n ih => simp [leBytes, ih]

theorem leNat_leBytes {n v : Nat} (h : v < 2 ^ (8 * n)) : leNat (leBytes n v) = v := by
  induction n generalizing v with
  | zero =>
    rw [Nat.mul_zero, pow_zero, Nat.lt_one_iff] at h
    rw [h]
    rfl
  | succ n ih =>
    have hbyte : (UInt8.ofNat (v % 256)).toNat = v % 256 :=
      Nat.mod_eq_of_lt (Nat.mod_lt v (by decide))
    have hhigh : v / 256 < 2 ^ (8 * n) := by
      rw [Nat.div_lt_iff_lt_mul (by decide)]
      exact h.trans_eq (by rw [Nat.mul_succ, pow_add, show 2 ^ 8 = 256 from rfl])
    have hrest := ih hhigh
    unfold leNat at hrest ⊢
    rw [leBytes, List.map_cons, Nat.ofDigits_cons, hbyte, hrest]
    exact Nat.mod_add_div v 256

def Nwk.toBytes (nwk : Nwk) : Bytes := leBytes 2 nwk.val

def PanId.toBytes (panId : PanId) : Bytes := leBytes 2 panId.val

/-- Over-the-air order. -/
def Eui64.toBytes (eui64 : Eui64) : Bytes := leBytes 8 eui64.val

def Key.toBytes (key : Key) : Bytes := leBytes 16 key.val

/-- The key with the 16 bytes given. -/
def Key.ofBytes (bytes : Bytes) : Key := Fin.ofNat _ (leNat bytes)

@[simp] theorem Nwk.length_toBytes (nwk : Nwk) : (Nwk.toBytes nwk).length = 2 := length_leBytes 2 _

@[simp] theorem Eui64.length_toBytes (eui64 : Eui64) : (Eui64.toBytes eui64).length = 8 :=
  length_leBytes 8 _

/-! ## Frame buffers -/

/-- `aMaxPhyPacketSize`: a full 802.15.4 frame, FCS included. -/
def maxPhyPacketSize : Nat := 127

/-- A byte buffer that holds at most one frame. -/
structure FrameBytes where
  bytes : Bytes
  bound : bytes.length ≤ maxPhyPacketSize
  deriving DecidableEq

/-- `FrameBytes::from_slice`. -/
def FrameBytes.fromSlice (bytes : Bytes) : Option FrameBytes :=
  if h : bytes.length ≤ maxPhyPacketSize then some ⟨bytes, h⟩ else none

theorem FrameBytes.fromSlice_eq {bytes : Bytes} (h : bytes.length ≤ maxPhyPacketSize) :
    fromSlice bytes = some ⟨bytes, h⟩ :=
  dif_pos h

theorem FrameBytes.fromSlice_eq_none {bytes : Bytes} (h : maxPhyPacketSize < bytes.length) :
    fromSlice bytes = none :=
  dif_neg (by omega)

theorem FrameBytes.bytes_fromSlice {bytes : Bytes} {buffer : FrameBytes}
    (h : fromSlice bytes = some buffer) : buffer.bytes = bytes := by
  unfold fromSlice at h
  split at h
  next => cases h; rfl
  next => cases h

/-- `FrameBytes::truncate`. -/
def FrameBytes.truncate (buffer : FrameBytes) (n : Nat) : FrameBytes where
  bytes := buffer.bytes.take n
  bound := (List.length_take_le' _ _).trans buffer.bound

/-- `FrameBytes::from_slice(bytes).map_err(|_| err)?`. -/
def FrameBytes.fromSliceOr {ε : Type} (bytes : Bytes) (err : ε) : Parse ε FrameBytes :=
  match fromSlice bytes with
  | some buffer => pure buffer
  | none => throw err

theorem FrameBytes.fromSliceOr_bytes {ε : Type} (buffer : FrameBytes) (err : ε) :
    fromSliceOr buffer.bytes err = pure buffer := by
  unfold fromSliceOr
  rw [fromSlice_eq buffer.bound]

theorem FrameBytes.fromSliceOr_returns {ε : Type} (bytes : Bytes) (err : ε) :
    Parse.Returns (fromSliceOr bytes err) (fun _ => True) := by
  unfold fromSliceOr
  cases fromSlice bytes with
  | some buffer => exact .pure trivial
  | none => exact .throw err

/-! ## Parsing -/

/-- Failure to parse an 802.15.4 frame or one of its fields off the wire. -/
inductive Ieee802154.ParseError where
  | unexpectedEnd (ty : String)
  | invalidLength (ty : String)
  | invalidDiscriminant (ty : String) (got : UInt8)
  | invalidFcs
  | unsupported (what : String)
  | bits (err : ReadError)
  deriving DecidableEq, Repr

/-- The parser of a little-endian integer of `width` bytes. -/
def deserializeLe (width : Nat) (ty : String) (bytes : Bytes) :
    Parse Ieee802154.ParseError (Fin (2 ^ (8 * width)) × Bytes) := do
  Parse.check (width ≤ bytes.length) (.unexpectedEnd ty)
  let head ← bytes.sliceTo width
  let rest ← bytes.sliceFrom width
  return (Fin.ofNat _ (leNat head), rest)

def Nwk.deserialize : Bytes → Parse Ieee802154.ParseError (Nwk × Bytes) := deserializeLe 2 "Nwk"

def PanId.deserialize : Bytes → Parse Ieee802154.ParseError (PanId × Bytes) :=
  deserializeLe 2 "PanId"

def Eui64.deserialize : Bytes → Parse Ieee802154.ParseError (Eui64 × Bytes) :=
  deserializeLe 8 "Eui64"

theorem deserializeLe_returns (width : Nat) (ty : String) (bytes : Bytes) :
    Parse.Returns (deserializeLe width ty bytes)
      (fun r => bytes.length = width + r.2.length) := by
  refine .bind (.check _) (fun _ hlen => ?_)
  refine .bind (.sliceTo hlen) (fun head _ => ?_)
  exact .bind (.sliceFrom hlen) (fun rest hrest => .pure hrest)

/-- An integer is parsed back. -/
theorem deserializeLe_leBytes (width : Nat) (ty : String) (v : Fin (2 ^ (8 * width)))
    (rest : Bytes) : deserializeLe width ty (leBytes width v.val ++ rest) = pure (v, rest) := by
  have hlen : (leBytes width v.val).length = width := length_leBytes width v.val
  have hroom : width ≤ (leBytes width v.val ++ rest).length := by
    rw [List.length_append, hlen]
    exact Nat.le_add_right _ _
  rw [deserializeLe, Parse.check_of hroom, pure_bind, Bytes.sliceTo_eq hroom, Parse.liftM_ok,
    pure_bind, Bytes.sliceFrom_eq hroom, Parse.liftM_ok, pure_bind, List.take_left' hlen,
    List.drop_left' hlen, leNat_leBytes v.isLt]
  congr 2
  exact Fin.ext (Nat.mod_eq_of_lt v.isLt)

/-- `u16::from_le_bytes` of the two bytes at `i`. -/
def Bytes.u16At (bytes : Bytes) (i : Nat) : Checked UInt16 := do
  return UInt16.ofNat (leNat [← bytes.index i, ← bytes.index (i + 1)])

/-- `u32::from_le_bytes` of the four bytes at `i`. -/
def Bytes.u32At (bytes : Bytes) (i : Nat) : Checked UInt32 := do
  return UInt32.ofNat (leNat [← bytes.index i, ← bytes.index (i + 1), ← bytes.index (i + 2),
    ← bytes.index (i + 3)])

theorem Parse.Returns.u16At {ε : Type} {bytes : Bytes} {i : Nat} (h : i + 1 < bytes.length) :
    Returns (liftM (bytes.u16At i) : Parse ε UInt16) (fun _ => True) := by
  refine .lift (a := UInt16.ofNat (leNat [bytes[i], bytes[i + 1]])) ?_ trivial
  rw [Bytes.u16At, Bytes.index_eq (by omega), Checked.ok_bind, Bytes.index_eq h]
  rfl

theorem Parse.Returns.u32At {ε : Type} {bytes : Bytes} {i : Nat} (h : i + 3 < bytes.length) :
    Returns (liftM (bytes.u32At i) : Parse ε UInt32) (fun _ => True) := by
  refine .lift (a := UInt32.ofNat
    (leNat [bytes[i], bytes[i + 1], bytes[i + 2], bytes[i + 3]])) ?_ trivial
  rw [Bytes.u32At, Bytes.index_eq (by omega), Checked.ok_bind, Bytes.index_eq (by omega),
    Checked.ok_bind, Bytes.index_eq (by omega), Checked.ok_bind, Bytes.index_eq h]
  rfl

/-! ## Packed structures -/

/-- A `u8` field. -/
def u8 : Codec UInt8 :=
  (Codec.uint 8).imap UInt8.ofFin UInt8.toFin (fun _ => rfl) (fun _ => rfl)

theorem fixed_u8 : u8.Fixed 8 := (Codec.fixed_uint 8).imap

/-- `T::from_abstract_bytes`. -/
def fromAbstractBytes {α : Type} (c : Codec α) (bytes : Bytes) : Except ReadError α :=
  (c.readBytes bytes).map Prod.fst

/-- `extend_abstract_bits`: write through a scratch buffer of one frame. -/
def extendAbstractBits {α : Type} (bytes : Bytes) (c : Codec α) (value : α) : Checked Bytes :=
  match c.writeBytes value with
  | some written =>
    if written.length ≤ maxPhyPacketSize then .ok (bytes ++ written) else .error .unwrap
  | none => .error .unwrap

/-- A structure that fits the scratch buffer is appended. -/
theorem extendAbstractBits_eq {α : Type} {c : Codec α} {value : α} {written : Bytes}
    (hwritten : c.writeBytes value = some written) (hfits : written.length ≤ maxPhyPacketSize)
    (bytes : Bytes) : extendAbstractBits bytes c value = .ok (bytes ++ written) := by
  simp [extendAbstractBits, hwritten, hfits]

/-- A structure is parsed back. -/
theorem fromAbstractBytes_append {α : Type} {c : Codec α} {value : α} {written : Bytes}
    (hwritten : c.writeBytes value = some written) (rest : Bytes) :
    fromAbstractBytes c (written ++ rest) = .ok value := by
  rw [fromAbstractBytes, Codec.readBytes_writeBytes hwritten]
  rfl

/-- A structure of a fixed width adds its bytes. -/
theorem extendAbstractBits_fixed {α : Type} {c : Codec α} {k : Nat} (hc : c.Fixed k)
    (hfits : bytesFor k ≤ maxPhyPacketSize) (bytes : Bytes) (value : α) :
    ∃ bytes', extendAbstractBits bytes c value = .ok bytes' ∧
      bytes'.length = bytes.length + bytesFor k := by
  obtain ⟨written, hwritten, hlen⟩ := hc.writeBytes value
  refine ⟨bytes ++ written, extendAbstractBits_eq hwritten (hlen ▸ hfits) bytes, ?_⟩
  rw [List.length_append, hlen]

end Ziggurat
