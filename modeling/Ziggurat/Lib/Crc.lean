import Mathlib.Data.List.Basic

/-!
# Bit-serial CRCs

A reflected CRC divides the message by a polynomial, one bit at a time, lowest bit first.  The
register holds the remainder; a bit of the message is added to its lowest bit, which then decides
whether the polynomial is subtracted.

`feed` is one bit and `stream` a string of bits, for a register of any width and any polynomial.
Two facts are enough for the usual implementations.  `stream_xor`: the register and the message
enter linearly.  `stream_self`: a register that is fed its own bits only moves down, so that a
message with its CRC behind it leaves nothing.
-/

namespace Ziggurat.Lib.Crc

/-- The lowest `n` bits of a number, lowest first. -/
def lsbFirst (n x : Nat) : List Bool := (List.range n).map x.testBit

theorem lsbFirst_add (m n x : Nat) : lsbFirst (m + n) x = lsbFirst m x ++ lsbFirst n (x >>> m) := by
  unfold lsbFirst
  rw [List.range_add, List.map_append, List.map_map]
  congr 1
  apply List.map_congr_left
  intro i _
  exact (Nat.testBit_shiftRight x).symm

theorem lsbFirst_congr {n x y : Nat} (h : ∀ i < n, x.testBit i = y.testBit i) :
    lsbFirst n x = lsbFirst n y :=
  List.map_congr_left fun i hi => h i (List.mem_range.mp hi)

theorem lsbFirst_xor (n x y : Nat) :
    lsbFirst n (x ^^^ y) = List.zipWith xor (lsbFirst n x) (lsbFirst n y) := by
  unfold lsbFirst
  rw [List.zipWith_map, List.zipWith_self]
  apply List.map_congr_left
  intro i _
  exact Nat.testBit_xor x y i

variable {w : Nat} (poly : BitVec w)

/-- One bit of the message. -/
def feed (crc : BitVec w) (bit : Bool) : BitVec w :=
  if crc.getLsbD 0 ^^ bit then (crc >>> 1) ^^^ poly else crc >>> 1

/-- The register after a string of bits. -/
def stream (crc : BitVec w) (bits : List Bool) : BitVec w := bits.foldl (feed poly) crc

/-- The CRC of a string of bits, from a register that is zero. -/
def crc (bits : List Bool) : BitVec w := stream poly 0#w bits

theorem stream_append (crc : BitVec w) (bits bits' : List Bool) :
    stream poly crc (bits ++ bits') = stream poly (stream poly crc bits) bits' :=
  List.foldl_append

theorem feed_xor (a b : BitVec w) (s t : Bool) :
    feed poly (a ^^^ b) (s ^^ t) = feed poly a s ^^^ feed poly b t := by
  have hbit : ((a ^^^ b).getLsbD 0 ^^ (s ^^ t)) = ((a.getLsbD 0 ^^ s) ^^ (b.getLsbD 0 ^^ t)) := by
    rw [BitVec.getLsbD_xor]
    cases a.getLsbD 0 <;> cases b.getLsbD 0 <;> cases s <;> cases t <;> rfl
  unfold feed
  rw [hbit, BitVec.ushiftRight_xor_distrib]
  apply BitVec.eq_of_getLsbD_eq
  intro i _
  -- the polynomial is subtracted twice, once or not at all
  cases a.getLsbD 0 ^^ s <;> cases b.getLsbD 0 ^^ t <;>
    simp only [Bool.xor_self, Bool.xor_false, Bool.false_xor, Bool.false_eq_true, if_true, if_false,
      BitVec.getLsbD_xor] <;>
    cases (a >>> 1).getLsbD i <;> cases (b >>> 1).getLsbD i <;> cases poly.getLsbD i <;> rfl

/-- The register and the message enter linearly. -/
theorem stream_xor (a b : BitVec w) (n x y : Nat) :
    stream poly (a ^^^ b) (lsbFirst n (x ^^^ y)) =
      stream poly a (lsbFirst n x) ^^^ stream poly b (lsbFirst n y) := by
  rw [lsbFirst_xor]
  unfold lsbFirst stream
  generalize List.range n = positions
  induction positions generalizing a b with
  | nil => rfl
  | cons i positions ih =>
    rw [List.map_cons, List.map_cons, List.zipWith_cons_cons, List.foldl_cons, feed_xor]
    exact ih (feed poly a (x.testBit i)) (feed poly b (y.testBit i))

/-- A register that is fed its own bits moves down. -/
theorem stream_self (crc : BitVec w) (n : Nat) :
    stream poly crc (lsbFirst n crc.toNat) = crc >>> n := by
  induction n with
  | zero => exact (BitVec.ushiftRight_zero crc).symm
  | succ n ih =>
    rw [lsbFirst_add, stream_append, ih, BitVec.shiftRight_add]
    -- the bit is the one that the register has come to
    have hbit : (crc >>> n).getLsbD 0 = (crc.toNat >>> n).testBit 0 := by
      rw [BitVec.getLsbD, BitVec.toNat_ushiftRight]
    change feed poly (crc >>> n) ((crc.toNat >>> n).testBit 0) = crc >>> n >>> 1
    rw [feed, hbit, Bool.xor_self, if_neg Bool.false_ne_true]

/-- The next `n` bits act on the register through its own lowest `n` bits. -/
theorem stream_lsbFirst (crc : BitVec w) (n x : Nat) :
    stream poly crc (lsbFirst n x) =
      (crc >>> n) ^^^ stream poly 0#w (lsbFirst n (crc.toNat ^^^ x)) := by
  have hsplit := stream_xor poly crc 0#w n crc.toNat (crc.toNat ^^^ x)
  rw [BitVec.xor_zero, ← Nat.xor_assoc, Nat.xor_self, Nat.zero_xor] at hsplit
  rw [hsplit, stream_self]

/-- A message with its CRC behind it leaves nothing. -/
theorem crc_append_self (bits : List Bool) :
    crc poly (bits ++ lsbFirst w (crc poly bits).toNat) = 0#w := by
  unfold crc
  rw [stream_append, stream_self]
  exact BitVec.ushiftRight_eq_zero (Nat.le_refl w)

end Ziggurat.Lib.Crc
