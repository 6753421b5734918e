import Mathlib.Data.List.Basic

/-!
# AES-128 and CCM

The block cipher of FIPS 197, one block at a time, and the CCM mode of RFC 3610 over any
block cipher, with a nonce of 13 bytes and a MIC of 4.

A block is computed on numbers below 256.  The state has the bytes column by column, as
they come.

`ccmDecrypt_ccmEncrypt` is the property a protocol relies on: what was encrypted is
decrypted again under the same nonce and associated data.  It needs nothing of the block
cipher, since the key stream is the same both times.
-/

namespace Ziggurat.Lib.AesCcm

/-! ## AES-128 -/

/-- The substitution box, 32 entries to a row, the first one lowest. -/
def sboxRows : List Nat := [
  0xc072a49cafa2d4adf04759fa7dc982ca76abd7fe2b670130c56f6bf27b777c63,
  0x75b227ebe28012079a059618c323c7041531d871f1e5a534ccf73f362693fdb7,
  0xcf584c4a39becb6a5bb1fc20ed00d153842fe329b3d63b52a05a6e1b1a2c8309,
  0xd2f3ff1021dab6bcf5389d928f40a351a89f3c507f02f94585334d43fbaaefd0,
  0xdb0b5ede14b8ee4688902a22dc4f816073195d643d7ea7c41744975fec130ccd,
  0x08ae7a65eaf4566ca94ed58d6d37c8e779e4959162acd3c25c2406490a3a32e0,
  0x9e1dc186b95735610ef6034866b53e708a8bbd4b1f74dde8c6b4a61c2e2578ba,
  0x16bb54b00f2d99416842e6bf0d89a18cdf2855cee9871e9b948ed9691198f8e1]

def sbox (b : Nat) : Nat := (sboxRows.getD (b / 32) 0 >>> (8 * (b % 32))) % 256

/-- Multiplication by `x` in the field of 256 elements. -/
def xtime (b : Nat) : Nat := if 2 * b < 256 then 2 * b else 2 * b ^^^ 0x11b

def xorBytes (l l' : List Nat) : List Nat := List.zipWith (· ^^^ ·) l l'

/-- The round key after `key`. -/
def nextKey (key : List Nat) (rcon : Nat) : List Nat :=
  let word (i : Nat) := (key.drop (4 * i)).take 4
  let rotated := ((word 3).drop 1 ++ (word 3).take 1).map sbox
  let w0 := xorBytes (xorBytes (word 0) rotated) [rcon, 0, 0, 0]
  let w1 := xorBytes (word 1) w0
  let w2 := xorBytes (word 2) w1
  let w3 := xorBytes (word 3) w2
  w0 ++ w1 ++ w2 ++ w3

def shiftRows (state : List Nat) : List Nat :=
  (List.range 16).map fun i => state.getD ((i + 4 * (i % 4)) % 16) 0

def mixColumns (state : List Nat) : List Nat :=
  (List.range 16).map fun i =>
    let row (k : Nat) := state.getD (4 * (i / 4) + (i + k) % 4) 0
    xtime (row 0) ^^^ xtime (row 1) ^^^ row 1 ^^^ row 2 ^^^ row 3

/-- A round, with the key that comes before it. -/
def round (s : List Nat × List Nat) (rcon : Nat) : List Nat × List Nat :=
  let key := nextKey s.2 rcon
  (xorBytes (mixColumns (shiftRows (s.1.map sbox))) key, key)

/-- The cipher on a block of 16 bytes.  A list that is not a block is left as it is. -/
def aes128 (key block : List UInt8) : List UInt8 :=
  if block.length = 16 then
    let key := key.map UInt8.toNat
    let (state, key) := [0x01, 0x02, 0x04, 0x08, 0x10, 0x20, 0x40, 0x80, 0x1b].foldl round
      (xorBytes (block.map UInt8.toNat) key, key)
    let state := xorBytes (shiftRows (state.map sbox)) (nextKey key 0x36)
    (List.range 16).map fun i => UInt8.ofNat (state.getD i 0)
  else block

theorem length_aes128 (key block : List UInt8) : (aes128 key block).length = block.length := by
  unfold aes128
  split
  next h => rw [List.length_map, List.length_range, h]
  next => rfl

/-! ## CCM -/

section

variable (cipher : List UInt8 → List UInt8)

/-- A list cut into blocks, the last one padded with zeros. -/
def blocksOf (l : List UInt8) : List (List UInt8) :=
  (List.range ((l.length + 15) / 16)).map fun i =>
    ((l.drop (16 * i)).take 16 ++ List.replicate 16 0).take 16

/-- The two bytes of a length or a counter, highest first. -/
def be16 (n : Nat) : List UInt8 := [UInt8.ofNat (n / 256), UInt8.ofNat n]

/-- The CBC-MAC of the lengths, the associated data and the payload. -/
def ccmMac (nonce auth payload : List UInt8) : List UInt8 :=
  let flags : UInt8 := if auth = [] then 0x09 else 0x49
  let first := flags :: nonce ++ be16 payload.length
  let header := if auth = [] then [] else blocksOf (be16 auth.length ++ auth)
  (first :: header ++ blocksOf payload).foldl
    (fun mac block => cipher (List.zipWith (· ^^^ ·) mac block)) (List.replicate 16 0)

/-- A block of the key stream. -/
def ccmBlock (nonce : List UInt8) (i : Nat) : List UInt8 := cipher (0x01 :: nonce ++ be16 i)

/-- The key stream for a payload of `n` bytes. -/
def ccmStream (nonce : List UInt8) (n : Nat) : List UInt8 :=
  ((List.range ((n + 15) / 16)).flatMap fun i => ccmBlock cipher nonce (i + 1)) ++
    List.replicate n 0

/-- The payload under the key stream. -/
def ccmMask (nonce payload : List UInt8) : List UInt8 :=
  List.zipWith (· ^^^ ·) payload (ccmStream cipher nonce payload.length)

def ccmMic (nonce auth payload : List UInt8) : List UInt8 :=
  let mac := ccmMac cipher nonce auth payload
  let block := ccmBlock cipher nonce 0
  (List.range 4).map fun i => mac.getD i 0 ^^^ block.getD i 0

/-- The ciphertext and the MIC. -/
def ccmEncrypt (nonce auth payload : List UInt8) : List UInt8 × List UInt8 :=
  (ccmMask cipher nonce payload, ccmMic cipher nonce auth payload)

/-- The payload, if the MIC is the one of it. -/
def ccmDecrypt (nonce auth ciphertext mic : List UInt8) : Option (List UInt8) :=
  let payload := ccmMask cipher nonce ciphertext
  if mic = ccmMic cipher nonce auth payload then some payload else none

end

section

variable {cipher : List UInt8 → List UInt8} {nonce auth : List UInt8}

theorem length_ccmStream_le (nonce : List UInt8) (n : Nat) :
    n ≤ (ccmStream cipher nonce n).length := by
  rw [ccmStream, List.length_append, List.length_replicate]
  exact Nat.le_add_left _ _

@[simp] theorem length_ccmMask (payload : List UInt8) :
    (ccmMask cipher nonce payload).length = payload.length := by
  rw [ccmMask, List.length_zipWith]
  exact Nat.min_eq_left (length_ccmStream_le _ _)

@[simp] theorem length_ccmMic (payload : List UInt8) :
    (ccmMic cipher nonce auth payload).length = 4 := by
  simp [ccmMic]

theorem zipWith_xor_twice {l stream : List UInt8} (h : l.length ≤ stream.length) :
    List.zipWith (· ^^^ ·) (List.zipWith (· ^^^ ·) l stream) stream = l := by
  induction l generalizing stream with
  | nil => rfl
  | cons b l ih =>
    cases stream with
    | nil => simp at h
    | cons k stream =>
      simp only [List.zipWith_cons_cons, List.length_cons, Nat.add_le_add_iff_right] at h ⊢
      rw [ih h, UInt8.xor_assoc, UInt8.xor_self, UInt8.xor_zero]

/-- The mask is its own inverse. -/
theorem ccmMask_ccmMask (payload : List UInt8) :
    ccmMask cipher nonce (ccmMask cipher nonce payload) = payload := by
  conv_lhs => rw [ccmMask, length_ccmMask, ccmMask]
  exact zipWith_xor_twice (length_ccmStream_le _ _)

/-- What was encrypted is decrypted. -/
theorem ccmDecrypt_ccmEncrypt (payload : List UInt8) :
    ccmDecrypt cipher nonce auth (ccmEncrypt cipher nonce auth payload).1
      (ccmEncrypt cipher nonce auth payload).2 = some payload := by
  simp [ccmDecrypt, ccmEncrypt, ccmMask_ccmMask]

theorem length_ccmDecrypt {ciphertext mic payload : List UInt8}
    (h : ccmDecrypt cipher nonce auth ciphertext mic = some payload) :
    payload.length = ciphertext.length := by
  simp only [ccmDecrypt, Option.ite_none_right_eq_some, Option.some.injEq] at h
  rw [← h.2, length_ccmMask]

end

end Ziggurat.Lib.AesCcm
