import Ziggurat.Ieee802154.Types
import Ziggurat.Lib.AesCcm

/-!
# Cryptography

`crypto.rs` builds on two primitives it does not implement: the AES-128 block cipher of
the installed backend, and the CCM mode of the `ccm` crate.  `CryptoBackend` has both as
functions, with what their documentation promises about lengths.  Where a result needs
more, that decryption takes back what was encrypted, it says so with `Inverts`.
`SoftwareBackend` is the backend of a host: AES-128, and CCM over it.

What the code does around the primitives is modelled as it is: CCM* appends a MIC of 4
bytes to a buffer that must have room for it, and its inverse splits the MIC off again.
The AES-MMO hash and its keyed form derive link keys from a seed.  `mmo_padding_sound` is about
the padding of the hash.
-/

namespace Ziggurat

/-- The primitives of the crypto crates. -/
structure CryptoBackend where
  /-- AES-128 of one block. -/
  aes128EncryptBlock : Bytes → Bytes → Bytes
  /-- `encrypt_inout_detached`: the ciphertext and the MIC. -/
  ccmEncrypt : Key → Bytes → Bytes → Bytes → Option (Bytes × Bytes)
  /-- `decrypt_inout_detached`: the plaintext, if the MIC is right. -/
  ccmDecrypt : Key → Bytes → Bytes → Bytes → Bytes → Option Bytes
  length_aes128EncryptBlock : ∀ key block, (aes128EncryptBlock key block).length = block.length
  /-- Only a payload beyond the limits of CCM is refused. -/
  isSome_ccmEncrypt : ∀ key nonce auth payload, payload.length < 2 ^ 16 →
    (ccmEncrypt key nonce auth payload).isSome = true
  length_ccmEncrypt : ∀ {key nonce auth payload ciphertext mic},
    ccmEncrypt key nonce auth payload = some (ciphertext, mic) →
      ciphertext.length = payload.length ∧ mic.length = 4
  length_ccmDecrypt : ∀ {key nonce auth ciphertext mic payload},
    ccmDecrypt key nonce auth ciphertext mic = some payload →
      payload.length = ciphertext.length

/-- Decryption takes back what was encrypted. -/
def CryptoBackend.Inverts (backend : CryptoBackend) : Prop :=
  ∀ {key nonce auth payload ciphertext mic},
    backend.ccmEncrypt key nonce auth payload = some (ciphertext, mic) →
      backend.ccmDecrypt key nonce auth ciphertext mic = some payload

def SoftwareBackend : CryptoBackend where
  aes128EncryptBlock := Lib.AesCcm.aes128
  ccmEncrypt key nonce auth payload :=
    some (Lib.AesCcm.ccmEncrypt (Lib.AesCcm.aes128 (Key.toBytes key)) nonce auth payload)
  ccmDecrypt key nonce auth ciphertext mic :=
    Lib.AesCcm.ccmDecrypt (Lib.AesCcm.aes128 (Key.toBytes key)) nonce auth ciphertext mic
  length_aes128EncryptBlock := Lib.AesCcm.length_aes128
  isSome_ccmEncrypt _ _ _ _ _ := rfl
  length_ccmEncrypt h := by
    cases h
    exact ⟨Lib.AesCcm.length_ccmMask _, Lib.AesCcm.length_ccmMic _⟩
  length_ccmDecrypt := Lib.AesCcm.length_ccmDecrypt

theorem SoftwareBackend.inverts : SoftwareBackend.Inverts := by
  intro key nonce auth payload ciphertext mic h
  cases h
  exact Lib.AesCcm.ccmDecrypt_ccmEncrypt payload

/-! ## CCM* -/

def micLength : Nat := 4

inductive DecryptionError where
  | invalidMacTag
  | ciphertextTooShort
  deriving DecidableEq, Repr

variable (backend : CryptoBackend)

/-- `encrypt_ccm`: the buffer is encrypted and the MIC is appended to it. -/
def encryptCcm (key : Key) (nonce authData : Bytes) (buffer : FrameBytes) :
    Checked FrameBytes := do
  let (ciphertext, mic) ← Checked.expect "frames are far below the CCM length limits"
    (backend.ccmEncrypt key nonce authData buffer.bytes)
  Checked.expect "a frame always has room for its MIC" (FrameBytes.fromSlice (ciphertext ++ mic))

/-- `decrypt_inout_detached` on a frame buffer: the plaintext replaces the ciphertext. -/
def decryptInout (key : Key) (nonce authData : Bytes) (ciphertext : FrameBytes) (mic : Bytes) :
    Option FrameBytes :=
  match h : backend.ccmDecrypt key nonce authData ciphertext.bytes mic with
  | none => none
  | some payload => some ⟨payload, (backend.length_ccmDecrypt h).trans_le ciphertext.bound⟩

/-- `decrypt_ccm`: verify the MIC and return the buffer truncated to the plaintext. -/
def decryptCcm (key : Key) (nonce authData : Bytes) (taggedCiphertext : FrameBytes) :
    Parse DecryptionError FrameBytes := do
  Parse.check (micLength ≤ taggedCiphertext.bytes.length) .ciphertextTooShort
  let ciphertextLen := taggedCiphertext.bytes.length - micLength
  let mic := taggedCiphertext.bytes.drop ciphertextLen
  Checked.ensure (mic.length = micLength) (.expect "the MIC is exactly MIC_LENGTH bytes")
  let ciphertext := taggedCiphertext.truncate ciphertextLen
  match decryptInout backend key nonce authData ciphertext mic with
  | none => throw .invalidMacTag
  | some payload => return payload

variable {backend}

variable (backend) in
/-- Encryption adds the MIC. -/
theorem encryptCcm_eq_ok (key : Key) (nonce authData : Bytes) {buffer : FrameBytes}
    (h : buffer.bytes.length + micLength ≤ maxPhyPacketSize) :
    ∃ ciphertext, encryptCcm backend key nonce authData buffer = .ok ciphertext ∧
      ciphertext.bytes.length = buffer.bytes.length + micLength := by
  have hsome := backend.isSome_ccmEncrypt key nonce authData buffer.bytes
    (lt_of_le_of_lt buffer.bound (by decide))
  obtain ⟨⟨ciphertext, mic⟩, hccm⟩ := Option.isSome_iff_exists.mp hsome
  obtain ⟨hciphertext, hmic⟩ := backend.length_ccmEncrypt hccm
  have hlen : (ciphertext ++ mic).length = buffer.bytes.length + micLength := by
    rw [List.length_append, hciphertext, hmic]
    rfl
  have hfits : (ciphertext ++ mic).length ≤ maxPhyPacketSize := hlen.trans_le h
  refine ⟨⟨ciphertext ++ mic, hfits⟩, ?_, hlen⟩
  simp only [encryptCcm, hccm, Checked.expect_some, Checked.ok_bind,
    FrameBytes.fromSlice_eq hfits]

/-- Decryption returns a plaintext or an error for every ciphertext. -/
theorem decryptCcm_returns (key : Key) (nonce authData : Bytes) (taggedCiphertext : FrameBytes) :
    Parse.Returns (decryptCcm backend key nonce authData taggedCiphertext) (fun _ => True) := by
  refine .bind (.check _) (fun _ hlen => ?_)
  refine .bind (.lift (Checked.ensure_of _ ?_) trivial) (fun _ (_ : True) => ?_)
  · rw [List.length_drop]
    omega
  · dsimp only
    split
    next => exact .throw _
    next payload _ => exact .pure (a := payload) trivial

theorem decryptInout_eq {key : Key} {nonce authData mic : Bytes} {ciphertext plaintext : FrameBytes}
    (h : backend.ccmDecrypt key nonce authData ciphertext.bytes mic = some plaintext.bytes) :
    decryptInout backend key nonce authData ciphertext mic = some plaintext := by
  unfold decryptInout
  split
  next hnone => rw [h] at hnone; cases hnone
  next payload hsome =>
    rw [h] at hsome
    obtain ⟨bytes, bound⟩ := plaintext
    cases hsome
    rfl

/-- A buffer is decrypted to the one that was encrypted. -/
theorem decryptCcm_encryptCcm (inverts : backend.Inverts) {key : Key} {nonce authData : Bytes}
    {buffer tagged : FrameBytes}
    (h : encryptCcm backend key nonce authData buffer = .ok tagged) :
    decryptCcm backend key nonce authData tagged = pure buffer := by
  obtain ⟨⟨ciphertext, mic⟩, hccm, htagged⟩ := Checked.bind_eq_ok.mp h
  replace hccm := Checked.expect_eq_ok.mp hccm
  replace htagged : tagged.bytes = ciphertext ++ mic :=
    FrameBytes.bytes_fromSlice (Checked.expect_eq_ok.mp htagged)
  have hmic : mic.length = micLength := (backend.length_ccmEncrypt hccm).2
  have hlen : tagged.bytes.length = ciphertext.length + micLength := by
    rw [htagged, List.length_append, hmic]
  have hsplit : tagged.bytes.length - micLength = ciphertext.length := by omega
  have hdrop : tagged.bytes.drop ciphertext.length = mic := by rw [htagged, List.drop_left]
  have htake : (tagged.truncate ciphertext.length).bytes = ciphertext := by
    change tagged.bytes.take ciphertext.length = ciphertext
    rw [htagged, List.take_left]
  have hplain : decryptInout backend key nonce authData (tagged.truncate ciphertext.length) mic =
      some buffer := decryptInout_eq (by rw [htake, inverts hccm])
  rw [decryptCcm, Parse.check_of (by omega), pure_bind]
  simp only [hsplit, hdrop]
  rw [Checked.ensure_of _ hmic, Parse.liftM_ok, pure_bind, hplain]

/-! ## Derived keys -/

/-- The loop of `aes_mmo_hash` that pads with zeros, for at most `fuel` rounds. -/
def padZeros : Nat → Bytes → Bytes
  | 0, padded => padded
  | fuel + 1, padded =>
    if padded.length % 16 ≠ 14 then padZeros fuel (padded ++ [0x00]) else padded

/-- `as_chunks::<16>().0`: the first `n` blocks. -/
def blocks : Nat → Bytes → List Bytes
  | 0, _ => []
  | n + 1, bytes => bytes.take 16 :: blocks n (bytes.drop 16)

/-- The padded message that `aes_mmo_hash` builds. -/
def padMessage (data : Bytes) : Bytes :=
  let bits := data.length * 8
  -- one round per residue of the length reaches 14
  padZeros 16 (data ++ [0x80]) ++ [UInt8.ofNat (bits / 256), UInt8.ofNat bits]

/-- The blocks that the loop of `aes_mmo_hash` visits. -/
def messageBlocks (data : Bytes) : List Bytes :=
  blocks ((padMessage data).length / 16) (padMessage data)

variable (backend) in
/-- `aes_mmo_hash`: the Matyas-Meyer-Oseas hash with the padding of short messages. -/
def aesMmoHash (data : Bytes) : Checked Bytes := do
  Checked.ensure (data.length < 8192) (.explicit "assertion failed: data.len() < 8192")
  return (messageBlocks data).foldl
    (fun digest block => (backend.aes128EncryptBlock digest block).zipWith (· ^^^ ·) block)
    (List.replicate 16 0)

variable (backend) in
/-- `keyed_hash`: HMAC with the AES-MMO hash. -/
def keyedHash (key : Key) (input : Bytes) : Checked Bytes := do
  let inner := (Key.toBytes key).map (· ^^^ 0x36) ++ input
  let digest ← aesMmoHash backend inner
  aesMmoHash backend ((Key.toBytes key).map (· ^^^ 0x5C) ++ digest)

variable (backend) in
/-- `verify_key_hash`: the proof that a device holds a link key. -/
def verifyKeyHash (linkKey : Key) : Checked Bytes := keyedHash backend linkKey [0x03]

/-- `zstack_tclk`: the rotated seed XORed with the address repeated twice. -/
def zstackTclk (seed : Key) (eui64 : Eui64) (shift : Nat) : Key :=
  let seedBytes := Key.toBytes seed
  let address := Eui64.toBytes eui64
  Key.ofBytes ((List.range 16).map fun i =>
    seedBytes.getD ((i + shift) % 16) 0 ^^^ address.getD (i % 8) 0)

variable (backend) in
/-- `ezsp_tclk`: the keyed hash of the address. -/
def ezspTclk (seed : Key) (eui64 : Eui64) : Checked Key :=
  Key.ofBytes <$> keyedHash backend seed (Eui64.toBytes eui64)

-- the vector of the specification for the keyed hash
example : keyedHash SoftwareBackend (Key.ofBytes ((List.range 16).map (UInt8.ofNat <| 0x40 + ·)))
    [0xC0] = .ok [0x45, 0x12, 0x80, 0x7B, 0xF9, 0x4C, 0xB3, 0x40, 0x0F, 0x0E, 0x2C, 0x25, 0xFB,
      0x76, 0xE9, 0x99] := by
  decide +kernel

theorem length_block_le {n : Nat} {bytes block : Bytes} (h : block ∈ blocks n bytes) :
    block.length ≤ 16 := by
  induction n generalizing bytes with
  | zero => cases h
  | succ n ih =>
    rcases List.mem_cons.mp h with rfl | h
    · exact List.length_take_le 16 bytes
    · exact ih h

section

variable (backend)

/-- The hash of a short message. -/
theorem aesMmoHash_eq_ok (data : Bytes) (h : data.length < 8192) :
    ∃ digest, aesMmoHash backend data = .ok digest ∧ digest.length ≤ 16 := by
  refine ⟨_, by rw [aesMmoHash, Checked.ensure_of _ h, Checked.ok_bind]; rfl, ?_⟩
  refine List.foldlRecOn _ _ (motive := fun digest : Bytes => digest.length ≤ 16) (le_refl 16)
    (fun digest _ block hblock => ?_)
  rw [List.length_zipWith]
  exact (Nat.min_le_right _ _).trans (length_block_le hblock)

theorem keyedHash_eq_ok (key : Key) (input : Bytes) (h : input.length < 8000) :
    ∃ digest, keyedHash backend key input = .ok digest := by
  have hkey (mask : UInt8) : ((Key.toBytes key).map (· ^^^ mask)).length = 16 := by
    rw [List.length_map, Key.toBytes, length_leBytes]
  obtain ⟨inner, hinner, hlen⟩ := aesMmoHash_eq_ok backend
    ((Key.toBytes key).map (· ^^^ 0x36) ++ input)
    (by rw [List.length_append, hkey]; omega)
  obtain ⟨outer, houter, -⟩ := aesMmoHash_eq_ok backend
    ((Key.toBytes key).map (· ^^^ 0x5C) ++ inner)
    (by rw [List.length_append, hkey]; omega)
  exact ⟨outer, by rw [keyedHash, hinner, Checked.ok_bind, houter]⟩

theorem verifyKeyHash_eq_ok (linkKey : Key) :
    ∃ digest, verifyKeyHash backend linkKey = .ok digest :=
  keyedHash_eq_ok backend linkKey [0x03] (by decide)

/-- Every device has a derived key. -/
theorem ezspTclk_eq_ok (seed : Key) (eui64 : Eui64) :
    ∃ key, ezspTclk backend seed eui64 = .ok key := by
  obtain ⟨digest, hdigest⟩ := keyedHash_eq_ok backend seed
    (Eui64.toBytes eui64) (by rw [Eui64.length_toBytes]; decide)
  exact ⟨Key.ofBytes digest, by rw [ezspTclk, hdigest]; rfl⟩

end

/-! ## Padding -/

/-- The number of zeros that the loop pushes: from the length to the next one that is 14 modulo
16. -/
def padGap (length : Nat) : Nat := (30 - length % 16) % 16

/-- With a round for each of its zeros, the loop ends. -/
theorem padZeros_eq {fuel : Nat} {bytes : Bytes} (h : padGap bytes.length ≤ fuel) :
    padZeros fuel bytes = bytes ++ List.replicate (padGap bytes.length) 0x00 := by
  unfold padGap at h ⊢
  induction fuel generalizing bytes with
  | zero =>
    rw [Nat.le_zero.mp h]
    exact (List.append_nil bytes).symm
  | succ fuel ih =>
    unfold padZeros
    by_cases hend : bytes.length % 16 = 14
    · rw [if_neg (not_not.mpr hend), hend]
      exact (List.append_nil bytes).symm
    · have hnext : (30 - (bytes ++ [0x00]).length % 16) % 16 + 1 =
          (30 - bytes.length % 16) % 16 := by
        rw [List.length_append, List.length_singleton]
        omega
      rw [if_pos hend, ih (by omega), ← hnext, List.append_assoc]
      rfl

theorem padZeros_of_le {fuel : Nat} (h : 15 ≤ fuel) (bytes : Bytes) :
    padZeros fuel bytes = bytes ++ List.replicate (padGap bytes.length) 0x00 := by
  apply padZeros_eq
  unfold padGap
  omega

theorem length_padZeros {fuel : Nat} (h : 15 ≤ fuel) (bytes : Bytes) :
    (padZeros fuel bytes).length % 16 = 14 := by
  rw [padZeros_of_le h, List.length_append, List.length_replicate, padGap]
  omega

theorem length_padMessage (data : Bytes) : (padMessage data).length % 16 = 0 := by
  have hpadded := length_padZeros (by decide : 15 ≤ 16) (data ++ [0x80])
  unfold padMessage
  rw [List.length_append]
  simp only [List.length_cons, List.length_nil]
  omega

/-- Blocks of a whole number of blocks leave nothing out. -/
theorem blocks_whole (n : Nat) {bytes : Bytes} (h : bytes.length = 16 * n) :
    (blocks n bytes).flatten = bytes ∧ ∀ block ∈ blocks n bytes, block.length = 16 := by
  induction n generalizing bytes with
  | zero =>
    rw [Nat.mul_zero] at h
    rw [List.eq_nil_of_length_eq_zero h]
    exact ⟨rfl, nofun⟩
  | succ n ih =>
    obtain ⟨hflatten, hblocks⟩ := @ih (bytes.drop 16) (by rw [List.length_drop]; omega)
    constructor
    · rw [blocks, List.flatten_cons, hflatten, List.take_append_drop]
    · intro block hblock
      rcases List.mem_cons.mp hblock with rfl | hblock
      · rw [List.length_take]
        omega
      · exact hblocks block hblock

theorem flatten_messageBlocks (data : Bytes) : (messageBlocks data).flatten = padMessage data :=
  (blocks_whole _ (by have := length_padMessage data; omega)).1

/-- The field at the end holds the number of bits. -/
theorem bitField_eq {bits : Nat} (h : bits < 2 ^ 16) :
    (UInt8.ofNat (bits / 256)).toNat * 256 + (UInt8.ofNat bits).toNat = bits := by
  rw [UInt8.toNat_ofNat_of_lt' (show bits / 256 < 256 by omega), UInt8.toNat_ofNat']
  omega

/-- The length of a message is in its padding, and then the message is its beginning. -/
theorem padMessage_injective {data data' : Bytes} (hdata : data.length < 8192)
    (hdata' : data'.length < 8192) (h : padMessage data = padMessage data') : data = data' := by
  unfold padMessage at h
  obtain ⟨hpadded, hfield⟩ := List.append_inj' h rfl
  have hlength : data.length = data'.length := by
    have hbits := bitField_eq (show data.length * 8 < 2 ^ 16 by omega)
    have hbits' := bitField_eq (show data'.length * 8 < 2 ^ 16 by omega)
    obtain ⟨hhigh, hlow⟩ := List.cons.inj hfield
    rw [hhigh, (List.cons.inj hlow).1] at hbits
    omega
  rw [padZeros_of_le (by decide), padZeros_of_le (by decide), List.append_assoc,
    List.append_assoc] at hpadded
  exact (List.append_inj hpadded hlength).1

/-- The padding of a short message.  Its loop ends, after fifteen rounds at most; the blocks are
all of the padded message; the field at the end holds the number of bits; the hash is computed
from these blocks; and no other short message has the same blocks. -/
theorem mmo_padding_sound (data : Bytes) (h : data.length < 8192) :
    (∀ fuel ≥ 15, padZeros fuel (data ++ [0x80]) = padZeros 15 (data ++ [0x80]) ∧
      (padZeros fuel (data ++ [0x80])).length % 16 = 14) ∧
    (padMessage data).length % 16 = 0 ∧
    (messageBlocks data).flatten = padMessage data ∧
    (∀ block ∈ messageBlocks data, block.length = 16) ∧
    data.length * 8 < 2 ^ 16 ∧
    (∃ padded high low, padMessage data = padded ++ [high, low] ∧
      high.toNat * 256 + low.toNat = data.length * 8) ∧
    (∀ backend, aesMmoHash backend data = .ok ((messageBlocks data).foldl
      (fun digest block => (backend.aes128EncryptBlock digest block).zipWith (· ^^^ ·) block)
      (List.replicate 16 0))) ∧
    ∀ data' : Bytes, data'.length < 8192 → data' ≠ data →
      messageBlocks data' ≠ messageBlocks data := by
  have hbits : data.length * 8 < 2 ^ 16 := by omega
  refine ⟨fun fuel hfuel => ⟨?_, length_padZeros hfuel _⟩, length_padMessage data,
    flatten_messageBlocks data, ?_, hbits, ⟨_, _, _, rfl, bitField_eq hbits⟩, fun backend => ?_,
    fun data' h' hne hblocks => hne ?_⟩
  · rw [padZeros_of_le hfuel, padZeros_of_le (Nat.le_refl 15)]
  · exact (blocks_whole _ (by have := length_padMessage data; omega)).2
  · rw [aesMmoHash, Checked.ensure_of _ h, Checked.ok_bind]
    rfl
  · apply padMessage_injective h' h
    rw [← flatten_messageBlocks, hblocks, flatten_messageBlocks]

/-- A message that ends in the byte of the padding. -/
theorem mmo_padding_sound_marker : messageBlocks [0x80] ≠ messageBlocks [] :=
  (mmo_padding_sound [] (by decide)).2.2.2.2.2.2.2 [0x80] (by decide) (by decide)

end Ziggurat
