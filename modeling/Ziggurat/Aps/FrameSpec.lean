import Ziggurat.Aps.Secured
import Ziggurat.Nwk.FrameSpec

/-!
# Sizes of APS frames, and their parsers

The headers of an APS frame are short, so serializing one never fails, and the lengths
add up to the size of a frame.  Securing a payload can fail in one place: a plaintext
without room for the MIC.

On the way in, every parser checks the length before it indexes, and a ciphertext that
was parsed fits a frame.  So `parseApsFrame` and the three `decrypt` functions return a
frame or an error for every input.
-/

namespace Ziggurat

open Lib.BitCodec

/-! ## Sizes -/

/-- The bytes of a data header. -/
def ApsDataHeader.size (header : ApsDataHeader) : Nat :=
  7 + (optionBytes u16Bytes header.groupId).length + header.destinationEndpoint.toList.length

theorem ApsDataHeader.toBytes_eq_ok (header : ApsDataHeader) :
    ∃ bytes, header.toBytes = .ok bytes ∧ bytes.length = header.size := by
  obtain ⟨control, hcontrol, hlen⟩ := extendAbstractBits_fixed ApsFrameControl.fixed_codec
    (by decide) [] header.frameControl
  refine ⟨_, by rw [toBytes, serializeInto, hcontrol, Checked.ok_bind]; rfl, ?_⟩
  have hone : bytesFor 8 = 1 := rfl
  simp only [List.length_append, length_u16Bytes, List.length_cons, List.length_nil, hlen, hone,
    size]
  omega

theorem ApsDataFrame.toBytes_eq_ok (frame : ApsDataFrame) :
    ∃ bytes, frame.toBytes = .ok bytes ∧
      bytes.length = frame.toApsDataHeader.size + frame.asdu.bytes.length := by
  obtain ⟨header, hheader, hlen⟩ := frame.toApsDataHeader.toBytes_eq_ok
  refine ⟨header ++ frame.asdu.bytes, by rw [toBytes, hheader]; rfl, ?_⟩
  rw [List.length_append, hlen]

theorem ApsAckFrame.toBytes_eq_ok (frame : ApsAckFrame) : ∃ bytes, frame.toBytes = .ok bytes := by
  obtain ⟨control, hcontrol, -⟩ := extendAbstractBits_fixed ApsAckFrameControl.fixed_codec
    (by decide) [] frame.frameControl
  exact ⟨_, by rw [toBytes, hcontrol, Checked.ok_bind]; rfl⟩

theorem apsCommandHeaderToBytes_eq_ok (frameControl : ApsFrameControl) (counter : UInt8) :
    ∃ bytes, apsCommandHeaderToBytes frameControl counter = .ok bytes := by
  obtain ⟨control, hcontrol, -⟩ := extendAbstractBits_fixed ApsFrameControl.fixed_codec
    (by decide) [] frameControl
  exact ⟨_, by rw [apsCommandHeaderToBytes, hcontrol, Checked.ok_bind]; rfl⟩

namespace ApsAuxHeader

/-- The bytes of an auxiliary header. -/
def size (header : ApsAuxHeader) : Nat :=
  5 + (optionBytes Eui64.toBytes header.extendedSource).length +
    header.keySequenceNumber.toList.length

theorem serializeInto_eq_ok (header : ApsAuxHeader) (bytes : Bytes) :
    ∃ bytes', header.serializeInto bytes = .ok bytes' ∧
      bytes'.length = bytes.length + header.size := by
  obtain ⟨control, hcontrol, hlen⟩ := header.securityControl.toBytes_eq_ok
  refine ⟨_, by rw [serializeInto, hcontrol, Checked.ok_bind]; rfl, ?_⟩
  simp only [List.length_append, length_leBytes, hlen, size]
  omega

theorem getNonce_eq_ok (header : ApsAuxHeader) (source : Eui64) :
    ∃ nonce, header.getNonce source = .ok nonce := by
  obtain ⟨control, hcontrol, -⟩ := header.securityControl.toBytes_eq_ok
  exact ⟨_, by rw [getNonce, hcontrol, Checked.ok_bind]; rfl⟩

end ApsAuxHeader

/-! ## Securing a payload -/

section

variable {backend : CryptoBackend} {key : Key} {auxHeader : ApsAuxHeader}

/-- A frame-sized plaintext is handed to CCM*. -/
theorem encryptApsPayload_eq (backend : CryptoBackend) (key : Key) (header : Bytes)
    (plaintext : FrameBytes)
    (hsource : auxHeader.extendedSource.isSome = true) :
    ∃ nonce authData, encryptApsPayload backend key auxHeader header plaintext.bytes =
      encryptCcm backend key nonce authData plaintext := by
  obtain ⟨source, hsource⟩ := Option.isSome_iff_exists.mp hsource
  obtain ⟨nonce, hnonce⟩ := (auxHeader.getModified .encMic32).getNonce_eq_ok source
  obtain ⟨authData, hauth, -⟩ := (auxHeader.getModified .encMic32).serializeInto_eq_ok header
  refine ⟨nonce, authData, ?_⟩
  rw [encryptApsPayload, hsource, Checked.expect_some, Checked.ok_bind, hnonce, Checked.ok_bind,
    hauth, Checked.ok_bind, FrameBytes.fromSlice_eq plaintext.bound]
  rfl

/-- The bytes of a secured data frame. -/
def EncryptedApsDataFrame.size (frame : EncryptedApsDataFrame) : Nat :=
  frame.header.size + frame.auxHeader.size + frame.ciphertext.bytes.length

/-- An ASDU with room for the MIC is secured. -/
theorem ApsDataFrame.encrypt_eq_ok {frame : ApsDataFrame}
    (hsource : auxHeader.extendedSource.isSome = true)
    (hroom : frame.asdu.bytes.length + micLength ≤ maxPhyPacketSize) :
    ∃ encrypted, frame.encrypt backend key auxHeader = .ok encrypted ∧ encrypted.size =
      frame.toApsDataHeader.size + auxHeader.size + frame.asdu.bytes.length + micLength := by
  obtain ⟨header, hheader, -⟩ := frame.toApsDataHeader.toBytes_eq_ok
  obtain ⟨nonce, authData, heq⟩ := encryptApsPayload_eq backend key header
    frame.asdu hsource
  obtain ⟨ciphertext, hciphertext, hlen⟩ := encryptCcm_eq_ok backend key nonce authData
    hroom
  refine ⟨⟨frame.toApsDataHeader, auxHeader, ciphertext⟩, ?_, ?_⟩
  · rw [encrypt, hheader, Checked.ok_bind, heq, hciphertext]
    rfl
  · change frame.toApsDataHeader.size + auxHeader.size + ciphertext.bytes.length = _
    omega

/-- A ciphertext that fits a frame is decrypted or rejected. -/
theorem decryptApsPayload_returns (source : Eui64) (header : Bytes) (ciphertext : FrameBytes) :
    Parse.Returns (decryptApsPayload backend key auxHeader source header ciphertext.bytes)
      (fun _ => True) := by
  obtain ⟨nonce, hnonce⟩ := (auxHeader.getModified .encMic32).getNonce_eq_ok
    (auxHeader.extendedSource.getD source)
  obtain ⟨authData, hauth, -⟩ := (auxHeader.getModified .encMic32).serializeInto_eq_ok header
  refine .bind (.lift hnonce trivial) (fun _ (_ : True) => ?_)
  refine .bind (.lift hauth trivial) (fun _ (_ : True) => ?_)
  refine .bind (.lift (a := ciphertext) ?_ trivial) (fun _ (_ : True) => ?_)
  · rw [FrameBytes.fromSlice_eq ciphertext.bound]
    rfl
  · exact .mapError (decryptCcm_returns _ _ _ _)

end

/-! ## Parsing does not panic -/

/-- An acknowledgement is as long as its format needs. -/
theorem ApsAckFrame.fromBytes_returns (bytes : Bytes) :
    Parse.Returns (fromBytes bytes) (fun frame =>
      (if frame.frameControl.ackFormat then 2 else 8) ≤ bytes.length) := by
  refine .bind (.check _) (fun _ hne => ?_)
  refine .bind (.ofExcept (fun _ _ => trivial)) (fun control _ => ?_)
  have hpos : 1 ≤ bytes.length := List.length_pos_iff.mpr hne
  refine .bind (.sliceFrom hpos) (fun rest hrest => .bind (.check _) (fun _ _ => ?_))
  refine .ite (fun hformat => ?_) (fun hformat => ?_)
  · refine .bind (.check _) (fun _ hne' => ?_)
    have hpos' : 0 < rest.length := List.length_pos_iff.mpr hne'
    refine .bind (.index hpos') (fun _ _ => .pure ?_)
    simp only [hformat, if_true]
    omega
  · refine .bind (.check _) (fun _ hlen => ?_)
    refine .bind (.index (by omega)) (fun _ _ => .bind (.u16At (by omega)) (fun _ _ => ?_))
    refine .bind (.u16At (by omega)) (fun _ _ => .bind (.index (by omega)) (fun _ _ => ?_))
    refine .bind (.index (by omega)) (fun _ _ => .pure ?_)
    simp only [hformat]
    change 8 ≤ bytes.length
    omega

namespace ApsDataHeader

theorem parseDestination_returns (mode : ApsDeliveryMode) {remaining : Bytes}
    (h : 7 ≤ remaining.length) :
    Parse.Returns (parseDestination mode remaining) (fun r => 6 ≤ r.2.2.length) := by
  refine .ite (fun _ => ?_) (fun _ => ?_)
  · refine .bind (.check _) (fun _ hlen => .bind (.u16At (by omega)) (fun _ _ => ?_))
    refine .bind (.sliceFrom (by omega)) (fun rest hrest => .pure ?_)
    change 6 ≤ rest.length
    omega
  · refine .bind (.index (by omega)) (fun _ _ => ?_)
    refine .bind (.sliceFrom (by omega)) (fun rest hrest => .pure ?_)
    change 6 ≤ rest.length
    omega

theorem rejectExtendedHeader_returns (extendedHeader : Bool) (remaining : Bytes) :
    Parse.Returns (rejectExtendedHeader extendedHeader remaining) (fun _ => True) := by
  refine .ite (fun _ => ?_) (fun _ => .pure trivial)
  refine .bind (.ofExcept (fun _ _ => trivial)) (fun _ _ => ?_)
  exact .bind (.check _) (fun _ _ => .throw _)

theorem deserialize_returns (bytes : Bytes) :
    Parse.Returns (deserialize bytes) (fun _ => True) := by
  refine .bind (.check _) (fun _ hlen => .bind (.ofExcept (fun _ _ => trivial)) (fun _ _ => ?_))
  refine .bind (.sliceFrom (by omega)) (fun rest₁ h₁ => .bind (.check _) (fun _ _ => ?_))
  refine .bind (parseDestination_returns _ (by omega)) (fun ⟨_, _, rest₂⟩ h₂ => ?_)
  replace h₂ : 6 ≤ rest₂.length := h₂
  refine .bind (.u16At (by omega)) (fun _ _ => .bind (.u16At (by omega)) (fun _ _ => ?_))
  refine .bind (.index (by omega)) (fun _ _ => .bind (.index (by omega)) (fun _ _ => ?_))
  refine .bind (.sliceFrom (by omega)) (fun rest₃ _ => ?_)
  exact .bind (rejectExtendedHeader_returns _ _) (fun _ _ => .pure trivial)

end ApsDataHeader

theorem ApsDataFrame.fromBytes_returns (bytes : Bytes) :
    Parse.Returns (fromBytes bytes) (fun _ => True) :=
  .bind (ApsDataHeader.deserialize_returns bytes) (fun _ _ =>
    .bind (FrameBytes.fromSliceOr_returns _ _) (fun _ _ => .pure trivial))

theorem tryFromByte_returns {α : Type} (e : Codec.Enum 8 α) (ty : String) (byte : UInt8) :
    Parse.Returns (tryFromByte e ty byte) (fun _ => True) := by
  unfold tryFromByte
  cases e.ofDisc byte.toFin with
  | some a => exact .pure trivial
  | none => exact .throw _

theorem ApsTransportKeyCommandFrame.fromBytes_returns (bytes : Bytes) :
    Parse.Returns (fromBytes bytes) (fun _ => True) := by
  refine .bind (.check _) (fun _ hlen => .bind (.index (by omega)) (fun _ _ => ?_))
  refine .bind (tryFromByte_returns _ _ _) (fun keyType _ => ?_)
  refine .bind (.sliceFrom (by omega)) (fun body _ => ?_)
  cases keyType <;> exact .bind (.ofExcept (fun _ _ => trivial)) (fun _ _ => .pure trivial)

theorem ApsRequestKeyCommandFrame.fromBytes_returns (bytes : Bytes) :
    Parse.Returns (fromBytes bytes) (fun _ => True) := by
  refine .bind (.check _) (fun _ hne => ?_)
  have hpos : 0 < bytes.length := List.length_pos_iff.mpr hne
  refine .bind (.index hpos) (fun _ _ => .bind (tryFromByte_returns _ _ _) (fun keyType _ => ?_))
  cases keyType with
  | applicationLinkKey =>
    refine .bind (.sliceFrom hpos) (fun body _ => ?_)
    exact .bind (.mapError (deserializeLe_returns 8 _ body)) (fun _ _ => .pure trivial)
  | trustCenterLinkKey => exact .pure trivial

theorem ApsTunnelCommandFrame.fromBytes_returns (bytes : Bytes) :
    Parse.Returns (fromBytes bytes) (fun _ => True) :=
  .bind (.mapError (deserializeLe_returns 8 _ bytes)) (fun _ _ =>
    .bind (FrameBytes.fromSliceOr_returns _ _) (fun _ _ => .pure trivial))

theorem ApsCommandFrameCommand.parse_returns (commandId : ApsCommandId) (payload : Bytes) :
    Parse.Returns (parse commandId payload) (fun _ => True) := by
  cases commandId with
  | transportKey =>
    exact .bind (ApsTransportKeyCommandFrame.fromBytes_returns _) (fun _ _ => .pure trivial)
  | requestKey =>
    exact .bind (ApsRequestKeyCommandFrame.fromBytes_returns _) (fun _ _ => .pure trivial)
  | tunnel => exact .bind (ApsTunnelCommandFrame.fromBytes_returns _) (fun _ _ => .pure trivial)
  | updateDevice | removeDevice | switchKey | verifyKey | confirmKey =>
    exact .bind (.ofExcept (fun _ _ => trivial)) (fun _ _ => .pure trivial)
  | relayMessageDownstream | relayMessageUpstream => exact .throw _

theorem ApsCommandFrame.fromBytes_returns (bytes : Bytes) :
    Parse.Returns (fromBytes bytes) (fun _ => True) := by
  refine .bind (.check _) (fun _ hlen => .bind (.ofExcept (fun _ _ => trivial)) (fun _ _ => ?_))
  refine .bind (.sliceFrom (by omega)) (fun rest hrest => ?_)
  refine .bind (.index (by omega)) (fun _ _ => .bind (.index (by omega)) (fun _ _ => ?_))
  refine .bind (tryFromByte_returns _ _ _) (fun commandId _ => ?_)
  refine .bind (.sliceFrom (by omega)) (fun payload _ => ?_)
  exact .bind (ApsCommandFrameCommand.parse_returns _ _) (fun _ _ => .pure trivial)

theorem ApsAuxHeader.deserialize_returns (bytes : Bytes) :
    Parse.Returns (deserialize bytes) (fun _ => True) := by
  refine .bind (.check _) (fun _ hlen => .bind (.ofExcept (fun _ _ => trivial)) (fun _ _ => ?_))
  refine .bind (.sliceFrom (by omega)) (fun rest₁ h₁ => .bind (.u32At (by omega)) (fun _ _ => ?_))
  refine .bind (.sliceFrom (by omega)) (fun rest₂ _ => ?_)
  refine .bind (parseEui64If_returns _ _) (fun r₃ _ => .bind (Q := fun _ => True) ?_
    (fun _ _ => .pure trivial))
  refine .ite (fun _ => .bind (.check _) (fun _ hne => ?_)) (fun _ => .pure trivial)
  have hpos : 0 < r₃.2.length := List.length_pos_iff.mpr hne
  exact .bind (.index hpos) (fun _ _ => .bind (.sliceFrom hpos) (fun _ _ => .pure trivial))

theorem parseSecured_returns (remaining : Bytes) :
    Parse.Returns (parseSecured remaining) (fun _ => True) :=
  .bind (ApsAuxHeader.deserialize_returns remaining) (fun _ _ =>
    .bind (FrameBytes.fromSliceOr_returns _ _) (fun _ _ => .pure trivial))

theorem EncryptedApsCommandFrame.fromBytes_returns (bytes : Bytes) :
    Parse.Returns (fromBytes bytes) (fun _ => True) := by
  refine .bind (.check _) (fun _ hlen => .bind (.ofExcept (fun _ _ => trivial)) (fun _ _ => ?_))
  refine .bind (.index (by omega)) (fun _ _ => .bind (.sliceFrom (by omega)) (fun rest _ => ?_))
  exact .bind (parseSecured_returns rest) (fun _ _ => .pure trivial)

theorem EncryptedApsDataFrame.fromBytes_returns (bytes : Bytes) :
    Parse.Returns (fromBytes bytes) (fun _ => True) :=
  .bind (ApsDataHeader.deserialize_returns bytes) (fun _ _ =>
    .bind (parseSecured_returns _) (fun _ _ => .pure trivial))

theorem EncryptedApsAckFrame.fromBytes_returns (bytes : Bytes) :
    Parse.Returns (fromBytes bytes) (fun _ => True) :=
  .bind (ApsAckFrame.fromBytes_returns bytes) (fun _ hlen =>
    .bind (.sliceFrom hlen) (fun _ _ => .bind (parseSecured_returns _) (fun _ _ => .pure trivial)))

/-- Every byte string is an APS frame or rejected. -/
theorem parseApsFrame_returns (bytes : Bytes) :
    Parse.Returns (parseApsFrame bytes) (fun _ => True) := by
  refine .bind (.check _) (fun _ hne => ?_)
  refine .bind (.index (List.length_pos_iff.mpr hne)) (fun first _ => ?_)
  refine .bind (Q := fun _ => True) ?_ (fun frameType _ => ?_)
  · unfold ApsFrameType.tryFrom
    split
    · exact .pure trivial
    · exact .throw _
  generalize (first &&& 0b00100000 != 0) = security
  cases frameType with
  | interpan => exact .throw _
  | data =>
    cases security with
    | false => exact .bind (ApsDataFrame.fromBytes_returns _) (fun _ _ => .pure trivial)
    | true => exact .bind (EncryptedApsDataFrame.fromBytes_returns _) (fun _ _ => .pure trivial)
  | ack =>
    cases security with
    | false => exact .bind (ApsAckFrame.fromBytes_returns _) (fun _ _ => .pure trivial)
    | true => exact .bind (EncryptedApsAckFrame.fromBytes_returns _) (fun _ _ => .pure trivial)
  | command =>
    cases security with
    | false => exact .bind (ApsCommandFrame.fromBytes_returns _) (fun _ _ => .pure trivial)
    | true =>
      exact .bind (EncryptedApsCommandFrame.fromBytes_returns _) (fun _ _ => .pure trivial)

/-! ## Decryption does not panic -/

section

variable {backend : CryptoBackend}

theorem EncryptedApsCommandFrame.decrypt_returns (frame : EncryptedApsCommandFrame) (key : Key) :
    Parse.Returns (decrypt backend frame key) (fun _ => True) := by
  unfold decrypt
  cases frame.auxHeader.extendedSource with
  | none => exact .throw _
  | some source =>
    obtain ⟨header, hheader⟩ := apsCommandHeaderToBytes_eq_ok frame.frameControl frame.counter
    refine .bind (.lift hheader trivial) (fun _ (_ : True) => ?_)
    refine .bind (decryptApsPayload_returns _ _ _) (fun _ _ => ?_)
    exact ApsCommandFrame.fromBytes_returns _

theorem EncryptedApsDataFrame.decrypt_returns (frame : EncryptedApsDataFrame) (key : Key)
    (source : Eui64) : Parse.Returns (decrypt backend frame key source) (fun _ => True) := by
  obtain ⟨header, hheader, -⟩ := frame.header.toBytes_eq_ok
  refine .bind (.lift hheader trivial) (fun _ (_ : True) => ?_)
  exact .bind (decryptApsPayload_returns _ _ _) (fun _ _ => .pure trivial)

theorem EncryptedApsAckFrame.decrypt_returns (frame : EncryptedApsAckFrame) (key : Key)
    (source : Eui64) : Parse.Returns (decrypt backend frame key source) (fun _ => True) := by
  obtain ⟨header, hheader⟩ := frame.header.toBytes_eq_ok
  refine .bind (.lift hheader trivial) (fun _ (_ : True) => ?_)
  exact .bind (decryptApsPayload_returns _ _ _) (fun _ _ => .pure trivial)

end

end Ziggurat
