import Ziggurat.Nwk.Frame

/-!
# Sizes of NWK frames, and their parser

Serializing a header can fail in one place only: a source route longer than the scratch
buffer.  `NwkHeader.serializeInto_eq_ok` says what is written if it fits, with the length.

A header that was parsed has a source route that fits, since it was read from a buffer
of one frame.  So a received frame is serialized again without a panic, which is what
`decrypt` does, and `decrypt_returns` follows for every frame with an auxiliary header
and an address for the nonce.
-/

namespace Ziggurat

open Lib.BitCodec

/-! ## Sizes -/

/-- The bytes of a source route. -/
def NwkSourceRoute.size (route : NwkSourceRoute) : Nat := 2 + 2 * route.relays.length

namespace NwkSourceRoute

theorem writeBytes_eq_some {route : NwkSourceRoute} (h : route.relays.length < 2 ^ 8) :
    ∃ w, codec.writeBytes route = some w ∧ w.length = route.size := by
  have hitem : Codec.Fixed Nwk.codec 16 := Codec.fixed_uint 16
  obtain ⟨w, hw, hlen⟩ :=
    ((Codec.fixed_uint 8).pair fixed_u8).counted hitem route.relayIndex h
  refine ⟨pack w, congrArg (Option.map pack) hw, ?_⟩
  rw [length_pack, hlen, bytesFor, size]
  omega

/-- A source route fits the scratch buffer or stops the code. -/
theorem extendAbstractBits_eq_ok {route : NwkSourceRoute} (h : route.size ≤ maxPhyPacketSize)
    (bytes : Bytes) : ∃ bytes', extendAbstractBits bytes codec route = .ok bytes' ∧
      bytes'.length = bytes.length + route.size := by
  have hrelays : route.relays.length < 2 ^ 8 := by
    rw [size, maxPhyPacketSize] at h
    omega
  obtain ⟨w, hw, hlen⟩ := writeBytes_eq_some hrelays
  refine ⟨bytes ++ w, extendAbstractBits_eq hw (hlen.trans_le h) bytes, ?_⟩
  rw [List.length_append, hlen]

/-- The count of the relays is a byte. -/
theorem length_relays_lt {route : NwkSourceRoute} {w : List Bool}
    (h : codec.write route = some w) : route.relays.length < 2 ^ 8 := by
  by_contra hlong
  have hnone : codec.write route = none :=
    Codec.write_counted_eq_none (c := (Codec.uint 8).pair u8) (Nat.not_lt.mp hlong)
  rw [h] at hnone
  cases hnone

theorem length_writeBytes {route : NwkSourceRoute} {w : Bytes}
    (h : codec.writeBytes route = some w) : w.length = route.size := by
  obtain ⟨_, hwrite, -⟩ := Option.map_eq_some_iff.mp h
  obtain ⟨w', hw', hlen⟩ := writeBytes_eq_some (length_relays_lt hwrite)
  cases h.symm.trans hw'
  exact hlen

/-- A route that was read from a frame fits. -/
theorem size_le_of_readBytes {bytes : Bytes} {route : NwkSourceRoute} {n : Nat}
    (h : codec.readBytes bytes = .ok (route, n)) : route.size ≤ bytes.length := by
  obtain ⟨w, hw, hlen, hle⟩ := Codec.writeBytes_readBytes h
  exact (length_writeBytes hw).ge.trans (hlen.le.trans hle)

end NwkSourceRoute

namespace NwkHeader

/-- The bytes of the source route of a header. -/
def sourceRouteSize (header : NwkHeader) : Nat :=
  (header.sourceRoute.map NwkSourceRoute.size).getD 0

/-- The bytes of a header. -/
def size (header : NwkHeader) : Nat :=
  8 + (optionBytes Eui64.toBytes header.destinationIeee).length +
    (optionBytes Eui64.toBytes header.sourceIeee).length +
    header.multicastControl.toList.length + header.sourceRouteSize

/-- The fields in front of the source route. -/
theorem serializeInto_eq (header : NwkHeader) (bytes : Bytes) :
    ∃ fields : Bytes, fields.length + header.sourceRouteSize = bytes.length + header.size ∧
      header.serializeInto bytes =
        match header.sourceRoute with
        | some sourceRoute => extendAbstractBits fields NwkSourceRoute.codec sourceRoute
        | none => .ok fields := by
  obtain ⟨control, hcontrol, hlen⟩ := extendAbstractBits_fixed NwkFrameControl.fixed_codec
    (by decide) bytes header.frameControl
  refine ⟨_, ?_, by rw [serializeInto, hcontrol, Checked.ok_bind]; rfl⟩
  have hbytes : bytesFor 16 = 2 := rfl
  simp only [List.length_append, Nwk.length_toBytes, List.length_cons, List.length_nil, hlen,
    hbytes, size]
  omega

theorem serializeInto_eq_ok {header : NwkHeader}
    (h : header.sourceRouteSize ≤ maxPhyPacketSize) (bytes : Bytes) :
    ∃ bytes', header.serializeInto bytes = .ok bytes' ∧
      bytes'.length = bytes.length + header.size := by
  obtain ⟨fields, hlen, heq⟩ := header.serializeInto_eq bytes
  rw [heq]
  unfold sourceRouteSize at h hlen
  cases hroute : header.sourceRoute with
  | none => exact ⟨fields, rfl, by simpa [hroute] using hlen⟩
  | some route =>
    rw [hroute, Option.map_some, Option.getD_some] at h hlen
    obtain ⟨bytes', hbytes, hlen'⟩ := NwkSourceRoute.extendAbstractBits_eq_ok h fields
    exact ⟨bytes', hbytes, hlen'.trans hlen⟩

end NwkHeader

/-- The bytes of an auxiliary header. -/
def NwkAuxHeader.size (header : NwkAuxHeader) : Nat :=
  6 + (optionBytes Eui64.toBytes header.extendedSource).length

theorem NwkAuxHeader.serializeInto_eq_ok (header : NwkAuxHeader) (bytes : Bytes) :
    ∃ bytes', header.serializeInto bytes = .ok bytes' ∧
      bytes'.length = bytes.length + header.size := by
  obtain ⟨control, hcontrol, hlen⟩ := header.securityControl.toBytes_eq_ok
  refine ⟨_, by rw [serializeInto, hcontrol, Checked.ok_bind]; rfl, ?_⟩
  simp only [List.length_append, length_leBytes, List.length_cons, List.length_nil, hlen, size]
  omega

/-- The associated data is written unless the source route is too long. -/
theorem nwkAuthData_eq_ok {header : NwkHeader} (aux : NwkAuxHeader)
    (h : header.sourceRouteSize ≤ maxPhyPacketSize) :
    ∃ authData, nwkAuthData header aux = .ok authData := by
  obtain ⟨bytes, hbytes, -⟩ := NwkHeader.serializeInto_eq_ok h []
  obtain ⟨authData, hauth, -⟩ := aux.serializeInto_eq_ok bytes
  exact ⟨authData, by rw [nwkAuthData, hbytes, Checked.ok_bind, hauth]⟩

/-- There is a nonce if one of the two headers has the address of the sender. -/
theorem getNonce_eq_ok (header : NwkHeader) (aux : NwkAuxHeader)
    (h : (aux.extendedSource.or header.sourceIeee).isSome = true) :
    ∃ nonce, getNonce header aux = .ok nonce := by
  obtain ⟨source, hsource⟩ := Option.isSome_iff_exists.mp h
  obtain ⟨control, hcontrol, -⟩ := aux.securityControl.toBytes_eq_ok
  exact ⟨_, by rw [getNonce, hsource, Checked.expect_some, Checked.ok_bind, hcontrol]; rfl⟩

/-- The bytes of an encrypted frame. -/
def EncryptedNwkFrame.size (frame : EncryptedNwkFrame) : Nat :=
  frame.nwkHeader.size + (frame.auxHeader.map NwkAuxHeader.size).getD 0 +
    frame.ciphertext.bytes.length

/-! ## Encryption -/

namespace NwkFrame

variable {backend : CryptoBackend} {frame : NwkFrame} {aux : NwkAuxHeader} {body : FrameBytes}

/-- The auxiliary header of an outgoing frame has an address for the nonce. -/
theorem nonce_eq_ok (hsource : aux.extendedSource.isSome = true) : ∃ nonce,
    getNonce frame.nwkHeader { aux with securityControl.securityLevel := .encMic32 } =
      .ok nonce :=
  getNonce_eq_ok _ _ (by rw [Option.isSome_or, hsource]; rfl)

/-- A frame whose source route fits and whose body has room for the MIC is encrypted. -/
theorem encrypt_eq_ok (key : Key) (haux : frame.auxHeader = some aux)
    (hsource : aux.extendedSource.isSome = true) (hbody : frame.payload.toBytes = .ok body)
    (hroute : frame.nwkHeader.sourceRouteSize ≤ maxPhyPacketSize)
    (hroom : body.bytes.length + micLength ≤ maxPhyPacketSize) :
    ∃ ciphertext, frame.encrypt backend key = .ok ⟨frame.nwkHeader, some aux, ciphertext⟩ ∧
      ciphertext.bytes.length = body.bytes.length + micLength := by
  obtain ⟨nonce, hnonce⟩ := nonce_eq_ok hsource
  obtain ⟨authData, hauth⟩ := nwkAuthData_eq_ok
    { aux with securityControl.securityLevel := .encMic32 } hroute
  obtain ⟨ciphertext, hciphertext, hlen⟩ := encryptCcm_eq_ok backend key nonce authData
    hroom
  refine ⟨ciphertext, ?_, hlen⟩
  rw [encrypt, haux, getModifiedAuxHeader, Checked.ok_bind, hnonce, Checked.ok_bind, hauth,
    Checked.ok_bind, hbody, Checked.ok_bind, hciphertext]
  rfl

end NwkFrame

/-! ## Parsing does not panic -/

theorem parseEui64If_returns (present : Bool) (remaining : Bytes) :
    Parse.Returns (parseEui64If present remaining)
      (fun r => r.1.isSome = present ∧ r.2.length ≤ remaining.length) := by
  refine .ite (fun hpresent => ?_) (fun hpresent => ?_)
  · refine .bind (.mapError (deserializeLe_returns 8 _ remaining)) (fun r hr => .pure ⟨?_, ?_⟩)
    · rw [hpresent]
      rfl
    · change r.2.length ≤ remaining.length
      omega
  · exact .pure ⟨(Bool.eq_false_iff.mpr hpresent).symm, le_refl _⟩

namespace NwkHeader

theorem parseMulticastControl_returns (present : Bool) (remaining : Bytes) :
    Parse.Returns (parseMulticastControl present remaining)
      (fun r => r.2.length ≤ remaining.length) := by
  refine .ite (fun _ => .bind (.check _) (fun _ hne => ?_)) (fun _ => .pure (le_refl _))
  have hpos : 0 < remaining.length := List.length_pos_iff.mpr hne
  refine .bind (.index hpos) (fun _ _ => .bind (.sliceFrom hpos) (fun rest hrest => .pure ?_))
  change rest.length ≤ remaining.length
  omega

/-- A source route that is parsed fits the buffer that it was read from. -/
theorem parseSourceRoute_returns (present : Bool) (remaining : Bytes) :
    Parse.Returns (parseSourceRoute present remaining) (fun r =>
      (r.1.map NwkSourceRoute.size).getD 0 ≤ remaining.length ∧
        r.2.length ≤ remaining.length) := by
  refine .ite (fun _ => ?_) (fun _ => .pure ⟨Nat.zero_le _, le_refl _⟩)
  refine .bind (.ofExcept (Q := fun r => r.1.size ≤ remaining.length ∧ r.2 ≤ remaining.length)
    (fun r hread => ⟨NwkSourceRoute.size_le_of_readBytes hread,
      (Codec.writeBytes_readBytes hread).choose_spec.2.2⟩)) (fun r hr => ?_)
  refine .bind (.sliceFrom hr.2) (fun rest hrest => .pure ⟨hr.1, ?_⟩)
  change rest.length ≤ remaining.length
  omega

/-- Every byte string is parsed or rejected, and a header that is parsed can be
serialized. -/
theorem deserialize_returns (bytes : Bytes) :
    Parse.Returns (deserialize bytes) (fun r =>
      r.1.sourceRouteSize ≤ bytes.length ∧ r.2.length ≤ bytes.length) := by
  refine .bind (.check _) (fun _ hlen => ?_)
  -- the control field takes two bytes, so the addresses, radius and number are there
  refine .bind (.readFixed NwkFrameControl.fixed_codec) (fun control hread => ?_)
  have htwo : control.2 = 2 := hread.1
  refine .bind (.sliceFrom hread.2) (fun rest₁ h₁ => ?_)
  refine .bind (.mapError (deserializeLe_returns 2 _ _)) (fun r₂ h₂ => ?_)
  refine .bind (.mapError (deserializeLe_returns 2 _ _)) (fun r₃ h₃ => ?_)
  refine .bind (.index (by omega)) (fun _ _ => .bind (.sliceFrom (by omega)) (fun r₄ h₄ => ?_))
  refine .bind (.index (by omega)) (fun _ _ => .bind (.sliceFrom (by omega)) (fun r₅ h₅ => ?_))
  refine .bind (parseEui64If_returns _ _) (fun r₆ h₆ => ?_)
  refine .bind (parseEui64If_returns _ _) (fun r₇ h₇ => ?_)
  refine .bind (parseMulticastControl_returns _ _) (fun r₈ h₈ => ?_)
  refine .bind (parseSourceRoute_returns _ _) (fun r₉ h₉ => .pure ⟨?_, ?_⟩)
  · change (r₉.1.map NwkSourceRoute.size).getD 0 ≤ bytes.length
    omega
  · change r₉.2.length ≤ bytes.length
    omega

end NwkHeader

/-- Every byte string is parsed or rejected. -/
theorem NwkAuxHeader.deserialize_returns (bytes : Bytes) :
    Parse.Returns (deserialize bytes) (fun r => r.2.length ≤ bytes.length) := by
  refine .bind (.check _) (fun _ hlen => ?_)
  refine .bind (.readFixed NwkSecurityHeaderControlField.fixed_codec) (fun control hread => ?_)
  have hone : control.2 = 1 := hread.1
  refine .bind (.sliceFrom hread.2) (fun rest₁ h₁ => ?_)
  refine .bind (.u32At (by omega)) (fun _ _ => .bind (.sliceFrom (by omega)) (fun rest₂ h₂ => ?_))
  refine .bind (parseEui64If_returns _ _) (fun r₃ h₃ => .bind (.check _) (fun _ hne => ?_))
  have hpos : 0 < r₃.2.length := List.length_pos_iff.mpr hne
  refine .bind (.index hpos) (fun _ _ => .bind (.sliceFrom hpos) (fun rest₄ h₄ => .pure ?_))
  change rest₄.length ≤ bytes.length
  omega

namespace EncryptedNwkFrame

/-- Every byte string is parsed or rejected, and the source route of a frame that is
parsed can be serialized. -/
theorem fromBytes_returns (bytes : Bytes) :
    Parse.Returns (fromBytes bytes)
      (fun frame => frame.nwkHeader.sourceRouteSize ≤ maxPhyPacketSize) := by
  refine .bind (.check _) (fun _ hlen => ?_)
  refine .bind (NwkHeader.deserialize_returns bytes) (fun r₁ h₁ => ?_)
  refine .bind (Q := fun _ => True) ?_ (fun _ _ => ?_)
  · refine .ite (fun _ => ?_) (fun _ => .pure trivial)
    exact .bind (NwkAuxHeader.deserialize_returns _) (fun _ _ => .pure trivial)
  · exact .bind (FrameBytes.fromSliceOr_returns _ _) (fun _ _ => .pure (h₁.1.trans hlen))

variable {backend : CryptoBackend}

/-- A parsed frame with an auxiliary header and an address for the nonce is decrypted or
rejected.  Decryption keeps the headers. -/
theorem decrypt_returns {frame : EncryptedNwkFrame} {aux : NwkAuxHeader} (key : Key)
    (hroute : frame.nwkHeader.sourceRouteSize ≤ maxPhyPacketSize)
    (haux : frame.auxHeader = some aux)
    (hsource : (aux.extendedSource.or frame.nwkHeader.sourceIeee).isSome = true) :
    Parse.Returns (decrypt backend frame key)
      (fun decrypted => decrypted.nwkHeader = frame.nwkHeader ∧
        decrypted.auxHeader = frame.auxHeader) := by
  refine .bind (Q := fun modified => modified.extendedSource = aux.extendedSource)
    (.lift (congrArg (getModifiedAuxHeader · .encMic32) haux) rfl) (fun modified hmodified => ?_)
  obtain ⟨nonce, hnonce⟩ := getNonce_eq_ok frame.nwkHeader modified (hmodified.symm ▸ hsource)
  obtain ⟨authData, hauth⟩ := nwkAuthData_eq_ok modified hroute
  refine .bind (.lift hnonce trivial) (fun _ (_ : True) => ?_)
  refine .bind (.lift hauth trivial) (fun _ (_ : True) => ?_)
  refine .bind (decryptCcm_returns key _ _ frame.ciphertext) (fun payloadBytes _ => ?_)
  obtain ⟨payload, hpayload⟩ :=
    NwkPayload.fromBytes_eq_ok frame.nwkHeader.frameControl.frameType payloadBytes
  exact .bind (.lift hpayload trivial) (fun _ (_ : True) => .pure ⟨rfl, rfl⟩)

end EncryptedNwkFrame

end Ziggurat
