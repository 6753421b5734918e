import Ziggurat.Aps.FrameSpec

/-!
# A secured APS frame is decrypted to what it was made from

Decryption computes the nonce and the associated data from the header that travels in the
clear, so it computes those that encryption used, and CCM* takes the payload back.  A data
frame and an acknowledgement are then complete.  The body of a command is parsed, and the
bytes of a well-formed command are parsed back to it.
-/

namespace Ziggurat

open Lib.BitCodec

variable {backend : CryptoBackend} {key : Key} {auxHeader : ApsAuxHeader}

/-! ## Payloads -/

/-- A payload is decrypted to the one that was encrypted, whoever is taken for its
originator: the frame carries the address. -/
theorem decryptApsPayload_encryptApsPayload (inverts : backend.Inverts) {header : Bytes}
    (plaintext : FrameBytes) {tagged : FrameBytes}
    (h : encryptApsPayload backend key auxHeader header plaintext.bytes = .ok tagged)
    (source : Eui64) :
    decryptApsPayload backend key auxHeader source header tagged.bytes = pure plaintext := by
  obtain ⟨nonceSource, hsource, h⟩ := Checked.bind_eq_ok.mp h
  obtain ⟨nonce, hnonce, h⟩ := Checked.bind_eq_ok.mp h
  obtain ⟨authData, hauth, h⟩ := Checked.bind_eq_ok.mp h
  obtain ⟨buffer, hbuffer, h⟩ := Checked.bind_eq_ok.mp h
  rw [FrameBytes.fromSlice_eq plaintext.bound] at hbuffer
  cases hbuffer
  have hcarried : auxHeader.extendedSource.getD source = nonceSource := by
    rw [Checked.expect_eq_ok.mp hsource]
    rfl
  simp only [decryptApsPayload, hcarried, hnonce, Parse.liftM_ok, pure_bind, hauth]
  rw [FrameBytes.fromSlice_eq tagged.bound, Checked.expect_some, Parse.liftM_ok, pure_bind,
    decryptCcm_encryptCcm inverts h]
  rfl

/-! ## Data and acknowledgements -/

theorem EncryptedApsDataFrame.auxHeader_encrypt {frame : ApsDataFrame}
    {encrypted : EncryptedApsDataFrame}
    (h : frame.encrypt backend key auxHeader = .ok encrypted) :
    encrypted.auxHeader = auxHeader := by
  obtain ⟨header, -, h⟩ := Checked.bind_eq_ok.mp h
  obtain ⟨ciphertext, -, h⟩ := Checked.bind_eq_ok.mp h
  cases h
  rfl

theorem EncryptedApsDataFrame.decrypt_encrypt (inverts : backend.Inverts) {frame : ApsDataFrame}
    {encrypted : EncryptedApsDataFrame}
    (h : frame.encrypt backend key auxHeader = .ok encrypted) (source : Eui64) :
    encrypted.decrypt backend key source = pure frame := by
  obtain ⟨header, hheader, h⟩ := Checked.bind_eq_ok.mp h
  obtain ⟨ciphertext, hciphertext, h⟩ := Checked.bind_eq_ok.mp h
  cases h
  rw [decrypt, hheader, Parse.liftM_ok, pure_bind,
    decryptApsPayload_encryptApsPayload inverts frame.asdu hciphertext source, pure_bind]

theorem EncryptedApsAckFrame.auxHeader_encrypt {frame : ApsAckFrame}
    {encrypted : EncryptedApsAckFrame}
    (h : frame.encrypt backend key auxHeader = .ok encrypted) :
    encrypted.auxHeader = auxHeader := by
  obtain ⟨header, -, h⟩ := Checked.bind_eq_ok.mp h
  obtain ⟨ciphertext, -, h⟩ := Checked.bind_eq_ok.mp h
  cases h
  rfl

theorem EncryptedApsAckFrame.decrypt_encrypt (inverts : backend.Inverts) {frame : ApsAckFrame}
    {encrypted : EncryptedApsAckFrame}
    (h : frame.encrypt backend key auxHeader = .ok encrypted) (source : Eui64) :
    encrypted.decrypt backend key source = pure frame := by
  obtain ⟨header, hheader, h⟩ := Checked.bind_eq_ok.mp h
  obtain ⟨ciphertext, hciphertext, h⟩ := Checked.bind_eq_ok.mp h
  cases h
  rw [decrypt, hheader, Parse.liftM_ok, pure_bind,
    decryptApsPayload_encryptApsPayload inverts ⟨[], by decide⟩ hciphertext source,
    pure_bind]

/-! ## Commands -/

theorem tryFromByte_disc {α : Type} (e : Codec.Enum 8 α) (ty : String) (a : α) :
    tryFromByte e ty (UInt8.ofFin (e.disc a)) = pure a := by
  rw [tryFromByte, UInt8.toFin_ofFin, e.ofDisc_disc]

/-- The descriptor is of the kind that the key type says. -/
def ApsTransportKeyCommandFrame.WellFormed (command : ApsTransportKeyCommandFrame) : Prop :=
  match command.standardKeyType, command.keyDescriptor with
  | .standardNetworkKey, .networkKey _ => True
  | .applicationLinkKey, .applicationLinkKey _ => True
  | .trustCenterLinkKey, .trustCenterLinkKey _ => True
  | _, _ => False

/-- The partner is there exactly if an application link key is requested. -/
def ApsRequestKeyCommandFrame.WellFormed (command : ApsRequestKeyCommandFrame) : Prop :=
  command.partnerAddress.isSome = decide (command.keyType = .applicationLinkKey)

/-- The optional fields of a command are those that its type says. -/
def ApsCommandFrameCommand.WellFormed : ApsCommandFrameCommand → Prop
  | .transportKey command => command.WellFormed
  | .requestKey command => command.WellFormed
  | _ => True

/-- The bytes of a packed structure are parsed back. -/
theorem ofExcept_written {α : Type} {codec : Codec α} {value : α} {bytes : Bytes}
    (h : codec.writeBytes value = some bytes) :
    Parse.ofExcept ParseError.bits (fromAbstractBytes codec bytes) = pure value := by
  have hread := fromAbstractBytes_append h []
  rw [List.append_nil] at hread
  rw [hread, Parse.ofExcept_ok]

theorem ApsTransportKeyCommandFrame.length_descriptor {α : Type} {codec : Codec α} {k : Nat}
    (hcodec : codec.Fixed k) (hk : 1 ≤ bytesFor k) {value : α} {bytes : Bytes}
    (h : codec.writeBytes value = some bytes) : 1 ≤ bytes.length := by
  obtain ⟨written, hwritten, hlen⟩ := hcodec.writeBytes value
  rw [h] at hwritten
  cases hwritten
  rw [hlen]
  exact hk

theorem ApsNetworkKeyDescriptor.fixed_codec : codec.Fixed 264 :=
  ((Codec.fixed_uint 128).pair <| fixed_u8.pair <|
    (Codec.fixed_uint 64).pair (Codec.fixed_uint 64)).imap

theorem ApsApplicationLinkKeyDescriptor.fixed_codec : codec.Fixed 200 :=
  ((Codec.fixed_uint 128).pair <| (Codec.fixed_uint 64).pair fixed_u8).imap

theorem ApsTrustCenterLinkKeyDescriptor.fixed_codec : codec.Fixed 256 :=
  ((Codec.fixed_uint 128).pair <| (Codec.fixed_uint 64).pair (Codec.fixed_uint 64)).imap

/-- The start of the parser, up to the descriptor. -/
theorem ApsTransportKeyCommandFrame.fromBytes_cons (keyType : ApsStandardKeyType) {body : Bytes}
    (h : 1 ≤ body.length) :
    fromBytes (UInt8.ofFin (ApsStandardKeyType.enum.disc keyType) :: body) =
      (match keyType with
      | .standardNetworkKey => do
        let descriptor ←
          Parse.ofExcept .bits (fromAbstractBytes ApsNetworkKeyDescriptor.codec body)
        return ⟨keyType, .networkKey descriptor⟩
      | .applicationLinkKey => do
        let descriptor ←
          Parse.ofExcept .bits (fromAbstractBytes ApsApplicationLinkKeyDescriptor.codec body)
        return ⟨keyType, .applicationLinkKey descriptor⟩
      | .trustCenterLinkKey => do
        let descriptor ←
          Parse.ofExcept .bits (fromAbstractBytes ApsTrustCenterLinkKeyDescriptor.codec body)
        return ⟨keyType, .trustCenterLinkKey descriptor⟩) := by
  rw [fromBytes, Parse.check_of (by rw [List.length_cons]; omega), pure_bind]
  change tryFromByte _ _ _ >>= _ = _
  rw [tryFromByte_disc, pure_bind]
  rfl

theorem ApsTransportKeyCommandFrame.fromBytes_toBytes {command : ApsTransportKeyCommandFrame}
    (hwf : command.WellFormed) {bytes : Bytes} (h : command.toBytes = .ok bytes) :
    fromBytes bytes = pure command := by
  obtain ⟨keyType, descriptor⟩ := command
  obtain ⟨body, hbody, h⟩ := Checked.bind_eq_ok.mp h
  cases h
  replace hbody := Checked.unwrap_eq_ok.mp hbody
  cases keyType <;> cases descriptor <;> try exact hwf.elim
  · rw [fromBytes_cons _
      (length_descriptor ApsNetworkKeyDescriptor.fixed_codec (by decide) hbody)]
    simp only
    rw [ofExcept_written hbody, pure_bind]
  · rw [fromBytes_cons _
      (length_descriptor ApsApplicationLinkKeyDescriptor.fixed_codec (by decide) hbody)]
    simp only
    rw [ofExcept_written hbody, pure_bind]
  · rw [fromBytes_cons _
      (length_descriptor ApsTrustCenterLinkKeyDescriptor.fixed_codec (by decide) hbody)]
    simp only
    rw [ofExcept_written hbody, pure_bind]

theorem Eui64.deserialize_toBytes (eui64 : Eui64) (rest : Bytes) :
    deserialize (toBytes eui64 ++ rest) = pure (eui64, rest) :=
  deserializeLe_leBytes 8 "Eui64" eui64 rest

theorem ApsRequestKeyCommandFrame.fromBytes_toBytes {command : ApsRequestKeyCommandFrame}
    (hwf : command.WellFormed) : fromBytes command.toBytes = pure command := by
  obtain ⟨keyType, partner⟩ := command
  rw [toBytes, fromBytes, Parse.check_of (List.cons_ne_nil _ _), pure_bind]
  change tryFromByte _ _ _ >>= _ = _
  rw [tryFromByte_disc, pure_bind]
  cases keyType with
  | applicationLinkKey =>
    cases partner with
    | none => simp [WellFormed] at hwf
    | some partner =>
      have hparse := Eui64.deserialize_toBytes partner []
      rw [List.append_nil] at hparse
      simp only
      rw [Bytes.sliceFrom_eq (by simp), Parse.liftM_ok, pure_bind]
      change (Parse.mapError _ (Eui64.deserialize (Eui64.toBytes partner)) >>= _) = _
      rw [hparse, Parse.mapError_pure, pure_bind]
  | trustCenterLinkKey =>
    cases partner with
    | none => rfl
    | some partner => simp [WellFormed] at hwf

theorem ApsTunnelCommandFrame.fromBytes_toBytes (command : ApsTunnelCommandFrame) :
    fromBytes command.toBytes = pure command := by
  rw [toBytes, fromBytes, Eui64.deserialize_toBytes, Parse.mapError_pure, pure_bind]
  simp only
  rw [FrameBytes.fromSliceOr_bytes, pure_bind]

/-- The body of a well-formed command is parsed back. -/
theorem ApsCommandFrameCommand.parse_bodyToBytes {command : ApsCommandFrameCommand}
    (hwf : command.WellFormed) {body : Bytes} (h : command.bodyToBytes = .ok body) :
    parse command.commandId body = pure command := by
  cases command with
  | transportKey c =>
    change (ApsTransportKeyCommandFrame.fromBytes body >>= _) = _
    rw [ApsTransportKeyCommandFrame.fromBytes_toBytes hwf h, pure_bind]
  | requestKey c =>
    cases h
    change (ApsRequestKeyCommandFrame.fromBytes c.toBytes >>= _) = _
    rw [ApsRequestKeyCommandFrame.fromBytes_toBytes hwf, pure_bind]
  | tunnel c =>
    cases h
    change (ApsTunnelCommandFrame.fromBytes c.toBytes >>= _) = _
    rw [ApsTunnelCommandFrame.fromBytes_toBytes, pure_bind]
  | updateDevice c | removeDevice c | switchKey c | verifyKey c | confirmKey c =>
    rw [bodyToBytes, Checked.unwrap_eq_ok] at h
    change (Parse.ofExcept _ (fromAbstractBytes _ body) >>= _) = _
    rw [ofExcept_written h, pure_bind]

/-- The cleartext header is one byte of frame control and the counter. -/
theorem apsCommandHeaderToBytes_eq {frameControl : ApsFrameControl} {counter : UInt8}
    {header : Bytes} (h : apsCommandHeaderToBytes frameControl counter = .ok header) :
    ∃ control, header = [control, counter] ∧
      ApsFrameControl.codec.writeBytes frameControl = some [control] := by
  obtain ⟨written, hwritten, hlen⟩ := ApsFrameControl.fixed_codec.writeBytes frameControl
  obtain ⟨control, rfl⟩ := List.length_eq_one_iff.mp (hlen.trans rfl)
  rw [apsCommandHeaderToBytes, extendAbstractBits_eq hwritten (by simp [maxPhyPacketSize])] at h
  cases h
  exact ⟨control, rfl, hwritten⟩

/-- A well-formed command frame is parsed back. -/
theorem ApsCommandFrame.fromBytes_toBytes {frame : ApsCommandFrame}
    (hwf : frame.command.WellFormed) {header payload : Bytes}
    (hheader : apsCommandHeaderToBytes frame.frameControl frame.counter = .ok header)
    (hpayload : frame.payloadToBytes = .ok payload) :
    fromBytes (header ++ payload) = pure frame := by
  obtain ⟨control, rfl, hcontrol⟩ := apsCommandHeaderToBytes_eq hheader
  obtain ⟨body, hbody, hpayload⟩ := Checked.bind_eq_ok.mp hpayload
  cases hpayload
  have hread := fromAbstractBytes_append hcontrol
    (frame.counter :: UInt8.ofFin (ApsCommandId.enum.disc frame.command.commandId) :: body)
  rw [fromBytes, Parse.check_of (by simp), pure_bind]
  change (Parse.ofExcept _ (fromAbstractBytes _
    ([control] ++ frame.counter :: UInt8.ofFin _ :: body)) >>= _) = _
  rw [hread, Parse.ofExcept_ok, pure_bind]
  change tryFromByte _ _ _ >>= _ = _
  rw [tryFromByte_disc, pure_bind]
  change (ApsCommandFrameCommand.parse frame.command.commandId body >>= _) = _
  rw [ApsCommandFrameCommand.parse_bodyToBytes hwf hbody, pure_bind]

theorem EncryptedApsCommandFrame.auxHeader_encrypt {frame : ApsCommandFrame}
    {encrypted : EncryptedApsCommandFrame}
    (h : frame.encrypt backend key auxHeader = .ok encrypted) :
    encrypted.auxHeader = auxHeader := by
  obtain ⟨header, -, h⟩ := Checked.bind_eq_ok.mp h
  obtain ⟨payload, -, h⟩ := Checked.bind_eq_ok.mp h
  obtain ⟨ciphertext, -, h⟩ := Checked.bind_eq_ok.mp h
  cases h
  rfl

theorem EncryptedApsCommandFrame.decrypt_encrypt (inverts : backend.Inverts)
    {frame : ApsCommandFrame} (hwf : frame.command.WellFormed)
    {encrypted : EncryptedApsCommandFrame}
    (h : frame.encrypt backend key auxHeader = .ok encrypted) :
    encrypted.decrypt backend key = pure frame := by
  obtain ⟨header, hheader, h⟩ := Checked.bind_eq_ok.mp h
  obtain ⟨payload, hpayload, h⟩ := Checked.bind_eq_ok.mp h
  obtain ⟨ciphertext, hciphertext, h⟩ := Checked.bind_eq_ok.mp h
  cases h
  obtain ⟨source, hsource⟩ : ∃ source, auxHeader.extendedSource = some source := by
    obtain ⟨source, hsource, -⟩ := Checked.bind_eq_ok.mp hciphertext
    exact ⟨source, Checked.expect_eq_ok.mp hsource⟩
  -- the payload that was encrypted fits a buffer
  have hbound : payload.length ≤ maxPhyPacketSize := by
    by_contra hlong
    rw [encryptApsPayload, hsource, Checked.expect_some, Checked.ok_bind] at hciphertext
    obtain ⟨_, -, hciphertext⟩ := Checked.bind_eq_ok.mp hciphertext
    obtain ⟨_, -, hciphertext⟩ := Checked.bind_eq_ok.mp hciphertext
    rw [FrameBytes.fromSlice_eq_none (Nat.lt_of_not_le hlong)] at hciphertext
    cases hciphertext
  simp only [decrypt, hsource, hheader, Parse.liftM_ok, pure_bind]
  rw [decryptApsPayload_encryptApsPayload inverts ⟨payload, hbound⟩ hciphertext,
    pure_bind]
  exact ApsCommandFrame.fromBytes_toBytes hwf hheader hpayload

end Ziggurat
