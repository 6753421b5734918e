import Ziggurat.Ieee802154.Layout
import Ziggurat.Nwk.CommandLayout
import Ziggurat.Nwk.FrameSpec

/-!
# NWK frames on the wire and back

`NwkHeader.Layout` says which bytes a header is.  Both directions meet there: a buffer is parsed
into a header exactly if its flags match its optional fields and the buffer starts with that
layout, and a header is serialized as it.  The auxiliary header differs in one bit: the reserved
bit of the security control is skipped, and zero in what is written.

So a frame that was accepted is serialized to the bytes that it came from, and a frame that is
encrypted and serialized is parsed and decrypted to itself.  A command need not come out as it
went in; `nwk_command_canonical` says that it comes out no longer, and as the same command.
-/

namespace Ziggurat

open Lib.BitCodec

/-! ## The fields of the header -/

theorem NwkFrameControl.exact_codec : codec.Exact :=
  ((Codec.exact_enum _).pair <| (Codec.exact_uint 4).pair <| (Codec.exact_enum _).pair <|
    Codec.exact_bool.pair <| Codec.exact_bool.pair <| Codec.exact_bool.pair <|
    Codec.exact_bool.pair <| Codec.exact_bool.pair <| Codec.exact_bool.pair <|
    Codec.exact_uint 2).imap

theorem NwkSourceRoute.exact_codec : codec.Exact :=
  (((Codec.exact_uint 8).pair (Codec.exact_uint 8).imap).counted (Codec.exact_uint 16)).imap

/-- A source route is whole bytes. -/
theorem NwkSourceRoute.whole_codec {route : NwkSourceRoute} {w : List Bool}
    (h : codec.write route = some w) : 8 ∣ w.length := by
  have hitem : Codec.Fixed Nwk.codec 16 := Codec.fixed_uint 16
  obtain ⟨w', hw', hlen⟩ :=
    ((Codec.fixed_uint 8).pair fixed_u8).counted hitem route.relayIndex (length_relays_lt h)
  cases h.symm.trans hw'
  rw [hlen]
  omega

theorem parseEui64If_eq_pure {present : Bool} {bytes rest : Bytes} {eui64 : Option Eui64} :
    parseEui64If present bytes = pure (eui64, rest) ↔
      present = eui64.isSome ∧ bytes = optionBytes Eui64.toBytes eui64 ++ rest := by
  unfold parseEui64If
  cases present with
  | true =>
    rw [if_pos rfl]
    constructor
    · intro h
      obtain ⟨⟨ieee, remaining⟩, hieee, h⟩ := Parse.bind_eq_pure.mp h
      cases Parse.pure_eq_pure.mp h
      exact ⟨rfl, deserializeLe_eq_pure.mp (Parse.mapError_eq_pure.mp hieee)⟩
    · rintro ⟨hsome, rfl⟩
      obtain ⟨ieee, rfl⟩ := Option.isSome_iff_exists.mp hsome.symm
      refine Parse.bind_eq_pure.mpr ⟨(ieee, rest), ?_, rfl⟩
      exact Parse.mapError_eq_pure.mpr (deserializeLe_eq_pure.mpr rfl)
  | false =>
    rw [if_neg Bool.false_ne_true, Parse.pure_eq_pure]
    constructor
    · intro h
      cases h
      exact ⟨rfl, rfl⟩
    · rintro ⟨hnone, rfl⟩
      rw [Option.not_isSome_iff_eq_none.mp (Bool.eq_false_iff.mp hnone.symm)]
      rfl

namespace NwkHeader

variable {header : NwkHeader} {bytes rest : Bytes}

theorem parseMulticastControl_eq_pure {present : Bool} {control : Option UInt8} :
    parseMulticastControl present bytes = pure (control, rest) ↔
      present = control.isSome ∧ bytes = control.toList ++ rest := by
  unfold parseMulticastControl
  cases present with
  | true =>
    rw [if_pos rfl]
    constructor
    · intro h
      obtain ⟨_, -, h⟩ := Parse.bind_eq_pure.mp h
      obtain ⟨byte, hbyte, h⟩ := Parse.bind_eq_pure.mp h
      obtain ⟨remaining, hremaining, h⟩ := Parse.bind_eq_pure.mp h
      cases Parse.pure_eq_pure.mp h
      exact ⟨rfl, Bytes.eq_cons_of_index (Parse.liftM_eq_pure.mp hbyte)
        (Parse.liftM_eq_pure.mp hremaining)⟩
    · rintro ⟨hsome, rfl⟩
      obtain ⟨byte, rfl⟩ := Option.isSome_iff_exists.mp hsome.symm
      change (Parse.check (byte :: rest ≠ []) _ >>= _) = _
      rw [Parse.check_of (List.cons_ne_nil _ _), pure_bind]
      simp
  | false =>
    rw [if_neg Bool.false_ne_true, Parse.pure_eq_pure]
    constructor
    · intro h
      cases h
      exact ⟨rfl, rfl⟩
    · rintro ⟨hnone, rfl⟩
      rw [Option.not_isSome_iff_eq_none.mp (Bool.eq_false_iff.mp hnone.symm)]
      rfl

/-- The bytes of an optional source route, unless it has too many relays. -/
def routeBytes : Option NwkSourceRoute → Option Bytes
  | some route => NwkSourceRoute.codec.writeBytes route
  | none => some []

theorem parseSourceRoute_eq_pure {present : Bool} {route : Option NwkSourceRoute} :
    parseSourceRoute present bytes = pure (route, rest) ↔
      present = route.isSome ∧ ∃ w, routeBytes route = some w ∧ bytes = w ++ rest := by
  unfold parseSourceRoute
  cases present with
  | true =>
    rw [if_pos rfl]
    constructor
    · intro h
      obtain ⟨⟨parsed, n⟩, hparsed, h⟩ := Parse.bind_eq_pure.mp h
      obtain ⟨remaining, hremaining, h⟩ := Parse.bind_eq_pure.mp h
      cases Parse.pure_eq_pure.mp h
      exact ⟨rfl, eq_append_of_readBytes NwkSourceRoute.exact_codec NwkSourceRoute.whole_codec
        (Parse.ofExcept_eq_pure.mp hparsed) (Parse.liftM_eq_pure.mp hremaining)⟩
    · rintro ⟨hsome, w, hw, rfl⟩
      obtain ⟨parsed, rfl⟩ := Option.isSome_iff_exists.mp hsome.symm
      rw [Codec.readBytes_writeBytes hw, Parse.ofExcept_ok, pure_bind]
      dsimp only
      rw [Bytes.sliceFrom_append rfl, Parse.liftM_ok, pure_bind]
  | false =>
    rw [if_neg Bool.false_ne_true, Parse.pure_eq_pure]
    constructor
    · intro h
      cases h
      exact ⟨rfl, [], rfl, rfl⟩
    · rintro ⟨hnone, w, hw, rfl⟩
      rw [Option.not_isSome_iff_eq_none.mp (Bool.eq_false_iff.mp hnone.symm)] at hw ⊢
      cases hw
      rfl

/-! ## The header -/

/-- The flags say which of the optional fields there are. -/
structure Flagged (header : NwkHeader) : Prop where
  destination : header.frameControl.destination = header.destinationIeee.isSome
  extendedSource : header.frameControl.extendedSource = header.sourceIeee.isSome
  multicast : header.frameControl.multicast = header.multicastControl.isSome
  sourceRoute : header.frameControl.sourceRoute = header.sourceRoute.isSome

/-- The bytes of a header. -/
def Layout (header : NwkHeader) (bytes : Bytes) : Prop :=
  ∃ control route, NwkFrameControl.codec.writeBytes header.frameControl = some control ∧
    routeBytes header.sourceRoute = some route ∧
    bytes = control ++ (Nwk.toBytes header.destination ++ (Nwk.toBytes header.source ++
      ([header.radius, header.sequenceNumber] ++
      (optionBytes Eui64.toBytes header.destinationIeee ++
      (optionBytes Eui64.toBytes header.sourceIeee ++
      (header.multicastControl.toList ++ route))))))

theorem deserialize_eq_pure : deserialize bytes = pure (header, rest) ↔
    header.Flagged ∧ ∃ w, header.Layout w ∧ bytes = w ++ rest := by
  constructor
  · intro h
    obtain ⟨_, -, h⟩ := Parse.bind_eq_pure.mp h
    obtain ⟨⟨control, n⟩, hcontrol, h⟩ := Parse.bind_eq_pure.mp h
    obtain ⟨r₁, h₁, h⟩ := Parse.bind_eq_pure.mp h
    obtain ⟨⟨destination, r₂⟩, h₂, h⟩ := Parse.bind_eq_pure.mp h
    obtain ⟨⟨source, r₃⟩, h₃, h⟩ := Parse.bind_eq_pure.mp h
    obtain ⟨radius, hradius, h⟩ := Parse.bind_eq_pure.mp h
    obtain ⟨r₄, h₄, h⟩ := Parse.bind_eq_pure.mp h
    obtain ⟨sequenceNumber, hsequence, h⟩ := Parse.bind_eq_pure.mp h
    obtain ⟨r₅, h₅, h⟩ := Parse.bind_eq_pure.mp h
    obtain ⟨⟨destinationIeee, r₆⟩, h₆, h⟩ := Parse.bind_eq_pure.mp h
    obtain ⟨⟨sourceIeee, r₇⟩, h₇, h⟩ := Parse.bind_eq_pure.mp h
    obtain ⟨⟨multicastControl, r₈⟩, h₈, h⟩ := Parse.bind_eq_pure.mp h
    obtain ⟨⟨sourceRoute, r₉⟩, h₉, h⟩ := Parse.bind_eq_pure.mp h
    cases Parse.pure_eq_pure.mp h
    obtain ⟨w, hw, hbytes⟩ := eq_append_of_readBytes NwkFrameControl.exact_codec
      (NwkFrameControl.fixed_codec.whole (by decide)) (Parse.ofExcept_eq_pure.mp hcontrol)
      (Parse.liftM_eq_pure.mp h₁)
    obtain ⟨hdestinationIeee, h₆⟩ := parseEui64If_eq_pure.mp h₆
    obtain ⟨hsourceIeee, h₇⟩ := parseEui64If_eq_pure.mp h₇
    obtain ⟨hmulticast, h₈⟩ := parseMulticastControl_eq_pure.mp h₈
    obtain ⟨hroute, route, hw', h₉⟩ := parseSourceRoute_eq_pure.mp h₉
    refine ⟨⟨hdestinationIeee, hsourceIeee, hmulticast, hroute⟩, _, ⟨w, route, hw, hw', rfl⟩, ?_⟩
    rw [hbytes, deserializeLe_eq_pure.mp (Parse.mapError_eq_pure.mp h₂),
      deserializeLe_eq_pure.mp (Parse.mapError_eq_pure.mp h₃),
      Bytes.eq_cons_of_index (Parse.liftM_eq_pure.mp hradius) (Parse.liftM_eq_pure.mp h₄),
      Bytes.eq_cons_of_index (Parse.liftM_eq_pure.mp hsequence) (Parse.liftM_eq_pure.mp h₅),
      h₆, h₇, h₈, h₉]
    simp only [List.append_assoc, List.cons_append, List.nil_append]
    rfl
  · rintro ⟨hflags, _, ⟨control, route, hcontrol, hroute, rfl⟩, rfl⟩
    have hlen : control.length = 2 :=
      ((NwkFrameControl.fixed_codec.readBytes (Codec.readBytes_writeBytes hcontrol [])).1).trans rfl
    simp only [List.append_assoc, List.cons_append, List.nil_append]
    refine Parse.bind_eq_pure.mpr ⟨(), Parse.check_of ?_ _, ?_⟩
    · simp only [List.length_append, List.length_cons, hlen, Nwk.length_toBytes]
      omega
    refine Parse.bind_eq_pure.mpr ⟨(header.frameControl, control.length),
      Parse.ofExcept_eq_pure.mpr (Codec.readBytes_writeBytes hcontrol _), ?_⟩
    refine Parse.bind_eq_pure.mpr
      ⟨_, Parse.liftM_eq_pure.mpr (Bytes.sliceFrom_append rfl _), ?_⟩
    refine Parse.bind_eq_pure.mpr ⟨(header.destination, _),
      Parse.mapError_eq_pure.mpr (deserializeLe_eq_pure.mpr rfl), ?_⟩
    refine Parse.bind_eq_pure.mpr ⟨(header.source, _),
      Parse.mapError_eq_pure.mpr (deserializeLe_eq_pure.mpr rfl), ?_⟩
    refine Parse.bind_eq_pure.mpr
      ⟨_, Parse.liftM_eq_pure.mpr (Bytes.index_cons_zero _), ?_⟩
    refine Parse.bind_eq_pure.mpr
      ⟨_, Parse.liftM_eq_pure.mpr (Bytes.sliceFrom_cons_one _), ?_⟩
    refine Parse.bind_eq_pure.mpr
      ⟨_, Parse.liftM_eq_pure.mpr (Bytes.index_cons_zero _), ?_⟩
    refine Parse.bind_eq_pure.mpr
      ⟨_, Parse.liftM_eq_pure.mpr (Bytes.sliceFrom_cons_one _), ?_⟩
    refine Parse.bind_eq_pure.mpr ⟨(header.destinationIeee, _),
      parseEui64If_eq_pure.mpr ⟨hflags.destination, rfl⟩, ?_⟩
    refine Parse.bind_eq_pure.mpr ⟨(header.sourceIeee, _),
      parseEui64If_eq_pure.mpr ⟨hflags.extendedSource, rfl⟩, ?_⟩
    refine Parse.bind_eq_pure.mpr ⟨(header.multicastControl, _),
      parseMulticastControl_eq_pure.mpr ⟨hflags.multicast, rfl⟩, ?_⟩
    exact Parse.bind_eq_pure.mpr ⟨(header.sourceRoute, rest),
      parseSourceRoute_eq_pure.mpr ⟨hflags.sourceRoute, route, hroute, rfl⟩, rfl⟩

theorem length_routeBytes {route : Option NwkSourceRoute} {w : Bytes}
    (h : routeBytes route = some w) : w.length = (route.map NwkSourceRoute.size).getD 0 := by
  cases route with
  | none =>
    cases h
    rfl
  | some route => exact NwkSourceRoute.length_writeBytes h

theorem length_control {control : NwkFrameControl} {w : Bytes}
    (h : NwkFrameControl.codec.writeBytes control = some w) : w.length = 2 :=
  (NwkFrameControl.fixed_codec.readBytes (Codec.readBytes_writeBytes h [])).1.trans rfl

theorem Layout.length {w : Bytes} (h : header.Layout w) : w.length = header.size := by
  obtain ⟨control, route, hcontrol, hroute, rfl⟩ := h
  have hlen := length_routeBytes hroute
  simp only [List.length_append, List.length_cons, List.length_nil, length_control hcontrol,
    Nwk.length_toBytes, hlen, size, sourceRouteSize]
  omega

/-- A header is serialized as its layout. -/
theorem Layout.serializeInto {w : Bytes} (h : header.Layout w)
    (hsize : header.sourceRouteSize ≤ maxPhyPacketSize) (bytes : Bytes) :
    header.serializeInto bytes = .ok (bytes ++ w) := by
  obtain ⟨control, route, hcontrol, hroute, rfl⟩ := h
  have hlen := length_routeBytes hroute
  unfold NwkHeader.serializeInto
  rw [extendAbstractBits_eq hcontrol (by rw [length_control hcontrol]; decide), Checked.ok_bind]
  unfold sourceRouteSize at hsize
  cases hsome : header.sourceRoute with
  | none =>
    rw [hsome] at hroute
    cases hroute
    simp
  | some sourceRoute =>
    rw [hsome] at hroute hsize hlen
    dsimp only
    rw [extendAbstractBits_eq hroute (hlen.trans_le hsize)]
    simp

theorem exists_layout (hsize : header.sourceRouteSize ≤ maxPhyPacketSize) :
    ∃ w, header.Layout w := by
  obtain ⟨control, hcontrol, -⟩ := NwkFrameControl.fixed_codec.writeBytes header.frameControl
  have hroute : ∃ route, routeBytes header.sourceRoute = some route := by
    unfold sourceRouteSize at hsize
    cases hsome : header.sourceRoute with
    | none => exact ⟨[], rfl⟩
    | some sourceRoute =>
      rw [hsome, Option.map_some, Option.getD_some, NwkSourceRoute.size, maxPhyPacketSize] at hsize
      obtain ⟨w, hw, -⟩ := NwkSourceRoute.writeBytes_eq_some
        (show sourceRoute.relays.length < 2 ^ 8 by omega)
      exact ⟨w, hw⟩
  obtain ⟨route, hroute⟩ := hroute
  exact ⟨_, control, route, hcontrol, hroute, rfl⟩

end NwkHeader

/-! ## The auxiliary header -/

namespace NwkSecurityHeaderControlField

theorem toBytes_eq_ok_iff {field : NwkSecurityHeaderControlField} {w : Bytes} :
    field.toBytes = .ok w ↔ codec.writeBytes field = some w := by
  obtain ⟨written, hwritten, hlen⟩ := fixed_codec.writeBytes field
  unfold toBytes
  rw [hwritten]
  dsimp only
  rw [if_pos (hlen.trans_le (by decide)), Except.ok.injEq, Option.some.injEq]

/-- Without the reserved bit, a byte is the only one that its field is read from. -/
theorem writeBytes_of_readBytes {control : UInt8} (hreserved : control < 0x80) {rest : Bytes}
    {field : NwkSecurityHeaderControlField} {n : Nat}
    (h : codec.readBytes (control :: rest) = .ok (field, n)) :
    n = 1 ∧ codec.writeBytes field = some [control] := by
  have hall : ∀ low : Fin 128, ((codec.readBytes [UInt8.ofNat low.val]).toOption.bind fun r =>
      codec.writeBytes r.1) = some [UInt8.ofNat low.val] := by
    decide +kernel
  obtain ⟨⟨field', _⟩, -, hfield'⟩ := Option.bind_eq_some_iff.mp (hall ⟨control.toNat, hreserved⟩)
  rw [UInt8.ofNat_toNat] at hfield'
  have hread := Codec.readBytes_writeBytes hfield' rest
  cases h.symm.trans hread
  exact ⟨rfl, hfield'⟩

end NwkSecurityHeaderControlField

namespace NwkAuxHeader

variable {aux : NwkAuxHeader} {bytes rest : Bytes}

/-- The bytes behind the security control. -/
def tailBytes (aux : NwkAuxHeader) : Bytes :=
  leBytes 4 aux.frameCounter.toNat ++
    (optionBytes Eui64.toBytes aux.extendedSource ++ [aux.keySequenceNumber])

theorem serializeInto_eq {control : Bytes}
    (hcontrol : NwkSecurityHeaderControlField.codec.writeBytes aux.securityControl = some control) :
    aux.serializeInto bytes = .ok (bytes ++ (control ++ aux.tailBytes)) := by
  unfold serializeInto tailBytes
  rw [NwkSecurityHeaderControlField.toBytes_eq_ok_iff.mpr hcontrol, Checked.ok_bind]
  simp

/-- What is parsed into a header, up to the byte of the security control. -/
theorem eq_of_deserialize (h : deserialize bytes = pure (aux, rest)) :
    ∃ control, bytes = control :: (aux.tailBytes ++ rest) ∧
      (control < 0x80 →
        NwkSecurityHeaderControlField.codec.writeBytes aux.securityControl = some [control]) := by
  obtain ⟨_, -, h⟩ := Parse.bind_eq_pure.mp h
  obtain ⟨⟨securityControl, n⟩, hcontrol, h⟩ := Parse.bind_eq_pure.mp h
  obtain ⟨r₁, h₁, h⟩ := Parse.bind_eq_pure.mp h
  obtain ⟨frameCounter, hcounter, h⟩ := Parse.bind_eq_pure.mp h
  obtain ⟨r₂, h₂, h⟩ := Parse.bind_eq_pure.mp h
  obtain ⟨⟨extendedSource, r₃⟩, h₃, h⟩ := Parse.bind_eq_pure.mp h
  obtain ⟨_, -, h⟩ := Parse.bind_eq_pure.mp h
  obtain ⟨keySequenceNumber, hkey, h⟩ := Parse.bind_eq_pure.mp h
  obtain ⟨r₄, h₄, h⟩ := Parse.bind_eq_pure.mp h
  cases Parse.pure_eq_pure.mp h
  obtain ⟨-, h₃⟩ := parseEui64If_eq_pure.mp h₃
  have hread := Parse.ofExcept_eq_pure.mp hcontrol
  obtain ⟨rfl, hle⟩ := NwkSecurityHeaderControlField.fixed_codec.readBytes hread
  obtain ⟨-, hbytes⟩ := Bytes.eq_append_of_sliceFrom (Parse.liftM_eq_pure.mp h₁)
  obtain ⟨control, hone⟩ := List.length_eq_one_iff.mp (List.length_take_of_le hle)
  have hbytes : bytes = control :: r₁ := by
    rw [hbytes]
    exact congrArg (· ++ r₁) hone
  refine ⟨control, ?_, fun hreserved => ?_⟩
  · rw [hbytes, Bytes.eq_append_of_u32At (Parse.liftM_eq_pure.mp hcounter)
      (Parse.liftM_eq_pure.mp h₂), h₃, Bytes.eq_cons_of_index (Parse.liftM_eq_pure.mp hkey)
      (Parse.liftM_eq_pure.mp h₄)]
    simp [tailBytes]
  · rw [hbytes] at hread
    exact (NwkSecurityHeaderControlField.writeBytes_of_readBytes hreserved hread).2

/-- A header whose flag matches is parsed back. -/
theorem deserialize_eq {control : Bytes}
    (hcontrol : NwkSecurityHeaderControlField.codec.writeBytes aux.securityControl = some control)
    (hnonce : aux.securityControl.extendedNonce = aux.extendedSource.isSome) :
    deserialize ((control ++ aux.tailBytes) ++ rest) = pure (aux, rest) := by
  have hlen : control.length = 1 := (NwkSecurityHeaderControlField.fixed_codec.readBytes
    (Codec.readBytes_writeBytes hcontrol [])).1.trans rfl
  unfold tailBytes
  simp only [List.append_assoc, List.cons_append, List.nil_append]
  refine Parse.bind_eq_pure.mpr ⟨(), Parse.check_of ?_ _, ?_⟩
  · simp only [List.length_append, List.length_cons, hlen, length_leBytes]
    omega
  refine Parse.bind_eq_pure.mpr ⟨(aux.securityControl, control.length),
    Parse.ofExcept_eq_pure.mpr (Codec.readBytes_writeBytes hcontrol _), ?_⟩
  refine Parse.bind_eq_pure.mpr ⟨_, Parse.liftM_eq_pure.mpr (Bytes.sliceFrom_append rfl _), ?_⟩
  refine Parse.bind_eq_pure.mpr ⟨_, Parse.liftM_eq_pure.mpr (Bytes.u32At_append _ _), ?_⟩
  refine Parse.bind_eq_pure.mpr ⟨_, Parse.liftM_eq_pure.mpr
    (Bytes.sliceFrom_append (length_leBytes 4 _) _), ?_⟩
  refine Parse.bind_eq_pure.mpr ⟨(aux.extendedSource, _),
    parseEui64If_eq_pure.mpr ⟨hnonce, rfl⟩, ?_⟩
  refine Parse.bind_eq_pure.mpr ⟨(), Parse.check_of (List.cons_ne_nil _ _) _, ?_⟩
  refine Parse.bind_eq_pure.mpr ⟨_, Parse.liftM_eq_pure.mpr (Bytes.index_cons_zero _), ?_⟩
  exact Parse.bind_eq_pure.mpr
    ⟨_, Parse.liftM_eq_pure.mpr (Bytes.sliceFrom_cons_one _), rfl⟩

end NwkAuxHeader

/-! ## Commands -/

/-- A command that fits a frame is the payload with its bytes. -/
theorem toBytes_command_iff {command : NwkCommand} {payload : FrameBytes} :
    (NwkPayload.command command).toBytes = .ok payload ↔ command.toBytes = .ok payload.bytes := by
  change (command.toBytes >>= fun bytes => Checked.expect _ (FrameBytes.fromSlice bytes)) = _ ↔ _
  cases command.toBytes with
  | error panic => exact iff_of_false nofun nofun
  | ok bytes =>
    rw [Checked.ok_bind, Except.ok.injEq]
    constructor
    · intro h
      cases hfits : FrameBytes.fromSlice bytes with
      | none =>
        rw [hfits] at h
        cases h
      | some buffer =>
        rw [hfits] at h
        cases h
        exact (FrameBytes.bytes_fromSlice hfits).symm
    · rintro rfl
      rw [FrameBytes.fromSlice_eq payload.bound]
      rfl

/-- A command payload that was received is encoded to no more bytes than it had, so it fits a
frame, and what is written is decoded to the same command. -/
theorem nwk_command_canonical (bytes : Bytes) (h : bytes.length ≤ maxPhyPacketSize) :
    ∃ command written, NwkCommand.fromBytes bytes = .ok command ∧
      command.toBytes = .ok written ∧ written.length ≤ bytes.length ∧
      (∃ body : FrameBytes, (NwkPayload.command command).toBytes = .ok body ∧
        body.bytes = written) ∧
      NwkCommand.fromBytes written = .ok command := by
  obtain ⟨command, hcommand⟩ := NwkCommand.fromBytes_eq_ok h
  obtain ⟨written, hwritten, hle, hagain⟩ := NwkCommand.exists_toBytes_of_fromBytes hcommand
  have hbody : (NwkPayload.command command).toBytes = .ok ⟨written, hle.trans h⟩ :=
    toBytes_command_iff.mpr hwritten
  exact ⟨command, written, hcommand, hwritten, hle, ⟨_, hbody, rfl⟩, hagain⟩

/-- A leave command with its reserved bits set and a byte behind it loses both. -/
theorem nwk_command_canonical_leave :
    NwkCommand.fromBytes [0x04, 0xBF, 0xAA] = .ok (.leave ⟨true, false, true⟩) ∧
    (NwkCommand.leave ⟨true, false, true⟩).toBytes = .ok [0x04, 0xA0] ∧
    NwkCommand.fromBytes [0x04, 0xA0] = .ok (.leave ⟨true, false, true⟩) := by
  obtain ⟨command, written, hcommand, hwritten, -, -, hagain⟩ :=
    nwk_command_canonical [0x04, 0xBF, 0xAA] (by decide)
  have hleave : NwkCommand.fromBytes [0x04, 0xBF, 0xAA] = .ok (.leave ⟨true, false, true⟩) := by
    decide
  have hbytes : (NwkCommand.leave ⟨true, false, true⟩).toBytes = .ok [0x04, 0xA0] := by decide
  cases hcommand.symm.trans hleave
  cases hwritten.symm.trans hbytes
  exact ⟨hleave, hbytes, hagain⟩

/-! ## Frames -/

/-- The flags say which of the optional fields there are, in both headers. -/
structure NwkHeader.FlaggedWith (nwkHeader : NwkHeader) (auxHeader : Option NwkAuxHeader) :
    Prop where
  header : nwkHeader.Flagged
  security : nwkHeader.frameControl.security = auxHeader.isSome
  extendedNonce : ∀ aux, auxHeader = some aux →
    aux.securityControl.extendedNonce = aux.extendedSource.isSome

namespace EncryptedNwkFrame

variable {frame : EncryptedNwkFrame} {bytes : Bytes}

/-- The reserved bit of the security control, the first byte behind the header, is zero. -/
def ReservedZero (frame : EncryptedNwkFrame) (bytes : Bytes) : Prop :=
  frame.auxHeader.isSome = true → ∀ control, bytes[frame.nwkHeader.size]? = some control →
    control < 0x80

/-- A frame that was accepted is serialized to the bytes that it came from. -/
theorem toBytes_of_fromBytes (h : fromBytes bytes = pure frame)
    (hreserved : frame.ReservedZero bytes) : frame.toBytes = .ok bytes := by
  obtain ⟨_, hlen, h⟩ := Parse.bind_eq_pure.mp h
  obtain ⟨⟨header, r₁⟩, hheader, h⟩ := Parse.bind_eq_pure.mp h
  obtain ⟨⟨auxHeader, r₂⟩, haux, h⟩ := Parse.bind_eq_pure.mp h
  obtain ⟨ciphertext, hciphertext, h⟩ := Parse.bind_eq_pure.mp h
  cases Parse.pure_eq_pure.mp h
  obtain ⟨-, w, hw, rfl⟩ := NwkHeader.deserialize_eq_pure.mp hheader
  obtain rfl := FrameBytes.fromSliceOr_eq_pure.mp hciphertext
  have hlen := Parse.check_eq_pure.mp hlen
  have hsize : header.sourceRouteSize ≤ maxPhyPacketSize := by
    rw [List.length_append, hw.length, NwkHeader.size] at hlen
    omega
  unfold toBytes extendFrameBytes
  rw [hw.serializeInto hsize, Checked.ok_bind]
  unfold fromBytes.parseAuxHeader at haux
  split at haux
  next =>
    obtain ⟨⟨aux, r₂⟩, hparsed, h⟩ := Parse.bind_eq_pure.mp haux
    cases Parse.pure_eq_pure.mp h
    obtain ⟨control, rfl, hcontrol⟩ := NwkAuxHeader.eq_of_deserialize hparsed
    have hfirst : (w ++ control :: (aux.tailBytes ++ ciphertext.bytes))[header.size]? =
        some control := by
      rw [← hw.length, List.getElem?_append_right (le_refl _), Nat.sub_self]
      rfl
    dsimp only
    rw [NwkAuxHeader.serializeInto_eq (hcontrol (hreserved rfl control hfirst))]
    simp
  next =>
    cases Parse.pure_eq_pure.mp haux
    rfl

/-- A frame whose flags match is parsed back from its bytes. -/
theorem fromBytes_toBytes (hflags : frame.nwkHeader.FlaggedWith frame.auxHeader)
    (hsize : frame.size ≤ maxPhyPacketSize) :
    ∃ bytes, frame.toBytes = .ok bytes ∧ fromBytes bytes = pure frame := by
  obtain ⟨header, auxHeader, ciphertext⟩ := frame
  unfold size at hsize
  dsimp only at hsize
  have hroute : header.sourceRouteSize ≤ maxPhyPacketSize := by
    unfold NwkHeader.size at hsize
    omega
  obtain ⟨w, hw⟩ := NwkHeader.exists_layout hroute
  have hlen := hw.length
  unfold toBytes extendFrameBytes
  rw [hw.serializeInto hroute, Checked.ok_bind]
  cases auxHeader with
  | none =>
    refine ⟨w ++ ciphertext.bytes, rfl, ?_⟩
    refine Parse.bind_eq_pure.mpr ⟨(), Parse.check_of ?_ _, ?_⟩
    · rw [List.length_append, hlen]
      exact hsize
    refine Parse.bind_eq_pure.mpr ⟨(header, ciphertext.bytes),
      NwkHeader.deserialize_eq_pure.mpr ⟨hflags.header, w, hw, rfl⟩, ?_⟩
    refine Parse.bind_eq_pure.mpr ⟨(none, ciphertext.bytes), ?_, ?_⟩
    · exact if_neg (Bool.eq_false_iff.mp hflags.security)
    · exact Parse.bind_eq_pure.mpr
        ⟨ciphertext, FrameBytes.fromSliceOr_eq_pure.mpr rfl, rfl⟩
  | some aux =>
    obtain ⟨control, hcontrol, hone⟩ :=
      NwkSecurityHeaderControlField.fixed_codec.writeBytes aux.securityControl
    dsimp only
    rw [NwkAuxHeader.serializeInto_eq hcontrol]
    refine ⟨_, rfl, ?_⟩
    simp only [List.nil_append, List.append_assoc]
    refine Parse.bind_eq_pure.mpr ⟨(), Parse.check_of ?_ _, ?_⟩
    · rw [Option.map_some, Option.getD_some, NwkAuxHeader.size] at hsize
      simp only [List.length_append, List.length_cons, List.length_nil, hlen, hone, length_leBytes,
        NwkAuxHeader.tailBytes, bytesFor]
      omega
    refine Parse.bind_eq_pure.mpr ⟨(header, control ++ (aux.tailBytes ++ ciphertext.bytes)),
      NwkHeader.deserialize_eq_pure.mpr ⟨hflags.header, w, hw, rfl⟩, ?_⟩
    refine Parse.bind_eq_pure.mpr ⟨(some aux, ciphertext.bytes), ?_, ?_⟩
    · refine (if_pos hflags.security).trans ?_
      rw [← List.append_assoc]
      exact Parse.bind_eq_pure.mpr
        ⟨_, NwkAuxHeader.deserialize_eq hcontrol (hflags.extendedNonce aux rfl), rfl⟩
    · exact Parse.bind_eq_pure.mpr
        ⟨ciphertext, FrameBytes.fromSliceOr_eq_pure.mpr rfl, rfl⟩

end EncryptedNwkFrame

/-! ## Encryption -/

namespace NwkFrame

variable {backend : CryptoBackend} {frame : NwkFrame} {key : Key} {encrypted : EncryptedNwkFrame}

/-- Decryption takes back the bytes of the payload, and the frame type says what they are. -/
theorem decrypt_encrypt (inverts : backend.Inverts) (h : frame.encrypt backend key = .ok encrypted)
    {body : FrameBytes} (hbody : frame.payload.toBytes = .ok body) {payload : NwkPayload}
    (hpayload : NwkPayload.fromBytes frame.nwkHeader.frameControl.frameType body = .ok payload) :
    encrypted.decrypt backend key = pure { frame with payload } := by
  obtain ⟨auxHeader, haux, h⟩ := Checked.bind_eq_ok.mp h
  obtain ⟨nonce, hnonce, h⟩ := Checked.bind_eq_ok.mp h
  obtain ⟨authData, hauth, h⟩ := Checked.bind_eq_ok.mp h
  rw [hbody, Checked.ok_bind] at h
  obtain ⟨ciphertext, hciphertext, h⟩ := Checked.bind_eq_ok.mp h
  cases h
  refine Parse.bind_eq_pure.mpr ⟨auxHeader, Parse.liftM_eq_pure.mpr haux, ?_⟩
  refine Parse.bind_eq_pure.mpr ⟨nonce, Parse.liftM_eq_pure.mpr hnonce, ?_⟩
  refine Parse.bind_eq_pure.mpr ⟨authData, Parse.liftM_eq_pure.mpr hauth, ?_⟩
  refine Parse.bind_eq_pure.mpr ⟨body, decryptCcm_encryptCcm inverts hciphertext, ?_⟩
  exact Parse.bind_eq_pure.mpr ⟨payload, Parse.liftM_eq_pure.mpr hpayload, rfl⟩

/-- The presence flags of a frame match its optional fields. -/
abbrev Flagged (frame : NwkFrame) : Prop := frame.nwkHeader.FlaggedWith frame.auxHeader

/-- The frame is encrypted, serialized, parsed and decrypted.  What comes back has the payload
that the frame type says. -/
theorem comes_back (inverts : backend.Inverts) (key : Key) (hflags : frame.Flagged)
    {aux : NwkAuxHeader} (haux : frame.auxHeader = some aux)
    (hsource : aux.extendedSource.isSome = true) {body : FrameBytes}
    (hbody : frame.payload.toBytes = .ok body)
    (hsize : frame.nwkHeader.size + aux.size + (body.bytes.length + micLength) ≤ maxPhyPacketSize)
    {payload : NwkPayload}
    (hpayload : NwkPayload.fromBytes frame.nwkHeader.frameControl.frameType body = .ok payload) :
    ∃ encrypted bytes, frame.encrypt backend key = .ok encrypted ∧
      encrypted.toBytes = .ok bytes ∧ EncryptedNwkFrame.fromBytes bytes = pure encrypted ∧
      encrypted.decrypt backend key = pure { frame with payload } := by
  have hroute : frame.nwkHeader.sourceRouteSize ≤ maxPhyPacketSize := by
    unfold NwkHeader.size at hsize
    omega
  obtain ⟨ciphertext, hencrypt, hlen⟩ :=
    @encrypt_eq_ok backend frame aux body key haux hsource hbody hroute (by omega)
  obtain ⟨bytes, hbytes, hparse⟩ := @EncryptedNwkFrame.fromBytes_toBytes
    ⟨frame.nwkHeader, some aux, ciphertext⟩
    ⟨hflags.header, haux ▸ hflags.security, haux ▸ hflags.extendedNonce⟩
    (by rw [EncryptedNwkFrame.size, hlen]; exact hsize)
  exact ⟨_, bytes, hencrypt, hbytes, hparse, decrypt_encrypt inverts hencrypt hbody hpayload⟩

/-- The payload is a command exactly if the frame type says so. -/
def Labelled (frame : NwkFrame) : Prop :=
  frame.nwkHeader.frameControl.frameType = .command ↔ ∃ command, frame.payload = .command command

/-- The bytes of a payload that fits the frame type are that payload. -/
theorem Labelled.fromBytes {body : FrameBytes} (h : frame.Labelled)
    (hbody : frame.payload.toBytes = .ok body)
    (hcommand : ∀ command bytes, frame.payload = .command command → command.toBytes = .ok bytes →
      NwkCommand.fromBytes bytes = .ok command) :
    NwkPayload.fromBytes frame.nwkHeader.frameControl.frameType body = .ok frame.payload := by
  cases hpayload : frame.payload with
  | command command =>
    rw [h.mpr ⟨command, hpayload⟩]
    rw [hpayload] at hbody
    rw [NwkPayload.fromBytes, hcommand command _ hpayload (toBytes_command_iff.mp hbody)]
    rfl
  | opaqueBytes bytes =>
    rw [hpayload] at hbody
    cases hbody
    have htype : frame.nwkHeader.frameControl.frameType ≠ .command := by
      intro htype
      obtain ⟨command, hsome⟩ := h.mp htype
      rw [hpayload] at hsome
      cases hsome
    unfold NwkPayload.fromBytes
    split
    next hmatch => exact absurd hmatch htype
    next => rfl
    next => rfl

end NwkFrame

/-- Bytes that are accepted are serialized again as they were, and a frame is encrypted,
serialized, parsed and decrypted to itself. -/
theorem nwk_frame_round_trip {backend : CryptoBackend} (inverts : backend.Inverts) :
    (∀ bytes frame, EncryptedNwkFrame.fromBytes bytes = pure frame → frame.ReservedZero bytes →
      frame.toBytes = .ok bytes) ∧
    ∀ (frame : NwkFrame) (key : Key) (aux : NwkAuxHeader) (body : FrameBytes), frame.Flagged →
      frame.auxHeader = some aux → aux.extendedSource.isSome = true →
      frame.payload.toBytes = .ok body →
      frame.nwkHeader.size + aux.size + (body.bytes.length + micLength) ≤ maxPhyPacketSize →
      frame.Labelled →
      (∀ command bytes, frame.payload = .command command → command.toBytes = .ok bytes →
        NwkCommand.fromBytes bytes = .ok command) →
      ∃ encrypted bytes, frame.encrypt backend key = .ok encrypted ∧
        encrypted.toBytes = .ok bytes ∧ EncryptedNwkFrame.fromBytes bytes = pure encrypted ∧
        encrypted.decrypt backend key = pure frame := by
  refine ⟨fun _ _ => EncryptedNwkFrame.toBytes_of_fromBytes, ?_⟩
  intro frame key aux body hflags haux hsource hbody hsize hlabelled hcommand
  exact NwkFrame.comes_back inverts key hflags haux hsource hbody hsize
    (hlabelled.fromBytes hbody hcommand)

namespace Example

/-- A frame from the coordinator, with the frame type and the payload given. -/
def framed (frameType : NwkFrameType) (payload : NwkPayload) : NwkFrame where
  nwkHeader :=
    { frameControl :=
        { frameType
          protocolVersion := 2
          discoverRoute := .suppress
          multicast := false
          security := true
          sourceRoute := false
          destination := false
          extendedSource := false
          endDeviceInitiator := false
          reserved1 := 0 }
      destination := 0x6B42
      source := 0
      radius := 15
      sequenceNumber := 46
      destinationIeee := none
      sourceIeee := none
      multicastControl := none
      sourceRoute := none }
  auxHeader := some
    { securityControl := ⟨.noSecurity, .networkKey, true, false⟩
      frameCounter := 0x0A7A
      extendedSource := some 0x00124B001E17EFA8
      keySequenceNumber := 0 }
  payload := payload

theorem flagged_framed (frameType : NwkFrameType) (payload : NwkPayload) :
    (framed frameType payload).Flagged where
  header := ⟨rfl, rfl, rfl, rfl⟩
  security := rfl
  extendedNonce := by
    rintro aux ⟨⟩
    rfl

def leave : NwkPayload := .command (.leave ⟨false, false, false⟩)

/-- The command id and the options. -/
def leaveBytes : FrameBytes := ⟨[0x04, 0x00], by decide⟩

theorem toBytes_leave : leave.toBytes = .ok leaveBytes := by decide

/-- A data frame of the tests of the source. -/
def received : Bytes :=
  [0x08, 0x02, 0x42, 0x6B, 0x00, 0x00, 0x0F, 0x2E, 0x28, 0x7A, 0x0A, 0x00, 0x00, 0xA8, 0xEF, 0x17,
    0x1E, 0x00, 0x4B, 0x12, 0x00, 0x00, 0xF7, 0xA7, 0xE3, 0x7B, 0x47, 0xAD, 0xB4, 0x75, 0x93, 0xC8,
    0xA3, 0x75, 0xC9, 0x8B, 0xA6]

end Example

open Example in
/-- Both halves at a frame of the tests and at a leave command. -/
theorem nwk_frame_round_trip_leave :
    (∃ frame, EncryptedNwkFrame.fromBytes received = pure frame ∧ frame.toBytes = .ok received) ∧
    ∃ encrypted bytes, (framed .command leave).encrypt SoftwareBackend 7 = .ok encrypted ∧
      encrypted.toBytes = .ok bytes ∧ EncryptedNwkFrame.fromBytes bytes = pure encrypted ∧
      encrypted.decrypt SoftwareBackend 7 = pure (framed .command leave) := by
  obtain ⟨haccepted, hback⟩ := nwk_frame_round_trip SoftwareBackend.inverts
  constructor
  · have hsize : (EncryptedNwkFrame.fromBytes received).toOption.map
        (Option.map (·.nwkHeader.size)) = .ok (some 8) := by
      decide +kernel
    match hframe : EncryptedNwkFrame.fromBytes received, hsize with
    | .ok (.ok frame), hsize =>
      refine ⟨frame, rfl, haccepted _ _ hframe fun _ control hcontrol => ?_⟩
      have hoffset : frame.nwkHeader.size = 8 := Option.some.inj (Except.ok.inj hsize)
      rw [hoffset] at hcontrol
      cases hcontrol
      decide
  · refine hback _ 7 _ leaveBytes (flagged_framed _ _) rfl rfl toBytes_leave (by decide)
      (iff_of_true rfl ⟨_, rfl⟩) ?_
    rintro command bytes ⟨⟩ hbytes
    cases hbytes
    rfl

open Example in
/-- A leave command in a frame that says that it is data comes back as data. -/
theorem nwk_frame_mislabelled :
    (framed .data leave).Flagged ∧
    (∃ aux, (framed .data leave).auxHeader = some aux ∧
      aux.securityControl.securityLevel = .noSecurity ∧ aux.extendedSource.isSome = true ∧
      (framed .data leave).nwkHeader.size + aux.size + (leaveBytes.bytes.length + micLength) ≤
        maxPhyPacketSize) ∧
    (∀ command bytes, leave = .command command → command.toBytes = .ok bytes →
      NwkCommand.fromBytes bytes = .ok command) ∧
    ∃ encrypted bytes, (framed .data leave).encrypt SoftwareBackend 7 = .ok encrypted ∧
      encrypted.toBytes = .ok bytes ∧ EncryptedNwkFrame.fromBytes bytes = pure encrypted ∧
      encrypted.decrypt SoftwareBackend 7 = pure (framed .data (.opaqueBytes leaveBytes)) ∧
      framed .data (.opaqueBytes leaveBytes) ≠ framed .data leave := by
  refine ⟨flagged_framed _ _, ⟨_, rfl, rfl, rfl, by decide⟩, ?_, ?_⟩
  · rintro command bytes ⟨⟩ hbytes
    cases hbytes
    rfl
  · obtain ⟨encrypted, bytes, hencrypt, hbytes, hparse, hdecrypt⟩ :=
      NwkFrame.comes_back SoftwareBackend.inverts 7 (flagged_framed .data leave) rfl rfl
        toBytes_leave (by decide) rfl
    exact ⟨encrypted, bytes, hencrypt, hbytes, hparse, hdecrypt, by decide⟩

end Ziggurat
