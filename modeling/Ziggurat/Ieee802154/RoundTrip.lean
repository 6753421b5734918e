import Ziggurat.Ieee802154.Layout

/-!
# 802.15.4 frames on the wire and back

`Ieee802154FrameHeader.Layout` says which bytes a header is, and `Addressed` which headers the
parser makes: the frame control tells the fields that are there, and a compressed source PAN id
is that of the destination.  A buffer is parsed into a header exactly if it starts with the
layout of such a header.

The body of a data frame or a beacon is kept as it is.  What follows the header of an
acknowledgement, or the body of a command, is dropped, so these frames can come out shorter than
they came in, and are read as the same frame then.
-/

namespace Ziggurat

open Lib.BitCodec

/-! ## The fields of the header -/

/-- The mode that announces an address. -/
def addressingMode : Option Ieee802154Address → Ieee802154AddressingMode
  | none => .none
  | some (.nwk _) => .short
  | some (.eui64 _) => .long

theorem Ieee802154FrameControl.exact_codec : codec.Exact :=
  ((Codec.exact_enum _).pair <| Codec.exact_bool.pair <| Codec.exact_bool.pair <|
    Codec.exact_bool.pair <| Codec.exact_bool.pair <| Codec.exact_bool.pair <|
    Codec.exact_bool.pair <| Codec.exact_bool.pair <| (Codec.exact_enum _).pair <|
    (Codec.exact_enum _).pair <| Codec.exact_enum _).imap

namespace Ieee802154FrameHeader

variable {frameControl : Ieee802154FrameControl} {mode : Ieee802154AddressingMode}
  {panId destPanId : Option PanId} {address : Option Ieee802154Address} {bytes rest : Bytes}

theorem parseSequenceNumber_eq_pure {sequenceNumber : Option UInt8} :
    parseSequenceNumber frameControl bytes = pure (sequenceNumber, rest) ↔
      frameControl.sequenceNumberSuppression = sequenceNumber.isNone ∧
        bytes = sequenceNumber.toList ++ rest := by
  unfold parseSequenceNumber
  cases frameControl.sequenceNumberSuppression with
  | true =>
    rw [if_pos rfl, Parse.pure_eq_pure]
    constructor
    · intro h
      cases h
      exact ⟨rfl, rfl⟩
    · rintro ⟨hnone, rfl⟩
      rw [Option.isNone_iff_eq_none.mp hnone.symm]
      rfl
  | false =>
    rw [if_neg Bool.false_ne_true]
    constructor
    · intro h
      obtain ⟨_, -, h⟩ := Parse.bind_eq_pure.mp h
      obtain ⟨byte, hbyte, h⟩ := Parse.bind_eq_pure.mp h
      obtain ⟨remaining, hremaining, h⟩ := Parse.bind_eq_pure.mp h
      cases Parse.pure_eq_pure.mp h
      exact ⟨rfl, Bytes.eq_cons_of_index (Parse.liftM_eq_pure.mp hbyte)
        (Parse.liftM_eq_pure.mp hremaining)⟩
    · rintro ⟨hsome, rfl⟩
      obtain ⟨byte, rfl⟩ := Option.isSome_iff_exists.mp (Option.isNone_eq_false_iff.mp hsome.symm)
      change (Parse.check (byte :: rest ≠ []) _ >>= _) = _
      rw [Parse.check_of (List.cons_ne_nil _ _), pure_bind]
      simp

theorem parseSrcAddress_eq_pure :
    parseSrcAddress mode bytes = pure (address, rest) ↔
      mode = addressingMode address ∧
        bytes = optionBytes Ieee802154Address.toBytes address ++ rest := by
  cases mode with
  | none =>
    change (pure (none, bytes) : Parse _ _) = _ ↔ _
    rw [Parse.pure_eq_pure]
    match address with
    | none => simp [addressingMode]
    | some (.nwk _) | some (.eui64 _) => simp [addressingMode]
  | short =>
    constructor
    · intro h
      obtain ⟨⟨nwk, remaining⟩, hnwk, h⟩ := Parse.bind_eq_pure.mp h
      cases Parse.pure_eq_pure.mp h
      exact ⟨rfl, deserializeLe_eq_pure.mp hnwk⟩
    · rintro ⟨hmode, rfl⟩
      match address, hmode with
      | some (.nwk nwk), _ =>
        exact Parse.bind_eq_pure.mpr ⟨(nwk, rest), deserializeLe_eq_pure.mpr rfl, rfl⟩
  | long =>
    constructor
    · intro h
      obtain ⟨⟨eui64, remaining⟩, heui64, h⟩ := Parse.bind_eq_pure.mp h
      cases Parse.pure_eq_pure.mp h
      exact ⟨rfl, deserializeLe_eq_pure.mp heui64⟩
    · rintro ⟨hmode, rfl⟩
      match address, hmode with
      | some (.eui64 eui64), _ =>
        exact Parse.bind_eq_pure.mpr ⟨(eui64, rest), deserializeLe_eq_pure.mpr rfl, rfl⟩

theorem parseDestination_eq_pure :
    parseDestination mode bytes = pure (panId, address, rest) ↔
      mode = addressingMode address ∧ panId.isSome = address.isSome ∧
        bytes = optionBytes PanId.toBytes panId ++
          (optionBytes Ieee802154Address.toBytes address ++ rest) := by
  cases mode with
  | none =>
    change (pure (none, none, bytes) : Parse _ _) = _ ↔ _
    rw [Parse.pure_eq_pure]
    match panId, address with
    | none, none | some _, none => simp [addressingMode]
    | _, some (.nwk _) | _, some (.eui64 _) => simp [addressingMode]
  | short =>
    constructor
    · intro h
      obtain ⟨⟨pan, remaining⟩, hpan, h⟩ := Parse.bind_eq_pure.mp h
      obtain ⟨⟨nwk, remaining'⟩, hnwk, h⟩ := Parse.bind_eq_pure.mp h
      cases Parse.pure_eq_pure.mp h
      refine ⟨rfl, rfl, ?_⟩
      rw [deserializeLe_eq_pure.mp hpan, deserializeLe_eq_pure.mp hnwk]
      rfl
    · rintro ⟨hmode, hpan, rfl⟩
      match address, hmode with
      | some (.nwk nwk), _ =>
        obtain ⟨pan, rfl⟩ := Option.isSome_iff_exists.mp hpan
        refine Parse.bind_eq_pure.mpr ⟨(pan, _), deserializeLe_eq_pure.mpr rfl, ?_⟩
        exact Parse.bind_eq_pure.mpr ⟨(nwk, rest), deserializeLe_eq_pure.mpr rfl, rfl⟩
  | long =>
    constructor
    · intro h
      obtain ⟨⟨pan, remaining⟩, hpan, h⟩ := Parse.bind_eq_pure.mp h
      obtain ⟨⟨eui64, remaining'⟩, heui64, h⟩ := Parse.bind_eq_pure.mp h
      cases Parse.pure_eq_pure.mp h
      refine ⟨rfl, rfl, ?_⟩
      rw [deserializeLe_eq_pure.mp hpan, deserializeLe_eq_pure.mp heui64]
      rfl
    · rintro ⟨hmode, hpan, rfl⟩
      match address, hmode with
      | some (.eui64 eui64), _ =>
        obtain ⟨pan, rfl⟩ := Option.isSome_iff_exists.mp hpan
        refine Parse.bind_eq_pure.mpr ⟨(pan, _), deserializeLe_eq_pure.mpr rfl, ?_⟩
        exact Parse.bind_eq_pure.mpr ⟨(eui64, rest), deserializeLe_eq_pure.mpr rfl, rfl⟩

/-- The source PAN id as it is written: not at all if it is compressed. -/
def srcPanIdBytes (frameControl : Ieee802154FrameControl) (panId : Option PanId) : Bytes :=
  if frameControl.panIdCompression then [] else optionBytes PanId.toBytes panId

/-- The source PAN id that a parsed header has. -/
def SrcPanIdOf (frameControl : Ieee802154FrameControl) (destPanId panId : Option PanId) : Prop :=
  if frameControl.panIdCompression then panId = destPanId
  else panId.isSome = (frameControl.srcAddrMode != .none)

theorem parseSrcPanId_eq_pure :
    parseSrcPanId frameControl destPanId bytes = pure (panId, rest) ↔
      SrcPanIdOf frameControl destPanId panId ∧
        bytes = srcPanIdBytes frameControl panId ++ rest := by
  unfold parseSrcPanId SrcPanIdOf srcPanIdBytes
  by_cases hcompressed : frameControl.panIdCompression = true
  · rw [if_pos hcompressed, if_pos hcompressed, if_pos hcompressed, Parse.pure_eq_pure,
      Prod.mk.injEq, List.nil_append, eq_comm]
  · rw [if_neg hcompressed, if_neg hcompressed, if_neg hcompressed]
    by_cases hnone : frameControl.srcAddrMode = .none
    · rw [if_neg (not_not_intro hnone), Parse.pure_eq_pure, hnone]
      cases panId <;> simp
    · rw [if_pos hnone, bne_iff_ne.mpr hnone]
      constructor
      · intro h
        obtain ⟨⟨pan, remaining⟩, hpan, h⟩ := Parse.bind_eq_pure.mp h
        cases Parse.pure_eq_pure.mp h
        exact ⟨rfl, deserializeLe_eq_pure.mp hpan⟩
      · rintro ⟨hsome, rfl⟩
        obtain ⟨pan, rfl⟩ := Option.isSome_iff_exists.mp hsome
        exact Parse.bind_eq_pure.mpr ⟨(pan, rest), deserializeLe_eq_pure.mpr rfl, rfl⟩

/-! ## The header -/

/-- The fields that are there are those that the frame control announces. -/
structure Addressed (header : Ieee802154FrameHeader) : Prop where
  sequenceNumber : header.frameControl.sequenceNumberSuppression = header.sequenceNumber.isNone
  destination : header.frameControl.destAddrMode = addressingMode header.destAddress
  destPanId : header.destPanId.isSome = header.destAddress.isSome
  srcPanId : SrcPanIdOf header.frameControl header.destPanId header.srcPanId
  source : header.frameControl.srcAddrMode = addressingMode header.srcAddress

/-- The bytes of a header. -/
def Layout (header : Ieee802154FrameHeader) (bytes : Bytes) : Prop :=
  ∃ control, Ieee802154FrameControl.codec.writeBytes header.frameControl = some control ∧
    bytes = control ++ (header.sequenceNumber.toList ++
      (optionBytes PanId.toBytes header.destPanId ++
      (optionBytes Ieee802154Address.toBytes header.destAddress ++
      (srcPanIdBytes header.frameControl header.srcPanId ++
      optionBytes Ieee802154Address.toBytes header.srcAddress))))

variable {header : Ieee802154FrameHeader}

theorem parse_eq_pure : parse bytes = pure (header, rest) ↔
    header.Addressed ∧ ∃ w, header.Layout w ∧ bytes = w ++ rest := by
  constructor
  · intro h
    obtain ⟨⟨control, n⟩, hcontrol, h⟩ := Parse.bind_eq_pure.mp h
    obtain ⟨r₁, h₁, h⟩ := Parse.bind_eq_pure.mp h
    obtain ⟨⟨sequenceNumber, r₂⟩, h₂, h⟩ := Parse.bind_eq_pure.mp h
    obtain ⟨⟨destPanId, destAddress, r₃⟩, h₃, h⟩ := Parse.bind_eq_pure.mp h
    obtain ⟨⟨srcPanId, r₄⟩, h₄, h⟩ := Parse.bind_eq_pure.mp h
    obtain ⟨⟨srcAddress, r₅⟩, h₅, h⟩ := Parse.bind_eq_pure.mp h
    cases Parse.pure_eq_pure.mp h
    obtain ⟨w, hw, hbytes⟩ := eq_append_of_readBytes Ieee802154FrameControl.exact_codec
      (Ieee802154FrameControl.fixed_codec.whole (by decide)) (Parse.ofExcept_eq_pure.mp hcontrol)
      (Parse.liftM_eq_pure.mp h₁)
    obtain ⟨hsequence, h₂⟩ := parseSequenceNumber_eq_pure.mp h₂
    obtain ⟨hdestination, hdestPanId, h₃⟩ := parseDestination_eq_pure.mp h₃
    obtain ⟨hsrcPanId, h₄⟩ := parseSrcPanId_eq_pure.mp h₄
    obtain ⟨hsource, h₅⟩ := parseSrcAddress_eq_pure.mp h₅
    refine ⟨⟨hsequence, hdestination, hdestPanId, hsrcPanId, hsource⟩, _, ⟨w, hw, rfl⟩, ?_⟩
    rw [hbytes, h₂, h₃, h₄, h₅]
    simp only [List.append_assoc]
  · rintro ⟨haddressed, _, ⟨control, hcontrol, rfl⟩, rfl⟩
    simp only [List.append_assoc]
    refine Parse.bind_eq_pure.mpr ⟨(header.frameControl, control.length),
      Parse.ofExcept_eq_pure.mpr (Codec.readBytes_writeBytes hcontrol _), ?_⟩
    refine Parse.bind_eq_pure.mpr
      ⟨_, Parse.liftM_eq_pure.mpr (Bytes.sliceFrom_append rfl _), ?_⟩
    refine Parse.bind_eq_pure.mpr ⟨(header.sequenceNumber, _),
      parseSequenceNumber_eq_pure.mpr ⟨haddressed.sequenceNumber, rfl⟩, ?_⟩
    refine Parse.bind_eq_pure.mpr ⟨(header.destPanId, header.destAddress, _),
      parseDestination_eq_pure.mpr ⟨haddressed.destination, haddressed.destPanId, rfl⟩, ?_⟩
    refine Parse.bind_eq_pure.mpr ⟨(header.srcPanId, _),
      parseSrcPanId_eq_pure.mpr ⟨haddressed.srcPanId, rfl⟩, ?_⟩
    exact Parse.bind_eq_pure.mpr ⟨(header.srcAddress, rest),
      parseSrcAddress_eq_pure.mpr ⟨haddressed.source, rfl⟩, rfl⟩

theorem length_control {control : Ieee802154FrameControl} {w : Bytes}
    (h : Ieee802154FrameControl.codec.writeBytes control = some w) : w.length = 2 :=
  (Ieee802154FrameControl.fixed_codec.readBytes (Codec.readBytes_writeBytes h [])).1.trans rfl

/-- A header is serialized as its layout. -/
theorem Layout.toBytes {w : Bytes} (h : header.Layout w) : header.toBytes = .ok w := by
  obtain ⟨control, hcontrol, rfl⟩ := h
  unfold Ieee802154FrameHeader.toBytes srcPanIdBytes
  rw [extendAbstractBits_eq hcontrol (by rw [length_control hcontrol]; decide), Checked.ok_bind]
  split <;> simp

theorem Layout.two_le_length {w : Bytes} (h : header.Layout w) : 2 ≤ w.length := by
  obtain ⟨control, hcontrol, rfl⟩ := h
  rw [List.length_append, length_control hcontrol]
  omega

end Ieee802154FrameHeader

/-! ## Commands -/

theorem Ieee802154AssociationRequestCommand.exact_codec : codec.Exact :=
  (Codec.exact_bool.pair <| (Codec.exact_enum _).pair <| (Codec.exact_enum _).pair <|
    Codec.exact_bool.pair <| (Codec.exact_uint 2).pair <|
    Codec.exact_bool.pair Codec.exact_bool).imap

theorem Ieee802154AssociationRequestCommand.fixed_codec : codec.Fixed 8 :=
  (Codec.fixed_bool.pair <| (Codec.fixed_enum _).pair <| (Codec.fixed_enum _).pair <|
    Codec.fixed_bool.pair <| (Codec.fixed_uint 2).pair <|
    Codec.fixed_bool.pair Codec.fixed_bool).imap

theorem Ieee802154AssociationResponseCommand.exact_codec : codec.Exact :=
  ((Codec.exact_uint 16).pair (Codec.exact_enum _)).imap

theorem Ieee802154AssociationResponseCommand.fixed_codec : codec.Fixed 24 :=
  ((Codec.fixed_uint 16).pair (Codec.fixed_enum _)).imap

/-- A structure of whole bytes is read from what is written for it. -/
theorem eq_append_of_fromAbstractBytes {α : Type} {c : Codec α} {k : Nat} {bytes : Bytes} {a : α}
    (hexact : c.Exact) (hfixed : c.Fixed k) (hwhole : 8 ∣ k)
    (h : fromAbstractBytes c bytes = .ok a) :
    ∃ w rest, c.writeBytes a = some w ∧ w.length = bytesFor k ∧ bytes = w ++ rest := by
  unfold fromAbstractBytes at h
  cases hread : c.readBytes bytes with
  | error err =>
    rw [hread] at h
    cases h
  | ok read =>
    rw [hread] at h
    cases h
    obtain ⟨w, rest, hw, hlength, hbytes⟩ :=
      (readBytes_eq_ok hexact (hfixed.whole hwhole)).mp hread
    exact ⟨w, rest, hw, hlength.trans (hfixed.readBytes hread).1, hbytes⟩

namespace Ieee802154CommandPayload

/-- A command is written as bytes that are read as it, and that are no more than it was read
from. -/
def Reserialized (payload : Ieee802154CommandPayload) (rest : Bytes) : Prop :=
  ∃ body, payload.toBytes = .ok body ∧ body ≠ [] ∧ body.length ≤ rest.length ∧
    fromBytes body = payload

theorem reserialized_of_tryParse {idByte : UInt8} {body w : Bytes} {id : Ieee802154CommandId}
    {payload : Ieee802154CommandPayload}
    (hid : Ieee802154CommandId.enum.ofDisc idByte.toFin = some id)
    (hwritten : payload.toBytes = .ok (UInt8.ofFin (Ieee802154CommandId.enum.disc id) :: w))
    (hlength : w.length ≤ body.length) (hparsed : tryParse (idByte :: w) = some payload) :
    payload.Reserialized (idByte :: body) := by
  have hbyte : UInt8.ofFin (Ieee802154CommandId.enum.disc id) = idByte := by
    rw [Ieee802154CommandId.enum.disc_of_ofDisc hid]
    rfl
  rw [hbyte] at hwritten
  refine ⟨_, hwritten, List.cons_ne_nil _ _, Nat.succ_le_succ hlength, ?_⟩
  rw [fromBytes, hparsed]
  rfl

/-- A command whose body is a structure. -/
theorem reserialized_of_body {α : Type} {c : Codec α} {k : Nat} (hexact : c.Exact)
    (hfixed : c.Fixed k) (hwhole : 8 ∣ k) {idByte : UInt8} {id : Ieee802154CommandId}
    (hid : Ieee802154CommandId.enum.ofDisc idByte.toFin = some id)
    {make : α → Ieee802154CommandPayload}
    (hwrite : ∀ a, (make a).toBytes = toBytes.command id (c.writeBytes a))
    (hparse : ∀ body, tryParse (idByte :: body) = (fromAbstractBytes c body).toOption.map make)
    {body : Bytes} {payload : Ieee802154CommandPayload}
    (h : tryParse (idByte :: body) = some payload) : payload.Reserialized (idByte :: body) := by
  rw [hparse] at h
  obtain ⟨a, ha, rfl⟩ := Option.map_eq_some_iff.mp h
  have hbody : fromAbstractBytes c body = .ok a := by
    cases hread : fromAbstractBytes c body with
    | error err => rw [hread] at ha; cases ha
    | ok read => rw [hread] at ha; cases ha; rfl
  obtain ⟨w, rest, hw, -, rfl⟩ := eq_append_of_fromAbstractBytes hexact hfixed hwhole hbody
  have hlength : w.length ≤ (w ++ rest).length := by
    rw [List.length_append]
    omega
  refine reserialized_of_tryParse hid ?_ hlength ?_
  · rw [hwrite, hw]
    rfl
  · have hback := fromAbstractBytes_append hw []
    rw [List.append_nil] at hback
    rw [hparse, hback]
    rfl

theorem fromBytes_reserialized {rest : Bytes} (hrest : rest ≠ []) :
    (fromBytes rest).Reserialized rest := by
  cases hparse : tryParse rest with
  | none =>
    have hunknown : fromBytes rest = .unknown rest := by rw [fromBytes, hparse]; rfl
    rw [hunknown]
    exact ⟨rest, rfl, hrest, le_rfl, hunknown⟩
  | some payload =>
    have hpayload : fromBytes rest = payload := by rw [fromBytes, hparse]; rfl
    rw [hpayload]
    obtain ⟨idByte, body, rfl⟩ := List.exists_cons_of_ne_nil hrest
    obtain ⟨id, hid, hcase⟩ := Option.bind_eq_some_iff.mp hparse
    have hselect : ∀ body, tryParse (idByte :: body) = _ := fun body => by
      rw [tryParse, hid, Option.bind_eq_bind, Option.bind_some]
    cases id with
    | associationRequest =>
      exact reserialized_of_body Ieee802154AssociationRequestCommand.exact_codec
        Ieee802154AssociationRequestCommand.fixed_codec (by decide) hid (fun _ => rfl)
        (fun body => (hselect body).trans (Option.map_eq_bind ..).symm) hparse
    | associationResponse =>
      exact reserialized_of_body Ieee802154AssociationResponseCommand.exact_codec
        Ieee802154AssociationResponseCommand.fixed_codec (by decide) hid (fun _ => rfl)
        (fun body => (hselect body).trans (Option.map_eq_bind ..).symm) hparse
    | disassociationNotification =>
      exact reserialized_of_body (Codec.exact_enum _) (Codec.fixed_enum _) (by decide) hid
        (fun _ => rfl) (fun body => (hselect body).trans (Option.map_eq_bind ..).symm) hparse
    | dataRequest | beaconRequest =>
      cases hcase
      exact reserialized_of_tryParse hid rfl (Nat.zero_le _) (hselect _)
    | _ => cases hcase

end Ieee802154CommandPayload

/-! ## Frames -/

theorem SuperframeSpecification.exact_codec : codec.Exact :=
  ((Codec.exact_uint 4).pair <| (Codec.exact_uint 4).pair <| (Codec.exact_uint 4).pair <|
    Codec.exact_bool.pair <| (Codec.exact_uint 1).pair <|
    Codec.exact_bool.pair Codec.exact_bool).imap

theorem SuperframeSpecification.fixed_codec : codec.Fixed 16 :=
  ((Codec.fixed_uint 4).pair <| (Codec.fixed_uint 4).pair <| (Codec.fixed_uint 4).pair <|
    Codec.fixed_bool.pair <| (Codec.fixed_uint 1).pair <|
    Codec.fixed_bool.pair Codec.fixed_bool).imap

namespace Ieee802154Frame

/-- The frame with another check sequence. -/
def withFcs {P : Type} (fcs : UInt16) : Ieee802154Frame P → Ieee802154Frame P
  | .beacon frame => .beacon { frame with fcs }
  | .data frame => .data { frame with fcs }
  | .ack frame => .ack { frame with fcs }
  | .command frame => .command { frame with fcs }

variable {header : Ieee802154FrameHeader} {frame : Ieee802154Frame FrameBytes} {fcs : UInt16}

/-- The bytes that are written for the body of a frame that was parsed from `rest`. -/
structure Body (header : Ieee802154FrameHeader) (frame : Ieee802154Frame FrameBytes)
    (rest body : Bytes) : Prop where
  written : ∀ w, header.toBytes = .ok w → frame.toBytesWithoutFcs = .ok (w ++ body)
  parsed : ∀ fcs, parseBody header fcs body = pure (frame.withFcs fcs)
  length : body.length ≤ rest.length
  data : ∀ data, frame = .data data → body = rest

/-- The first bytes of the body of a beacon are its fields. -/
theorem eq_of_superframe {rest head payload : Bytes} {specification : SuperframeSpecification}
    {gts pending : UInt8} (hlength : 4 ≤ rest.length) (hhead : rest.sliceTo 4 = .ok head)
    (hspecification : fromAbstractBytes SuperframeSpecification.codec head = .ok specification)
    (hgts : rest.index 2 = .ok gts) (hpending : rest.index 3 = .ok pending)
    (hpayload : rest.sliceFrom 4 = .ok payload) :
    ∃ written, SuperframeSpecification.codec.writeBytes specification = some written ∧
      written.length = 2 ∧ rest = written ++ [gts, pending] ++ payload := by
  match rest, hlength with
  | b₀ :: b₁ :: b₂ :: b₃ :: tail, _ =>
    cases hgts
    cases hpending
    cases hhead
    cases hpayload
    obtain ⟨written, tail', hwritten, hlength, hhead⟩ := eq_append_of_fromAbstractBytes
      SuperframeSpecification.exact_codec SuperframeSpecification.fixed_codec (by decide)
      hspecification
    refine ⟨written, hwritten, hlength, ?_⟩
    match written, hlength with
    | [c₀, c₁], _ =>
      cases hhead
      rfl

theorem parseBody_body {rest : Bytes} (h : parseBody header fcs rest = pure frame) :
    ∃ body, Body header frame rest body := by
  unfold parseBody at h
  cases htype : header.frameControl.frameType with
  | beacon =>
    rw [htype] at h
    obtain ⟨_, hversion, h⟩ := Parse.bind_eq_pure.mp h
    obtain ⟨_, hlength, h⟩ := Parse.bind_eq_pure.mp h
    obtain ⟨head, hhead, h⟩ := Parse.bind_eq_pure.mp h
    obtain ⟨specification, hspecification, h⟩ := Parse.bind_eq_pure.mp h
    obtain ⟨gts, hgts, h⟩ := Parse.bind_eq_pure.mp h
    obtain ⟨pending, hpending, h⟩ := Parse.bind_eq_pure.mp h
    obtain ⟨payload, hpayload, h⟩ := Parse.bind_eq_pure.mp h
    cases Parse.pure_eq_pure.mp h
    refine ⟨rest, fun w hw => ?_, fun fcs' => ?_, le_rfl, fun _ _ => rfl⟩
    · obtain ⟨written, hwritten, hwidth, rfl⟩ := eq_of_superframe (Parse.check_eq_pure.mp hlength)
        (Parse.liftM_eq_pure.mp hhead) (Parse.ofExcept_eq_pure.mp hspecification)
        (Parse.liftM_eq_pure.mp hgts) (Parse.liftM_eq_pure.mp hpending)
        (Parse.liftM_eq_pure.mp hpayload)
      change (header.toBytes >>= _) = _
      rw [hw, Checked.ok_bind]
      change (extendAbstractBits w _ specification >>= _) = _
      rw [extendAbstractBits_eq hwritten (by rw [hwidth]; decide), Checked.ok_bind]
      simp
    · unfold parseBody
      rw [htype]
      refine Parse.bind_eq_pure.mpr ⟨(), hversion, ?_⟩
      refine Parse.bind_eq_pure.mpr ⟨(), hlength, ?_⟩
      refine Parse.bind_eq_pure.mpr ⟨_, hhead, ?_⟩
      refine Parse.bind_eq_pure.mpr ⟨_, hspecification, ?_⟩
      refine Parse.bind_eq_pure.mpr ⟨_, hgts, ?_⟩
      refine Parse.bind_eq_pure.mpr ⟨_, hpending, ?_⟩
      exact Parse.bind_eq_pure.mpr ⟨_, hpayload, rfl⟩
  | data =>
    rw [htype] at h
    obtain ⟨payload, hpayload, h⟩ := Parse.bind_eq_pure.mp h
    cases Parse.pure_eq_pure.mp h
    obtain rfl := FrameBytes.fromSliceOr_eq_pure.mp hpayload
    refine ⟨payload.bytes, fun w hw => ?_, fun fcs' => ?_, le_rfl, fun _ _ => rfl⟩
    · change (header.toBytes >>= _) = _
      rw [hw]
      rfl
    · unfold parseBody
      rw [htype]
      exact Parse.bind_eq_pure.mpr ⟨payload, hpayload, rfl⟩
  | ack =>
    rw [htype] at h
    cases Parse.pure_eq_pure.mp h
    refine ⟨[], fun w hw => ?_, fun fcs' => ?_, Nat.zero_le _, fun _ heq => ?_⟩
    · change (header.toBytes >>= _) = _
      rw [hw, List.append_nil]
      rfl
    · unfold parseBody
      rw [htype]
      rfl
    · cases heq
  | command =>
    rw [htype] at h
    obtain ⟨_, hne, h⟩ := Parse.bind_eq_pure.mp h
    cases Parse.pure_eq_pure.mp h
    obtain ⟨body, hbody, hne', hlength, hback⟩ :=
      Ieee802154CommandPayload.fromBytes_reserialized (Parse.check_eq_pure.mp hne)
    refine ⟨body, fun w hw => ?_, fun fcs' => ?_, hlength, fun _ heq => ?_⟩
    · change (header.toBytes >>= _) = _
      rw [hw, Checked.ok_bind]
      change (Ieee802154CommandPayload.toBytes _ >>= _) = _
      rw [hbody]
      rfl
    · unfold parseBody
      rw [htype]
      refine Parse.bind_eq_pure.mpr ⟨(), Parse.check_of hne' _, ?_⟩
      rw [hback]
      rfl
    · cases heq

/-- The check sequence is the last two bytes. -/
theorem fromBytes_append {content : Bytes} {low high : UInt8}
    (hmin : 2 + 2 ≤ (content ++ [low, high]).length)
    (hmax : (content ++ [low, high]).length ≤ maxPhyPacketSize) :
    fromBytes (content ++ [low, high]) = (do
      let computed ← computeFcs content
      Parse.check (computed = UInt16.ofNat (leNat [low, high])) .invalidFcs
      let (header, rest) ← Ieee802154FrameHeader.parse content
      parseBody header (UInt16.ofNat (leNat [low, high])) rest) := by
  have hlength : (content ++ [low, high]).length = content.length + 2 := List.length_append
  have hlow : (content ++ [low, high]).length - 2 = content.length := by omega
  have hhigh : (content ++ [low, high]).length - 1 = content.length + 1 := by omega
  unfold fromBytes
  rw [Parse.check_of hmin, pure_bind, Parse.check_of hmax, pure_bind, hlow, hhigh,
    Bytes.index_eq (by omega), Parse.liftM_ok, pure_bind, Bytes.index_eq (by omega),
    Parse.liftM_ok, pure_bind, Bytes.sliceTo_eq (by omega), Parse.liftM_ok, pure_bind]
  simp

/-- A frame is accepted if its check sequence is right and its fields are parsed. -/
theorem fromBytes_eq_pure {data : Bytes} :
    fromBytes data = pure frame ↔
      2 + 2 ≤ data.length ∧ data.length ≤ maxPhyPacketSize ∧ ∃ content fcs header rest,
        computeFcs content = .ok fcs ∧ data = content ++ leBytes 2 fcs.toNat ∧
        Ieee802154FrameHeader.parse content = pure (header, rest) ∧
        parseBody header fcs rest = pure frame := by
  constructor
  · intro h
    have hsizes := h
    obtain ⟨_, hmin, hsizes⟩ := Parse.bind_eq_pure.mp hsizes
    obtain ⟨_, hmax, -⟩ := Parse.bind_eq_pure.mp hsizes
    replace hmin := Parse.check_eq_pure.mp hmin
    replace hmax := Parse.check_eq_pure.mp hmax
    obtain ⟨content, low, high, rfl⟩ : ∃ content low high, data = content ++ [low, high] := by
      match hdrop : data.drop (data.length - 2),
        show (data.drop (data.length - 2)).length = 2 by rw [List.length_drop]; omega with
      | [low, high], _ => exact ⟨_, low, high, by rw [← hdrop, List.take_append_drop]⟩
    refine ⟨hmin, hmax, content, UInt16.ofNat (leNat [low, high]), ?_⟩
    rw [fromBytes_append hmin hmax] at h
    obtain ⟨computed, hcomputed, h⟩ := Parse.bind_eq_pure.mp h
    obtain ⟨_, hfcs, h⟩ := Parse.bind_eq_pure.mp h
    obtain ⟨⟨header, rest⟩, hheader, h⟩ := Parse.bind_eq_pure.mp h
    rw [Parse.check_eq_pure.mp hfcs] at hcomputed
    have hback : leBytes 2 (UInt16.ofNat (leNat [low, high])).toNat = [low, high] := by
      have hlt : leNat [low, high] < 2 ^ 16 := leNat_lt [low, high]
      rw [UInt16.toNat_ofNat_of_lt' hlt]
      exact leBytes_leNat [low, high]
    exact ⟨header, rest, Parse.liftM_eq_pure.mp hcomputed, by rw [hback], hheader, h⟩
  · rintro ⟨hmin, hmax, content, fcs, header, rest, hfcs, rfl, hheader, hbody⟩
    have hback : UInt16.ofNat (leNat (leBytes 2 fcs.toNat)) = fcs := by
      rw [leNat_leBytes fcs.toNat_lt, UInt16.ofNat_toNat]
    obtain ⟨low, high, hbytes⟩ : ∃ low high, leBytes 2 fcs.toNat = [low, high] := ⟨_, _, rfl⟩
    rw [hbytes] at hmin hmax hback ⊢
    rw [fromBytes_append hmin hmax, hback, hfcs, Parse.liftM_ok, pure_bind, Parse.check_of rfl,
      pure_bind, hheader, pure_bind]
    exact hbody

/-- Serializing what was parsed gives a frame that is accepted again, as the same frame but for
the check sequence, and that is not longer.  A data frame is serialized to the bytes that it was
parsed from. -/
theorem frame_codec (data : Bytes) (frame : Ieee802154Frame FrameBytes)
    (h : fromBytes data = pure frame) :
    ∃ data', frame.toBytes = .ok data' ∧ data'.length ≤ data.length ∧
      (∃ fcs, fromBytes data' = pure (frame.withFcs fcs)) ∧
      ((∃ dataFrame, frame = .data dataFrame) → data' = data) := by
  obtain ⟨-, hmax, content, fcs, header, rest, hfcs, rfl, hheader, hbody⟩ := fromBytes_eq_pure.mp h
  obtain ⟨haddressed, w, hlayout, rfl⟩ := Ieee802154FrameHeader.parse_eq_pure.mp hheader
  obtain ⟨body, hwritten⟩ := parseBody_body hbody
  obtain ⟨fcs', hfcs'⟩ := computeFcs_returns (w ++ body)
  have hlength := hwritten.length
  have hheader := hlayout.two_le_length
  rw [List.length_append, List.length_append, length_leBytes] at hmax
  refine ⟨(w ++ body) ++ leBytes 2 fcs'.toNat, ?_, ?_, ⟨fcs', fromBytes_eq_pure.mpr ?_⟩, ?_⟩
  · rw [toBytes, hwritten.written w hlayout.toBytes, Checked.ok_bind, hfcs']
    rfl
  · simp only [List.length_append, length_leBytes]
    omega
  · refine ⟨?_, ?_, w ++ body, fcs', header, body, hfcs', rfl, ?_, hwritten.parsed fcs'⟩
    · simp only [List.length_append, length_leBytes]
      omega
    · simp only [List.length_append, length_leBytes]
      omega
    · exact Ieee802154FrameHeader.parse_eq_pure.mpr ⟨haddressed, w, hlayout, rfl⟩
  · rintro ⟨dataFrame, hdata⟩
    rw [hwritten.data dataFrame hdata] at hfcs' ⊢
    rw [hfcs] at hfcs'
    cases hfcs'
    rfl

/-- A data frame with short addresses and a compressed PAN id. -/
def shortDataFrame : Ieee802154Frame FrameBytes :=
  .data
    { header :=
        { frameControl :=
            { frameType := .data
              securityEnabled := false
              framePending := false
              ackRequest := true
              panIdCompression := true
              reserved1 := false
              sequenceNumberSuppression := false
              informationElementsPresent := false
              destAddrMode := .short
              frameVersion := .ieee2003
              srcAddrMode := .short }
          sequenceNumber := some 0x07
          destPanId := some 0x1234
          destAddress := some (.nwk 0x0000)
          srcPanId := some 0x1234
          srcAddress := some (.nwk 0x5678) }
      payload := ⟨[0xAB, 0xCD], by decide⟩
      fcs := 0x9D1E }

theorem frame_codec_short :
    shortDataFrame.toBytes =
      .ok [0x61, 0x88, 0x07, 0x34, 0x12, 0x00, 0x00, 0x78, 0x56, 0xAB, 0xCD, 0x1E, 0x9D] := by
  have hparsed : fromBytes
      [0x61, 0x88, 0x07, 0x34, 0x12, 0x00, 0x00, 0x78, 0x56, 0xAB, 0xCD, 0x1E, 0x9D] =
        pure shortDataFrame := by
    refine ExceptT.ext ?_
    decide +kernel
  obtain ⟨data', hwritten, -, -, hsame⟩ := frame_codec _ _ hparsed
  rw [hwritten, hsame ⟨_, rfl⟩]

end Ieee802154Frame

end Ziggurat
