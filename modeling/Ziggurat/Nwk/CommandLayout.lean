import Ziggurat.Lib.CodecShape
import Ziggurat.Nwk.Commands

/-!
# The bytes of NWK commands

A relay decodes a command and encodes it again.  `NwkCommand.bodyBits` and
`NwkCommand.reservedFields` are the layouts of the fifteen commands: how long a body is, which can
depend on a flag or a count in it, and which of its fields are reserved.

A command is encoded to the bytes that it was decoded from just if its reserved fields are zero
and no bytes follow its body.  A payload that cannot be decoded is kept, and always comes out as
it went in.
-/

namespace Ziggurat

open Lib.BitCodec

namespace NwkCommand

/-! ## The layouts -/

/-- The number of bits of a body. -/
def bodyBits (id : NwkCommandId) (body : List Bool) : Nat :=
  match id with
  | .routeRequest => 40 + 64 * field body 5 1
  | .routeReply => 56 + (64 * field body 4 1 + 64 * field body 5 1)
  | .networkStatus => 24
  | .leave => 8
  | .routeRecord => 8 + field body 0 8 * 16
  | .rejoinRequest => 8
  | .rejoinResponse => 24
  | .linkStatus => 8 + field body 0 5 * 24
  | .networkReport => 72 + field body 0 5 * 16
  | .networkUpdate => 96
  | .endDeviceTimeoutRequest => 16
  | .endDeviceTimeoutResponse => 16
  | .linkPowerDelta => 16 + field body 8 8 * 24
  | .networkCommissioningRequest => 16
  | .networkCommissioningResponse => 24

/-- The reserved fields of a body: the offset of each, and its width. -/
def reservedFields (id : NwkCommandId) (body : List Bool) : List (Nat × Nat) :=
  match id with
  | .routeRequest => [(0, 3), (6, 2)]
  | .routeReply => [(0, 4), (6, 2)]
  | .leave => [(0, 5)]
  | .linkStatus => (7, 1) :: shift 8 (repeated 24 [(19, 1), (23, 1)] (field body 0 5))
  | .endDeviceTimeoutResponse => [(11, 5)]
  | .linkPowerDelta => [(2, 6)]
  | _ => []

end NwkCommand

open NwkCommand

/-! ## The codecs have these layouts -/

variable {bits rest : List Bool}

theorem shape_u8 : u8.Shape 8 [] := (Codec.shape_uint 8).imap

theorem field_bool {b : Bool} {offset : Nat}
    (h : Codec.bool.read (bits.drop offset) = .ok (b, rest)) : field bits offset 1 = b.toNat := by
  unfold field
  cases hbits : bits.drop offset with
  | nil =>
    rw [hbits] at h
    cases h
  | cons b' tail =>
    rw [hbits] at h
    cases h
    cases b <;> rfl

theorem field_uint {n : Nat} {v : Fin (2 ^ n)} {offset : Nat}
    (h : (Codec.uint n).read (bits.drop offset) = .ok (v, rest)) : field bits offset n = v.val := by
  change (if h : n ≤ (bits.drop offset).length then _ else _) = _ at h
  split at h
  · cases h
    rfl
  · cases h

theorem NwkNetworkStatusCommand.shape : codec.Shape 24 [] :=
  ((Codec.shape_enum _).pair (Codec.shape_uint 16)).imap

theorem NwkLeaveCommand.shape : codec.Shape 8 [(0, 5)] :=
  ((Codec.shape_reserved 5).pair <| Codec.shape_bool.pair <|
    Codec.shape_bool.pair Codec.shape_bool).imap

theorem NwkRejoinCapabilityInformation.shape : codec.Shape 8 [] :=
  (Codec.shape_bool.pair <| (Codec.shape_enum _).pair <| (Codec.shape_enum _).pair <|
    Codec.shape_bool.pair <| (Codec.shape_uint 1).pair <| (Codec.shape_uint 1).pair <|
    Codec.shape_bool.pair Codec.shape_bool).imap

theorem NwkRejoinRequestCommand.shape : codec.Shape 8 [] :=
  NwkRejoinCapabilityInformation.shape.imap

theorem NwkRejoinResponseCommand.shape : codec.Shape 24 [] :=
  ((Codec.shape_uint 16).pair (Codec.shape_enum _)).imap

theorem NwkNetworkUpdateCommand.shape : codec.Shape 96 [] :=
  ((Codec.shape_uint 5).pair <| (Codec.shape_enum _).pair <| (Codec.shape_uint 64).pair <|
    shape_u8.pair (Codec.shape_uint 16)).imap

theorem NwkEndDeviceTimeoutRequestCommand.shape : codec.Shape 16 [] :=
  ((Codec.shape_enum _).pair shape_u8).imap

theorem NwkEndDeviceTimeoutResponseCommand.shape : codec.Shape 16 [(11, 5)] :=
  ((Codec.shape_enum _).pair <| Codec.shape_bool.pair <| Codec.shape_bool.pair <|
    Codec.shape_bool.pair (Codec.shape_reserved 5)).imap

theorem NwkNetworkCommissioningRequestCommand.shape : codec.Shape 16 [] :=
  ((Codec.shape_enum _).pair NwkRejoinCapabilityInformation.shape).imap

theorem NwkNetworkCommissioningResponseCommand.shape : codec.Shape 24 [] :=
  ((Codec.shape_uint 16).pair (Codec.shape_enum _)).imap

theorem NwkLinkStatus.shape : codec.Shape 24 [(19, 1), (23, 1)] :=
  ((Codec.shape_uint 16).pair <| (Codec.shape_uint 3).pair <| (Codec.shape_reserved 1).pair <|
    (Codec.shape_uint 3).pair (Codec.shape_reserved 1)).imap

theorem NwkPowerListEntry.shape : codec.Shape 24 [] :=
  ((Codec.shape_uint 16).pair shape_u8).imap

theorem NwkRouteRequestCommand.took {command : NwkRouteRequestCommand}
    (h : codec.read bits = .ok (command, rest)) :
    codec.Took bits command rest (bodyBits .routeRequest bits)
      (reservedFields .routeRequest bits) := by
  obtain ⟨p, hp, rfl⟩ := Codec.read_imap h
  obtain ⟨has, ⟨mid, hhead⟩, htook⟩ := Codec.Shape.keyed
    (fun hread => congrArg some (Codec.isSome_read_presence hread))
    ((Codec.shape_reserved 3).pair <| (Codec.shape_enum _).pair <| Codec.shape_bool.pair <|
      (Codec.shape_reserved 2).pair <| shape_u8.pair <| (Codec.shape_uint 16).pair shape_u8).imap
    (fun has => Codec.shape_presence (Codec.exact_uint 64) (Codec.fixed_uint 64) has) hp
  obtain ⟨q, hq, heq⟩ := Codec.read_imap hhead
  obtain ⟨r₁, h₁, hq⟩ := Codec.read_pair hq
  obtain ⟨r₂, h₂, hq⟩ := Codec.read_pair hq
  obtain ⟨r₃, h₃, -⟩ := Codec.read_pair hq
  have hflag : field bits 5 1 = has.toNat := by
    rw [(Codec.shape_enum _ h₂).rest_eq, (Codec.shape_reserved 3 h₁).rest_eq, List.drop_drop] at h₃
    rw [show has = q.2.2.1 from (Prod.ext_iff.mp heq).1]
    exact field_bool h₃
  rw [bodyBits, hflag]
  exact htook.imap

theorem NwkRouteReplyCommand.took {command : NwkRouteReplyCommand}
    (h : codec.read bits = .ok (command, rest)) :
    codec.Took bits command rest (bodyBits .routeReply bits) (reservedFields .routeReply bits) := by
  obtain ⟨p, hp, rfl⟩ := Codec.read_imap h
  have hpresence := Codec.shape_presence (Codec.exact_uint 64) (Codec.fixed_uint 64)
  have hkey : ∀ {has : Bool × Bool} {bits x rest},
      ((Codec.presence has.1 Eui64.codec).pair (Codec.presence has.2 Eui64.codec)).read bits =
        .ok (x, rest) → some (x.1.isSome, x.2.isSome) = some has := by
    intro has bits x rest hread
    obtain ⟨mid, horiginator, hresponder⟩ := Codec.read_pair hread
    exact congrArg some (Prod.ext (Codec.isSome_read_presence horiginator)
      (Codec.isSome_read_presence hresponder))
  obtain ⟨⟨hasOriginator, hasResponder⟩, ⟨mid, hhead⟩, htook⟩ := Codec.Shape.keyed hkey
    ((Codec.shape_reserved 4).pair <| Codec.shape_bool.pair <| Codec.shape_bool.pair <|
      (Codec.shape_reserved 2).pair <| shape_u8.pair <| (Codec.shape_uint 16).pair <|
      (Codec.shape_uint 16).pair shape_u8).imap
    (fun (has : Bool × Bool) => (hpresence has.1).pair (hpresence has.2)) hp
  obtain ⟨q, hq, heq⟩ := Codec.read_imap hhead
  obtain ⟨r₁, h₁, hq⟩ := Codec.read_pair hq
  obtain ⟨r₂, h₂, hq⟩ := Codec.read_pair hq
  obtain ⟨r₃, h₃, -⟩ := Codec.read_pair hq
  have hhas : (hasOriginator, hasResponder) = (q.2.1, q.2.2.1) := (Prod.ext_iff.mp heq).1
  have horiginator : field bits 4 1 = hasOriginator.toNat := by
    rw [(Codec.shape_reserved 4 h₁).rest_eq] at h₂
    rw [show hasOriginator = q.2.1 from (Prod.ext_iff.mp hhas).1]
    exact field_bool h₂
  have hresponder : field bits 5 1 = hasResponder.toNat := by
    rw [(Codec.shape_bool h₂).rest_eq, (Codec.shape_reserved 4 h₁).rest_eq, List.drop_drop] at h₃
    rw [show hasResponder = q.2.2.1 from (Prod.ext_iff.mp hhas).2]
    exact field_bool h₃
  rw [bodyBits, horiginator, hresponder]
  exact htook.imap

theorem NwkRouteRecordCommand.took {command : NwkRouteRecordCommand}
    (h : codec.read bits = .ok (command, rest)) :
    codec.Took bits command rest (bodyBits .routeRecord bits)
      (reservedFields .routeRecord bits) := by
  obtain ⟨p, hp, rfl⟩ := Codec.read_imap h
  obtain ⟨count, ⟨mid, hhead⟩, htook⟩ :=
    ((Codec.shape_uint 8).pair (Codec.shape_reserved 0)).counted (Codec.shape_uint 16) hp
  obtain ⟨r₁, h₁, -⟩ := Codec.read_pair hhead
  have hcount : field bits 0 8 = count.val := field_uint h₁
  rw [bodyBits, hcount]
  refine htook.imap.of_clear_iff ?_
  rw [repeated_nil]
  exact iff_of_true (by simp [Clear, shift, field, bitsNat]) (clear_nil _)

theorem NwkLinkStatusCommand.took {command : NwkLinkStatusCommand}
    (h : codec.read bits = .ok (command, rest)) :
    codec.Took bits command rest (bodyBits .linkStatus bits) (reservedFields .linkStatus bits) := by
  obtain ⟨p, hp, rfl⟩ := Codec.read_imap h
  obtain ⟨count, ⟨mid, hhead⟩, htook⟩ :=
    ((Codec.shape_uint 5).pair <| Codec.shape_bool.pair <| Codec.shape_bool.pair <|
      Codec.shape_reserved 1).counted NwkLinkStatus.shape hp
  obtain ⟨r₁, h₁, -⟩ := Codec.read_pair hhead
  have hcount : field bits 0 5 = count.val := field_uint h₁
  rw [bodyBits, reservedFields, hcount]
  exact htook.imap

theorem NwkNetworkReportCommand.took {command : NwkNetworkReportCommand}
    (h : codec.read bits = .ok (command, rest)) :
    codec.Took bits command rest (bodyBits .networkReport bits)
      (reservedFields .networkReport bits) := by
  obtain ⟨p, hp, rfl⟩ := Codec.read_imap h
  obtain ⟨count, ⟨mid, hhead⟩, htook⟩ :=
    ((Codec.shape_uint 5).pair <| (Codec.shape_enum _).pair <| Codec.shape_uint 64).counted
      (Codec.shape_uint 16) hp
  obtain ⟨r₁, h₁, -⟩ := Codec.read_pair hhead
  have hcount : field bits 0 5 = count.val := field_uint h₁
  rw [bodyBits, hcount]
  rw [repeated_nil] at htook
  exact htook.imap

theorem NwkLinkPowerDeltaCommand.took {command : NwkLinkPowerDeltaCommand}
    (h : codec.read bits = .ok (command, rest)) :
    codec.Took bits command rest (bodyBits .linkPowerDelta bits)
      (reservedFields .linkPowerDelta bits) := by
  obtain ⟨p, hp, rfl⟩ := Codec.read_imap h
  obtain ⟨count, ⟨mid, hhead⟩, htook⟩ :=
    ((Codec.shape_enum _).pair <| (Codec.shape_reserved 6).pair <| Codec.shape_uint 8).imap.counted
      NwkPowerListEntry.shape hp
  obtain ⟨q, hq, heq⟩ := Codec.read_imap hhead
  obtain ⟨r₁, h₁, hq⟩ := Codec.read_pair hq
  obtain ⟨r₂, h₂, h₃⟩ := Codec.read_pair hq
  have hcount : field bits 8 8 = count.val := by
    rw [(Codec.shape_reserved 6 h₂).rest_eq, (Codec.shape_enum _ h₁).rest_eq, List.drop_drop] at h₃
    rw [show count = q.2.2 from (Prod.ext_iff.mp heq).1]
    exact field_uint h₃
  rw [bodyBits, hcount]
  rw [repeated_nil] at htook
  exact htook.imap

/-! ## Commands that come out as they went in -/

namespace NwkCommand

theorem whole_bodyBits (id : NwkCommandId) (body : List Bool) : 8 ∣ bodyBits id body := by
  cases id <;> simp only [bodyBits] <;> omega

/-- A command with zeros in its reserved fields, and nothing behind its body. -/
def Canonical (id : NwkCommandId) (body : Bytes) : Prop :=
  8 * body.length = bodyBits id (bitsOf body) ∧
    Clear (bitsOf body) (reservedFields id (bitsOf body))

instance (id : NwkCommandId) (body : Bytes) : Decidable (Canonical id body) :=
  inferInstanceAs (Decidable (_ ∧ ∀ f ∈ reservedFields id (bitsOf body), _))

theorem command_eq_ok {idByte : UInt8} {id : NwkCommandId} {body : Bytes} {written : Option Bytes}
    (hid : NwkCommandId.enum.ofDisc idByte.toFin = some id) :
    toBytes.command id written = .ok (idByte :: body) ↔ written = some body := by
  have hbyte : UInt8.ofFin (NwkCommandId.enum.disc id) = idByte := by
    rw [NwkCommandId.enum.disc_of_ofDisc hid]
    rfl
  cases written with
  | none => exact iff_of_false nofun nofun
  | some w =>
    change (Except.ok (UInt8.ofFin (NwkCommandId.enum.disc id) :: w) : Checked Bytes) = _ ↔ _
    rw [hbyte, Except.ok.injEq, List.cons.injEq, Option.some.injEq]
    exact and_iff_right rfl

/-- A command whose codec has the layout of its id. -/
theorem toBytes_iff_canonical {α : Type} {c : Codec α} {id : NwkCommandId} {idByte : UInt8}
    {body : Bytes} {make : α → NwkCommand} {command : NwkCommand}
    (hid : NwkCommandId.enum.ofDisc idByte.toFin = some id)
    (hwrite : ∀ a, (make a).toBytes = toBytes.command id (c.writeBytes a))
    (htook : ∀ {bits a rest}, c.read bits = .ok (a, rest) →
      c.Took bits a rest (bodyBits id bits) (reservedFields id bits))
    (hparse : (do return make (← parseBody c body)) = some command) :
    command.toBytes = .ok (idByte :: body) ↔ Canonical id body := by
  obtain ⟨a, ha, hmake⟩ := Option.bind_eq_some_iff.mp hparse
  cases hmake
  obtain ⟨rest, hread⟩ : ∃ rest, c.read (bitsOf body) = .ok (a, rest) := by
    unfold parseBody fromAbstractBytes Codec.readBytes at ha
    cases hread : c.read (bitsOf body) with
    | error err =>
      rw [hread] at ha
      cases ha
    | ok read =>
      rw [hread] at ha
      cases ha
      exact ⟨_, rfl⟩
  rw [hwrite, command_eq_ok hid]
  exact (htook hread).writeBytes (whole_bodyBits id _)

/-- A command that was decoded is encoded to what it was decoded from just if that was
canonical. -/
theorem toBytes_of_tryParse {idByte : UInt8} {body : Bytes} {command : NwkCommand}
    (h : tryParse (idByte :: body) = some command) :
    command.toBytes = .ok (idByte :: body) ↔
      ∃ id, NwkCommandId.enum.ofDisc idByte.toFin = some id ∧ Canonical id body := by
  obtain ⟨id, hid, hcase⟩ := Option.bind_eq_some_iff.mp h
  have hselect : command.toBytes = .ok (idByte :: body) ↔ Canonical id body := by
    cases id with
    | routeRequest =>
      exact toBytes_iff_canonical hid (fun _ => rfl) NwkRouteRequestCommand.took hcase
    | routeReply =>
      exact toBytes_iff_canonical hid (fun _ => rfl) NwkRouteReplyCommand.took hcase
    | networkStatus =>
      exact toBytes_iff_canonical hid (fun _ => rfl) (fun h => NwkNetworkStatusCommand.shape h)
        hcase
    | leave =>
      exact toBytes_iff_canonical hid (fun _ => rfl) (fun h => NwkLeaveCommand.shape h) hcase
    | routeRecord =>
      exact toBytes_iff_canonical hid (fun _ => rfl) NwkRouteRecordCommand.took hcase
    | rejoinRequest =>
      exact toBytes_iff_canonical hid (fun _ => rfl) (fun h => NwkRejoinRequestCommand.shape h)
        hcase
    | rejoinResponse =>
      exact toBytes_iff_canonical hid (fun _ => rfl) (fun h => NwkRejoinResponseCommand.shape h)
        hcase
    | linkStatus =>
      exact toBytes_iff_canonical hid (fun _ => rfl) NwkLinkStatusCommand.took hcase
    | networkReport =>
      exact toBytes_iff_canonical hid (fun _ => rfl) NwkNetworkReportCommand.took hcase
    | networkUpdate =>
      exact toBytes_iff_canonical hid (fun _ => rfl) (fun h => NwkNetworkUpdateCommand.shape h)
        hcase
    | endDeviceTimeoutRequest =>
      exact toBytes_iff_canonical hid (fun _ => rfl)
        (fun h => NwkEndDeviceTimeoutRequestCommand.shape h) hcase
    | endDeviceTimeoutResponse =>
      exact toBytes_iff_canonical hid (fun _ => rfl)
        (fun h => NwkEndDeviceTimeoutResponseCommand.shape h) hcase
    | linkPowerDelta =>
      exact toBytes_iff_canonical hid (fun _ => rfl) NwkLinkPowerDeltaCommand.took hcase
    | networkCommissioningRequest =>
      exact toBytes_iff_canonical hid (fun _ => rfl)
        (fun h => NwkNetworkCommissioningRequestCommand.shape h) hcase
    | networkCommissioningResponse =>
      exact toBytes_iff_canonical hid (fun _ => rfl)
        (fun h => NwkNetworkCommissioningResponseCommand.shape h) hcase
  rw [hselect]
  constructor
  · exact fun hcanonical => ⟨id, hid, hcanonical⟩
  · rintro ⟨id', hid', hcanonical⟩
    cases hid.symm.trans hid'
    exact hcanonical

/-- The body that was encoded is decoded to the same command. -/
theorem exists_toBytes_of_parseBody {α : Type} {c : Codec α} {id : NwkCommandId} {body : Bytes}
    {make : α → NwkCommand} {command : NwkCommand}
    (hselect : ∀ body, tryParse (UInt8.ofFin (NwkCommandId.enum.disc id) :: body) =
      (do return make (← parseBody c body)))
    (hwrite : ∀ a, (make a).toBytes = toBytes.command id (c.writeBytes a))
    (hparse : (do return make (← parseBody c body)) = some command) :
    ∃ written, command.toBytes = .ok written ∧ written.length ≤ body.length + 1 ∧
      tryParse written = some command := by
  obtain ⟨a, ha, hmake⟩ := Option.bind_eq_some_iff.mp hparse
  cases hmake
  unfold parseBody fromAbstractBytes at ha
  cases hread : c.readBytes body with
  | error err =>
    rw [hread] at ha
    cases ha
  | ok read =>
    rw [hread] at ha
    cases ha
    obtain ⟨w, hw, hlength, hle⟩ := Codec.writeBytes_readBytes hread
    have hagain := Codec.readBytes_writeBytes hw []
    rw [List.append_nil] at hagain
    refine ⟨UInt8.ofFin (NwkCommandId.enum.disc id) :: w, ?_, ?_, ?_⟩
    · rw [hwrite, hw]
      rfl
    · rw [List.length_cons, hlength]
      exact Nat.succ_le_succ hle
    · rw [hselect, parseBody, fromAbstractBytes, hagain]
      rfl

/-- A command that was decoded is encoded to no more bytes than it was decoded from, and those
are decoded to it again. -/
theorem exists_toBytes_of_tryParse {bytes : Bytes} {command : NwkCommand}
    (h : tryParse bytes = some command) :
    ∃ written, command.toBytes = .ok written ∧ written.length ≤ bytes.length ∧
      tryParse written = some command := by
  cases bytes with
  | nil => cases h
  | cons idByte body =>
    obtain ⟨id, -, hcase⟩ := Option.bind_eq_some_iff.mp h
    cases id <;> exact exists_toBytes_of_parseBody (fun _ => rfl) (fun _ => rfl) hcase

/-- A payload is decoded and encoded to no more bytes, which are decoded to the same command: a
payload that was kept fails to parse again. -/
theorem exists_toBytes_of_fromBytes {bytes : Bytes} {command : NwkCommand}
    (h : fromBytes bytes = .ok command) :
    ∃ written, command.toBytes = .ok written ∧ written.length ≤ bytes.length ∧
      fromBytes written = .ok command := by
  have hdecoded := h
  unfold fromBytes at hdecoded
  cases hparse : tryParse bytes with
  | none =>
    rw [hparse] at hdecoded
    obtain ⟨raw, hraw, hkept⟩ := Checked.bind_eq_ok.mp hdecoded
    cases hkept
    obtain rfl := FrameBytes.bytes_fromSlice (Checked.expect_eq_ok.mp hraw)
    exact ⟨raw.bytes, rfl, le_rfl, h⟩
  | some parsed =>
    rw [hparse] at hdecoded
    cases hdecoded
    obtain ⟨written, hwritten, hle, hagain⟩ := exists_toBytes_of_tryParse hparse
    exact ⟨written, hwritten, hle, by rw [fromBytes, hagain]⟩

end NwkCommand

end Ziggurat
