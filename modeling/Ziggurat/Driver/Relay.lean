import Ziggurat.Driver.Receive
import Ziggurat.Driver.SourceRoute
import Ziggurat.Driver.Transmit
import Ziggurat.Nwk.CommandLayout
import Ziggurat.Nwk.RoundTrip

/-!
# Frames in transit

A router relays the frames of others.  It decodes the commands among them, and encodes them again
when the frame is transmitted.  `relayed_verbatim_iff` says which commands leave the router as
they came.
-/

namespace Ziggurat.Driver

open Lib.BitCodec Lib.Stateful

/-! ## Commands -/

/-- A payload that a relay does not change: it cannot be decoded, or it is the canonical encoding
of a command. -/
def Reencodable (payload : Bytes) : Prop :=
  NwkCommand.tryParse payload = none ∨
    ∃ idByte id body, payload = idByte :: body ∧
      NwkCommandId.enum.ofDisc idByte.toFin = some id ∧ NwkCommand.Canonical id body

/-- Every command but a route record is left alone. -/
theorem verbatim_of_tryParse {idByte : UInt8} {body : Bytes} {command : NwkCommand}
    (hid : idByte ≠ 0x05) (h : NwkCommand.tryParse (idByte :: body) = some command) :
    NwkPayload.Verbatim (.command command) := by
  obtain ⟨id, hdisc, hcase⟩ := Option.bind_eq_some_iff.mp h
  cases id with
  | routeRecord =>
    have hbyte := NwkCommandId.enum.disc_of_ofDisc hdisc
    exact absurd (UInt8.toFin_inj.mp hbyte.symm) hid
  | _ =>
    obtain ⟨_, -, hmake⟩ := Option.bind_eq_some_iff.mp hcase
    cases hmake
    trivial

theorem toBytes_fromBytes_iff {payload : FrameBytes} {command : NwkCommand}
    (h : NwkCommand.fromBytes payload.bytes = .ok command) :
    command.toBytes = .ok payload.bytes ↔ Reencodable payload.bytes := by
  unfold NwkCommand.fromBytes at h
  unfold Reencodable
  cases hparse : NwkCommand.tryParse payload.bytes with
  | none =>
    rw [hparse, FrameBytes.fromSlice_eq payload.bound] at h
    cases h
    exact iff_of_true rfl (.inl rfl)
  | some parsed =>
    rw [hparse] at h
    cases h
    obtain ⟨idByte, body, hbytes⟩ : ∃ idByte body, payload.bytes = idByte :: body := by
      cases hbytes : payload.bytes with
      | nil =>
        rw [hbytes] at hparse
        cases hparse
      | cons idByte body => exact ⟨idByte, body, rfl⟩
    rw [hbytes] at hparse ⊢
    rw [NwkCommand.toBytes_of_tryParse hparse]
    constructor
    · rintro ⟨id, hid, hcanonical⟩
      exact .inr ⟨idByte, id, body, rfl, hid, hcanonical⟩
    · rintro (h | ⟨_, id, _, heq, hid, hcanonical⟩)
      · cases h
      · cases heq
        exact ⟨id, hid, hcanonical⟩

theorem verbatim_of_fromBytes {payload : FrameBytes} {command : NwkCommand}
    (hrecord : payload.bytes.head? ≠ some 0x05)
    (h : NwkCommand.fromBytes payload.bytes = .ok command) :
    NwkPayload.Verbatim (.command command) := by
  unfold NwkCommand.fromBytes at h
  cases hparse : NwkCommand.tryParse payload.bytes with
  | none =>
    rw [hparse, FrameBytes.fromSlice_eq payload.bound] at h
    cases h
    exact hrecord
  | some parsed =>
    rw [hparse] at h
    cases h
    cases hbytes : payload.bytes with
    | nil =>
      rw [hbytes] at hparse
      cases hparse
    | cons idByte body =>
      rw [hbytes] at hparse hrecord
      exact verbatim_of_tryParse (fun heq => hrecord (congrArg some heq)) hparse

/-- The payload of a command in transit leaves the router as it came just if it cannot be decoded
or its reserved fields are zero and no bytes follow its body. -/
theorem relayed_verbatim_iff (router : Router) (frame frame' : NwkFrame) (nextHop : Nwk)
    (payload : FrameBytes) (hpayload : NwkPayload.fromBytes .command payload = .ok frame.payload)
    (hrecord : payload.bytes.head? ≠ some 0x05) (hrelays : router.Relays frame nextHop frame') :
    frame'.payload.toBytes = .ok payload ↔ Reencodable payload.bytes := by
  obtain ⟨command, hcommand, hframe⟩ := Checked.bind_eq_ok.mp hpayload
  have hverbatim := verbatim_of_fromBytes hrecord hcommand
  have hsame := hrelays.relayed.payload
  rw [← Except.ok.inj hframe, hverbatim.relayPayload] at hsame
  rw [← Option.some.inj hsame, toBytes_command_iff]
  exact toBytes_fromBytes_iff hcommand

namespace Example

/-- A network status command on its way to node 0. -/
def statusOf (device : Nwk) : NwkFrame :=
  nwkCommandFrame (.plain .router device 0) 0 (.networkStatus ⟨.linkFailure, 0x1234⟩)

end Example

open Driver.Example in
/-- A command that ends with its body is relayed as it is. -/
theorem relayed_verbatim_iff_status : ∃ frame', (onTheWay 1 2).Relays (statusOf 9) 2 frame' ∧
    frame'.payload.toBytes = .ok ⟨[0x03, 0x02, 0x34, 0x12], by decide⟩ := by
  refine ⟨_, ⟨_, rfl, rfl, _, rfl, rfl, rfl⟩, ?_⟩
  refine (relayed_verbatim_iff (onTheWay 1 2) (statusOf 9) _ 2 ⟨[0x03, 0x02, 0x34, 0x12], by decide⟩
    rfl (by decide) ⟨_, rfl, rfl, _, rfl, rfl, rfl⟩).mpr ?_
  exact .inr ⟨0x03, .networkStatus, [0x02, 0x34, 0x12], rfl, rfl, by decide⟩

open Driver.Example in
/-- A byte behind the body is lost in transit. -/
theorem relayed_trailing_byte_lost :
    NwkPayload.fromBytes .command ⟨[0x03, 0x02, 0x34, 0x12, 0xAA], by decide⟩ =
        .ok (statusOf 9).payload ∧
      ∃ frame', (onTheWay 1 2).Relays (statusOf 9) 2 frame' ∧
        frame'.payload.toBytes = .ok ⟨[0x03, 0x02, 0x34, 0x12], by decide⟩ :=
  ⟨rfl, _, ⟨_, rfl, rfl, _, rfl, rfl, rfl⟩, rfl⟩

end Ziggurat.Driver
