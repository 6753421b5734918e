import Ziggurat.Driver.Zdp
import Ziggurat.Nwk.NeighborUpdates

/-!
# What sending leaves alone

The code that sends frames changes the send table, the sequence number and the routes.  What it
leaves alone is stated once for every part of the state that shows none of these, by the rules of
`Steps` along its text.  `Sending` is that for what the stack knows of devices, of which the
handlers of routes and failures have no business either.
-/

namespace Ziggurat

open Lib.Stateful

namespace Driver

section

variable {env : Env}

/-! ## Views -/

/-- A part of the state that an admission to the send table does not change. -/
structure Unsent {τ : Type} (view : Net → τ) : Prop where
  sends : ∀ net sends, view { net with sends } = view net
  sequenceNumber : ∀ net sequenceNumber, view { net with sequenceNumber } = view net

/-- A part of the state that no send changes. -/
structure Apart {τ : Type} (view : Net → τ) : Prop extends Unsent view where
  routing : ∀ net routing, view { net with routing } = view net

section

variable {τ : Type} {view : Net → τ}

theorem Unsent.admission (hview : Unsent view)
    {x : Net → Checked (SendId × SendActions × SendTable)} :
    Steps (Keeps view) (do
      let net ← get
      let (id, _, sends) ← x net
      set { net with sends }
      return id : NetM SendId) := by
  refine .bind_get fun net => .bind_lift ?_
  rintro ⟨id, _, sends⟩ -
  exact .bind_set (.pure (hview.sends net sends))

theorem Unsent.nextSequenceNumber (hview : Unsent view) :
    Steps (Keeps view) Driver.nextSequenceNumber :=
  .bind (.modify fun net => hview.sequenceNumber net _) fun _ => .bind .get fun _ => .pure _

theorem Apart.startRouteDiscovery (hview : Apart view) {destination : Nwk} :
    Steps (Keeps view) (Driver.startRouteDiscovery env destination) := by
  refine .bind_get fun net => .set_bind (hview.routing net _) ?_
  exact .bind hview.nextSequenceNumber fun _ => .bind (.lift _) fun _ =>
    .bind hview.admission fun _ => .pure _

theorem Apart.sendUnicast (hview : Apart view) {send : Unicast} :
    Steps (Keeps view) (Driver.sendUnicast env send) := by
  refine .bind (.lift _) fun _ => .bind hview.nextSequenceNumber fun _ =>
    .bind .get fun _ => .bind (.lift _) fun (resolved, frame) => ?_
  cases resolved with
  | resolved nextHop => exact .bind hview.admission fun _ => .pure _
  | needDiscovery =>
    refine .bind hview.admission fun _ => .ite (fun _ => ?_) fun _ => .pure _
    exact .bind hview.startRouteDiscovery fun _ => .pure _
  | discard => exact .pure _

end

/-! ## Devices -/

/-- The neighbors, the addresses, and the flows that deliver keys. -/
def Net.devices (net : Net) : Neighbors × AddressMap × List Tasklet :=
  (net.neighbors, net.addressMap, net.tasklets)

theorem apart_devices : Apart Net.devices where
  sends _ _ := rfl
  sequenceNumber _ _ := rfl
  routing _ _ := rfl

/-- Nothing became of the devices. -/
abbrev Sending : Net → Net → Prop := Keeps Net.devices

section

variable {net net' : Net}

theorem Sending.neighbors (h : Sending net net') : net'.neighbors = net.neighbors :=
  congrArg Prod.fst h

theorem Sending.addressMap (h : Sending net net') : net'.addressMap = net.addressMap :=
  congrArg (·.2.1) h

theorem Sending.tasklets (h : Sending net net') : net'.tasklets = net.tasklets :=
  congrArg (·.2.2) h

end

/-! ## Routes -/

theorem invalidateRoutesVia_sending {nextHop : Nwk} : Steps Sending (invalidateRoutesVia nextHop) :=
  .modify fun _ => rfl

theorem noteDeliveryFailure_sending : Steps Sending (noteDeliveryFailure env) :=
  .ite (fun _ => .modify fun _ => rfl) (fun _ => .pure _)

theorem handleRelayFailure_sending {frame : NwkFrame} {nextHop : Nwk} :
    Steps Sending (handleRelayFailure env frame nextHop) :=
  .bind invalidateRoutesVia_sending fun _ => .bind .get fun _ =>
    .bind apart_devices.sendUnicast fun _ => .pure _

theorem handleUnicastSendFailure_sending {frame : NwkFrame} {nextHop : Nwk} :
    Steps Sending (handleUnicastSendFailure env frame nextHop) :=
  .ite (fun _ => handleRelayFailure_sending) fun _ =>
    .bind invalidateRoutesVia_sending fun _ =>
    .bind (.modify fun _ => rfl) fun _ => .bind .get fun _ =>
      .ite (fun _ => noteDeliveryFailure_sending) (fun _ => .pure _)

theorem runSendActions_sending {actions : SendActions} :
    Steps Sending (runSendActions env actions) := by
  refine .forM fun action => ?_
  split
  next => exact handleUnicastSendFailure_sending
  next => exact .pure _

theorem dropIndirectTransactions_sending {eui64 : Option Eui64} {nwk : Nwk} :
    Steps Sending (dropIndirectTransactions env eui64 nwk) := by
  refine .bind_get fun net => .bind_lift ?_
  rintro ⟨sends, actions⟩ -
  exact .set_bind rfl runSendActions_sending

/-! ## Responses and relays -/

theorem sendRejoinResponse_sending {destination : Nwk} {destinationIeee : Eui64} {assigned : Nwk}
    {status : Nwk802154AssociationStatus} {secured : Bool} :
    Steps Sending
      (sendRejoinResponse env destination destinationIeee assigned status secured) :=
  .bind apart_devices.sendUnicast fun _ => .pure _

theorem reassignChildAddress_sending {eui64 : Eui64} {oldAddress : Nwk} :
    Steps Sending (reassignChildAddress env eui64 oldAddress) :=
  .bind (.bind .get fun _ => .lift _) fun _ => sendRejoinResponse_sending

/-! ## Handlers of links and routes -/

theorem pushNotification_sending {notification : ZigbeeNotification} :
    Steps Sending (pushNotification notification) :=
  .modify fun _ => rfl

/-! ## Device profile -/

theorem sendZdpCommand_sending {α : Type} {codec : Lib.BitCodec.Codec α}
    {clusterId : ZdpClusterId} {destination : Nwk} {tsn : UInt8} {command : α} :
    Steps Sending (sendZdpCommand env codec clusterId destination tsn command) := by
  refine .bind (.lift _) fun serialized => ?_
  split
  next => exact .pure _
  next =>
    refine .bind (.bind (.modify fun _ => rfl) fun _ => .bind .get fun _ => .pure _) fun _ =>
      .bind (.lift _) fun _ => ?_
    split
    next => exact .pure _
    next => exact apart_devices.sendUnicast

end

end Driver

end Ziggurat
