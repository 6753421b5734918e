import Ziggurat.Driver.Footprint
import Ziggurat.Driver.ReceiveSpec

/-!
# Child capacity

A parent has room for `max_children` end devices.  A new one is turned away when there is none
left, and a known device may always come back, also if it was no end device child of ours
before.  So a request takes the count past the capacity only when a device that we know as
something else comes back as an end device, and then by one.
-/

namespace Ziggurat

open Lib.Stateful

namespace Neighbors

variable {neighbors : Neighbors} {child : ChildDescriptor} {now : Instant}

/-- A known device that is no end device child of ours. -/
def KnownOtherwise (neighbors : Neighbors) (eui64 : Eui64) : Prop :=
  ∃ entry, neighbors.table.get eui64 = some entry ∧ entry.isEndDeviceChild = false

/-- A child that attaches counts once, however often it does. -/
theorem endDeviceChildCount_upsertChild
    (hrelationship : child.relationship = .child ∨ child.relationship = .unauthenticatedChild) :
    (neighbors.upsertChild child now).endDeviceChildCount +
        (if (neighbors.table.get child.eui64).any TableEntry.isEndDeviceChild then 1 else 0) =
      neighbors.endDeviceChildCount + (if child.deviceType = .endDevice then 1 else 0) := by
  have hchild (entry : TableEntry) (hentry : entry.relationship = child.relationship)
      (htype : entry.deviceType = child.deviceType) :
      (if entry.isEndDeviceChild then 1 else 0) =
        if child.deviceType = .endDevice then 1 else 0 := by
    unfold TableEntry.isEndDeviceChild TableEntry.isChild
    rw [hentry, htype]
    rcases hrelationship with h | h <;> rw [h] <;> simp
  unfold endDeviceChildCount
  rw [← List.countP_eq_length_filter, ← List.countP_eq_length_filter]
  unfold upsertChild
  dsimp only
  rw [FlatMap.countP_values_insert, hchild _ rfl rfl]

/-- What an admitted child does to the count. -/
theorem endDeviceChildCount_upsertChild_le
    (hrelationship : child.relationship = .child ∨ child.relationship = .unauthenticatedChild)
    {capacity : Nat}
    (hadmitted : child.deviceType = .endDevice → neighbors.contains child.eui64 = false →
      neighbors.endDeviceChildCount < capacity) :
    (neighbors.upsertChild child now).endDeviceChildCount ≤
        max neighbors.endDeviceChildCount capacity ∨
      (child.deviceType = .endDevice ∧ neighbors.KnownOtherwise child.eui64 ∧
        (neighbors.upsertChild child now).endDeviceChildCount =
          neighbors.endDeviceChildCount + 1) := by
  have hcount := @endDeviceChildCount_upsertChild neighbors child now hrelationship
  by_cases htype : child.deviceType = .endDevice
  · rw [if_pos htype] at hcount
    cases hget : neighbors.table.get child.eui64 with
    | none =>
      have hroom := hadmitted htype (by
        unfold contains
        rw [FlatMap.containsKey_eq_isSome, hget]
        rfl)
      rw [hget, Option.any_none, if_neg Bool.false_ne_true] at hcount
      exact .inl (by omega)
    | some entry =>
      rw [hget, Option.any_some] at hcount
      cases hentry : entry.isEndDeviceChild with
      | true =>
        rw [hentry, if_pos rfl] at hcount
        exact .inl (by omega)
      | false =>
        rw [hentry, if_neg Bool.false_ne_true] at hcount
        exact .inr ⟨htype, ⟨entry, hget, hentry⟩, hcount⟩
  · rw [if_neg htype] at hcount
    exact .inl (by omega)

end Neighbors

namespace Driver

section

variable {env : Env}

/-- The count stays within the capacity, or a known device came back as an end device child. -/
def WithinCapacity (env : Env) (deviceType : NwkDeviceType) (eui64 : Option Eui64)
    (neighbors neighbors' : Neighbors) : Prop :=
  neighbors'.endDeviceChildCount ≤
      max neighbors.endDeviceChildCount env.tunables.maxChildren.toNat ∨
    deviceType = .endDevice ∧ (∃ device, eui64 = some device ∧ neighbors.KnownOtherwise device) ∧
      neighbors'.endDeviceChildCount = neighbors.endDeviceChildCount + 1

theorem WithinCapacity.of_eq {deviceType : NwkDeviceType} {eui64 : Option Eui64}
    {neighbors neighbors' : Neighbors} (h : neighbors' = neighbors) :
    WithinCapacity env deviceType eui64 neighbors neighbors' :=
  .inl (h ▸ Nat.le_max_left _ _)

/-- A device that was not turned away attaches. -/
theorem withinCapacity_upsertChild {neighbors : Neighbors} {child : ChildDescriptor}
    (hrelationship : child.relationship = .child ∨ child.relationship = .unauthenticatedChild)
    (hroom : atCapacity env neighbors child.deviceType child.eui64 = false) (now : Instant) :
    WithinCapacity env child.deviceType (some child.eui64) neighbors
      (neighbors.upsertChild child now) := by
  refine (Neighbors.endDeviceChildCount_upsertChild_le hrelationship fun htype hunknown => ?_).imp
    id fun ⟨htype, hknown, hcount⟩ => ⟨htype, ⟨_, rfl, hknown⟩, hcount⟩
  unfold atCapacity at hroom
  rw [htype, hunknown] at hroom
  simpa using hroom

/-! ## Neighbors are left alone until then -/

theorem handleAddressConflict_neighbors {address : Nwk} {source : AddrConflictSource} :
    Steps (Keeps Net.neighbors) (handleAddressConflict env address source) := by
  refine .bind_get fun net => ?_
  dsimp only
  split
  next => exact .set rfl
  next =>
    refine .set_bind rfl (.ite (fun _ => ?_) (fun _ => .pure _))
    split
    next => exact reassignChildAddress_sending.mono fun _ _ => Sending.neighbors
    next => exact .modify fun _ => rfl

theorem updateNwkEui64Mapping_neighbors {nwk : Nwk} {eui64 : Eui64} :
    Steps (Keeps Net.neighbors) (updateNwkEui64Mapping env nwk eui64) :=
  .bind_get fun _ => .set_bind rfl <|
    .ite (fun _ => handleAddressConflict_neighbors) (fun _ => .pure _)

theorem rejoinAddress_neighbors {requestedNwk : Nwk} {sourceIeee : Eui64} :
    Steps (Keeps Net.neighbors) (rejoinAddress env requestedNwk sourceIeee) :=
  .bind .get fun _ => .ite (fun _ => .bind .get fun _ => .lift _) (fun _ => .pure _)

theorem pushNotification_neighbors {notification : ZigbeeNotification} :
    Steps (Keeps Net.neighbors) (pushNotification notification) :=
  .modify fun _ => rfl

/-- The neighbors of the stack. -/
abbrev ZigbeeStack.neighbors (stack : ZigbeeStack) : Neighbors := stack.net.neighbors

theorem liftNet_neighbors {α : Type} {x : NetM α} (h : Steps (Keeps Net.neighbors) x) :
    Steps (Keeps ZigbeeStack.neighbors) (liftNet x) := by
  intro stack a stack' hlift
  obtain ⟨net, hx, rfl⟩ := liftNet_eq_ok.mp hlift
  exact h _ _ _ hx

theorem queueAssociationResponse_sending {eui64 : Eui64} {shortAddress : Nwk}
    {status : Ieee802154AssociationStatus} :
    Steps Sending (queueAssociationResponse env eui64 shortAddress status) :=
  .bind dropIndirectTransactions_sending fun _ => .bind .get fun _ => apart_devices.admission

/-- A join changes the keys of the device, and at most notifies the client. -/
theorem beginJoin_sending {ieee : Eui64} (stack : ZigbeeStack) :
    Ensures stack (beginJoin ieee) fun _ stack' => Sending stack.net stack'.net := by
  refine .bind_get ?_
  generalize stack.apsSecurity.beginJoin ieee = joined
  obtain ⟨provisionalKey, security⟩ := joined
  refine .bind_set ?_
  cases provisionalKey with
  | some key =>
    intro _ stack' hlift
    obtain ⟨net, h, rfl⟩ := liftNet_eq_ok.mp hlift
    exact pushNotification_sending _ _ _ h
  | none => exact .pure (refl_of Sending _)

/-! ## Requests -/

/-- The device that asks to associate. -/
def associationSource : Option Ieee802154Address → Option Eui64
  | some (.eui64 eui64) => some eui64
  | _ => none

theorem process802154AssociationRequest_withinCapacity {srcAddress : Option Ieee802154Address}
    {request : Ieee802154AssociationRequestCommand} {stack : ZigbeeStack} :
    Ensures stack (process802154AssociationRequest env srcAddress request) (fun _ stack' =>
      WithinCapacity env (associationDeviceType request) (associationSource srcAddress)
        stack.net.neighbors stack'.net.neighbors) := by
  have hdenied {eui64 : Eui64} {status : Ieee802154AssociationStatus} :
      Ensures stack (do let _ ← liftNet (queueAssociationResponse env eui64 0xFFFF status))
        (fun _ stack' => WithinCapacity env (associationDeviceType request)
          (associationSource srcAddress) stack.net.neighbors stack'.net.neighbors) := by
    refine Ensures.mono (Steps.bind (liftNet_neighbors (queueAssociationResponse_sending.mono
      fun _ _ => Sending.neighbors)) (fun _ => .pure _) stack) fun _ _ hkeeps => ?_
    exact .of_eq hkeeps
  unfold process802154AssociationRequest
  split
  next sourceEui64 =>
    refine .bind_get (.ite (fun _ => hdenied) fun _ => .ite (fun _ => hdenied) fun hroom => ?_)
    refine .bind (liftNet_neighbors (.bind .get fun _ => .lift _) stack)
      fun assigned stack₁ h₁ => ?_
    refine .bind (beginJoin_sending stack₁) fun _ stack₂ h₂ => ?_
    intro _ stack' hlift
    obtain ⟨net, h, rfl⟩ := liftNet_eq_ok.mp hlift
    obtain ⟨_, net₁, hmapping, h⟩ := bind_eq_ok.mp h
    have h₃ := updateNwkEui64Mapping_neighbors _ _ _ hmapping
    cases h
    have hsame : net₁.neighbors = stack.net.neighbors := h₃.trans (h₂.neighbors.trans h₁)
    dsimp only
    rw [hsame]
    exact withinCapacity_upsertChild (.inl rfl) (Bool.eq_false_iff.mpr hroom) env.now
  next => exact .pure (.of_eq rfl)

theorem handleRejoinRequest_withinCapacity {apsSecurity : ApsSecurity} {frame : NwkFrame}
    {request : NwkRejoinRequestCommand} {secured : Bool} {net : Net} :
    Ensures net (handleRejoinRequest env apsSecurity frame request secured) (fun _ net' =>
      WithinCapacity env (rejoinDeviceType request) frame.nwkHeader.sourceIeee net.neighbors
        net'.neighbors) := by
  have hresponse {destination assigned : Nwk} {ieee : Eui64}
      {status : Nwk802154AssociationStatus} : Steps (Keeps Net.neighbors)
        (sendRejoinResponse env destination ieee assigned status secured) :=
    sendRejoinResponse_sending.mono fun _ _ => Sending.neighbors
  unfold handleRejoinRequest
  split
  next hsource => exact .pure (.of_eq rfl)
  next sourceIeee hsource =>
    refine .bind_get (.ite (fun _ => ?_) fun hroom => ?_)
    · exact (hresponse net).mono fun _ _ => .of_eq
    refine .bind (rejoinAddress_neighbors net) fun assigned net₁ h₁ => ?_
    refine .bind (updateNwkEui64Mapping_neighbors net₁) fun _ net₂ h₂ => ?_
    have hsame : net₂.neighbors = net.neighbors := h₂.trans h₁
    refine .bind (.modify (Q := fun _ net₃ => WithinCapacity env (rejoinDeviceType request)
      frame.nwkHeader.sourceIeee net.neighbors net₃.neighbors) ?_) fun _ net₃ hattached => ?_
    · dsimp only
      rw [hsource, hsame]
      refine withinCapacity_upsertChild ?_ (Bool.eq_false_iff.mpr hroom) env.now
      cases secured
      · exact .inr rfl
      · exact .inl rfl
    · -- the rest of the handler answers, announces and starts the delivery of the key
      have hrest : Steps (Keeps Net.neighbors) (do
          sendRejoinResponse env frame.nwkHeader.source sourceIeee assigned .associationSuccessful
            secured
          if secured then announceJoin env assigned sourceIeee
          else if mayRejoinUnsecured env apsSecurity sourceIeee then
            modify fun net =>
              { net with
                tasklets := net.tasklets ++
                  [.deliverKeyAndAnnounce assigned sourceIeee .rejoin] }) := by
        refine .bind hresponse fun _ => .ite (fun _ => ?_) fun _ =>
          .ite (fun _ => .modify fun _ => rfl) (fun _ => .pure _)
        exact .bind .get fun _ => pushNotification_neighbors
      refine (hrest net₃).mono fun _ net' hkeeps => ?_
      have hkeeps : net'.neighbors = net₃.neighbors := hkeeps
      rw [hkeeps]
      exact hattached

/-- In every state, a request to associate or to rejoin takes the count of end device children
past the capacity only when the device is known as something else than an end device child and
comes back as one, and then by one; a count that is past it already is raised in no other
case. -/
theorem child_capacity (env : Env) :
    (∀ srcAddress request stack stack',
      process802154AssociationRequest env srcAddress request stack = .ok ((), stack') →
      WithinCapacity env (associationDeviceType request) (associationSource srcAddress)
        stack.net.neighbors stack'.net.neighbors) ∧
    ∀ apsSecurity frame request secured net net',
      handleRejoinRequest env apsSecurity frame request secured net = .ok ((), net') →
      WithinCapacity env (rejoinDeviceType request) frame.nwkHeader.sourceIeee net.neighbors
        net'.neighbors :=
  ⟨fun _ _ _ _ h => process802154AssociationRequest_withinCapacity _ _ h,
    fun _ _ _ _ _ _ h => handleRejoinRequest_withinCapacity _ _ h⟩

end

namespace Example

/-- A coordinator with room for one end device. -/
def smallParent : Env :=
  { Env.plain .coordinator 0 1 with tunables := { maxChildren := 1 } }

/-- It has one child, the end device 5, and heard a link status of the router 6. -/
def fullHouse : ZigbeeStack :=
  let stack := ZigbeeStack.plain smallParent 7
  let neighbors := ({} : Neighbors).upsertChild
    { eui64 := 5
      networkAddress := 0x5555
      deviceType := .endDevice
      rxOnWhenIdle := true
      deviceTimeout := 1
      relationship := .child } 0
  { stack with
    net :=
      { stack.net with
        permittingJoinsUntil := some 1
        neighbors := (neighbors.onLinkStatus 0 6 0x1234 255 ⟨true, true, []⟩ 0).2
        addressMap := (stack.net.addressMap.updateMapping 6 0x1234).2 } }

/-- The router comes back as an end device. -/
def demoted : Ieee802154AssociationRequestCommand where
  alternatePanCoordinator := false
  deviceType := .reducedFunctionDevice
  powerSource := .batteryPower
  receiveOnWhenIdle := true
  reserved1 := 0
  securityCapable := false
  allocateAddress := true

end Example

open Driver.Example in
/-- A router that we only know from its link statuses is admitted as an end device child when
there is no room for one. -/
theorem child_capacity_exceeded :
    smallParent.tunables.maxChildren = 1 ∧ fullHouse.net.neighbors.endDeviceChildCount = 1 ∧
    (process802154AssociationRequest smallParent (some (.eui64 6)) demoted fullHouse).toOption.map
      (fun r => r.2.net.neighbors.endDeviceChildCount) = some 2 := by
  decide +kernel

end Driver

end Ziggurat
