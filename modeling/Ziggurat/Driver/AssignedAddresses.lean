import Ziggurat.Driver.LostNeighbors

/-!
# The addresses that joining devices are given

The address of a device that joins or rejoins comes from one of three places.  The generator draws
an unused address in the assigned range.  A device that the address map knows is given the address
it has there, and one that rejoins keeps the address that it asks for unless another device has it:
neither of these is checked against the range.

`assigned_addresses_iff` says when the address that goes into the response and the neighbor table
is one that a device may have.
-/

namespace Ziggurat

namespace AddressMap

variable {addresses : AddressMap} {eui64 : Eui64} {nwk : Nwk}

/-- The addresses that may be assigned. -/
def InRange (nwk : Nwk) : Prop := 0x0001 ≤ nwk.val ∧ nwk.val ≤ 0xFFF7

/-- An address that a device may be given: it is in the range, it is not ours, and no other device
has it. -/
structure Assignable (addresses : AddressMap) (eui64 : Eui64) (nwk : Nwk) : Prop where
  inRange : InRange nwk
  notOwn : nwk ≠ addresses.ownAddress
  unowned : ∀ other ≠ eui64, addresses.nwkFor other ≠ some nwk

/-- The address that a device had before may be given to it again. -/
def Reassignable (addresses : AddressMap) (eui64 : Eui64) : Prop :=
  ∀ previous, addresses.nwkFor eui64 = some previous → addresses.Assignable eui64 previous

/-- The generator draws from the range, and nobody has what it draws. -/
theorem assignable_of_generateUnused {neighbors : Neighbors} {candidates : List Nwk}
    (h : addresses.generateUnused neighbors candidates = .ok nwk) :
    addresses.Assignable eui64 nwk := by
  have hunused := List.find?_some (Checked.expect_eq_ok.mp h)
  simp only [Bool.and_eq_true, decide_eq_true_eq] at hunused
  obtain ⟨⟨⟨⟨hzero, hrange⟩, hown⟩, -⟩, -⟩ := hunused
  exact ⟨⟨Nat.one_le_iff_ne_zero.mpr hzero, Nat.le_of_lt_succ hrange⟩, hown,
    fun other _ => nwkFor_ne_of_generateUnused h other⟩

theorem claimedByOther_eq_false :
    addresses.claimedByOther nwk eui64 = false ↔
      nwk ≠ addresses.ownAddress ∧ ∀ other ≠ eui64, addresses.nwkFor other ≠ some nwk := by
  rw [← Bool.not_eq_true, claimedByOther_eq_true]
  push Not
  rfl

/-- An address that is allocated may be given if the one that the device had may, and writing it
down is no conflict. -/
theorem allocate_assignable {neighbors : Neighbors} {candidates : List Nwk}
    (h : addresses.allocate eui64 neighbors candidates = .ok nwk) :
    (addresses.Assignable eui64 nwk ↔ addresses.Reassignable eui64) ∧
      (addresses.nwkFor eui64 = some nwk ∨ addresses.claimedByOther nwk eui64 = false) := by
  unfold allocate at h
  cases hprevious : addresses.nwkFor eui64 with
  | some previous =>
    rw [hprevious] at h
    cases h
    refine ⟨⟨fun hassignable other hother => ?_, fun h => h _ hprevious⟩, .inl rfl⟩
    cases hprevious.symm.trans hother
    exact hassignable
  | none =>
    rw [hprevious] at h
    have hassignable := @assignable_of_generateUnused addresses eui64 nwk neighbors candidates h
    refine ⟨iff_of_true hassignable fun other hother => ?_, .inr ?_⟩
    · cases hprevious.symm.trans hother
    · exact claimedByOther_eq_false.mpr ⟨hassignable.notOwn, hassignable.unowned⟩

/-- Writing down a device's own mapping does not change what it may be given. -/
theorem assignable_updateMapping {written : Nwk} :
    (addresses.updateMapping eui64 written).2.Assignable eui64 nwk ↔
      addresses.Assignable eui64 nwk := by
  have hothers : ∀ other ≠ eui64,
      (addresses.updateMapping eui64 written).2.nwkFor other = addresses.nwkFor other := by
    intro other hother
    rcases updateMapping_cases addresses eui64 written with ⟨-, heq⟩ | ⟨-, -, heq⟩ | ⟨-, -, -, heq⟩
    · rw [heq]
    · rw [heq]
    · rw [heq]
      exact (FlatMap.get_insert ..).trans (if_neg hother)
  constructor
  · intro h
    refine ⟨h.inRange, ownAddress_updateMapping addresses eui64 written ▸ h.notOwn,
      fun other hother => ?_⟩
    rw [← hothers other hother]
    exact h.unowned other hother
  · intro h
    refine ⟨h.inRange, (ownAddress_updateMapping addresses eui64 written).symm ▸ h.notOwn,
      fun other hother => ?_⟩
    rw [hothers other hother]
    exact h.unowned other hother

end AddressMap

namespace Driver

open Lib.Stateful

variable {env : Env}

/-! ## Associations -/

/-- A mapping that is in no conflict is written, and nothing else happens. -/
theorem updateNwkEui64Mapping_of_free {nwk : Nwk} {eui64 : Eui64} {net : Net}
    (hfree : net.addressMap.nwkFor eui64 = some nwk ∨
      net.addressMap.claimedByOther nwk eui64 = false) :
    updateNwkEui64Mapping env nwk eui64 net =
      .ok ((), { net with addressMap := (net.addressMap.updateMapping eui64 nwk).2 }) := by
  have hupdate : (net.addressMap.updateMapping eui64 nwk).1 = false := by
    rcases AddressMap.updateMapping_cases net.addressMap eui64 nwk with
      ⟨-, heq⟩ | ⟨hnew, hclaimed, -⟩ | ⟨-, -, -, heq⟩
    · rw [heq]
    · rw [AddressMap.claimedByOther_eq_true.mpr hclaimed] at hfree
      exact absurd (hfree.resolve_right nofun) hnew
    · rw [heq]
  refine (bind_of_ok rfl).trans ((bind_of_ok rfl).trans (congrFun (if_neg ?_) _))
  exact ne_true_of_eq_false hupdate

/-- The address in the neighbor table. -/
def neighborAddress (net : Net) (eui64 : Eui64) : Option Nwk :=
  (net.neighbors.table.get eui64).map (·.networkAddress)

/-- Whether the request is answered with an address. -/
def AssociationAdmitted (env : Env) (net : Net) (request : Ieee802154AssociationRequestCommand)
    (eui64 : Eui64) : Prop :=
  net.permittingJoinsUntil.any (env.now < ·) = true ∧
    atCapacity env net.neighbors (associationDeviceType request) eui64 = false

theorem neighborAddress_upsertChild {net net' : Net} {child : ChildDescriptor} {now : Instant}
    {eui64 : Eui64} {nwk : Nwk} (h : net'.neighbors = net.neighbors.upsertChild child now)
    (heui64 : child.eui64 = eui64) (hnwk : child.networkAddress = nwk) :
    neighborAddress net' eui64 = some nwk := by
  subst heui64 hnwk
  unfold neighborAddress
  rw [h]
  exact congrArg _ ((FlatMap.get_insert ..).trans (if_pos rfl))

/-- What an admitted association does: the address is written down, and a tasklet is to answer
with it. -/
theorem process802154AssociationRequest_assigns {request : Ieee802154AssociationRequestCommand}
    {stack : ZigbeeStack} {eui64 : Eui64}
    (hadmitted : AssociationAdmitted env stack.net request eui64) :
    Ensures stack (process802154AssociationRequest env (some (.eui64 eui64)) request)
      fun _ stack' => ∃ assigned, neighborAddress stack'.net eui64 = some assigned ∧
        stack'.net.tasklets = stack.net.tasklets ++ [.runJoin eui64 assigned] ∧
        (stack'.net.addressMap.Assignable eui64 assigned ↔
          stack.net.addressMap.Reassignable eui64) := by
  obtain ⟨hpermitted, hcapacity⟩ := hadmitted
  unfold process802154AssociationRequest
  refine .bind_get ?_
  dsimp only
  rw [hpermitted, hcapacity, if_neg (by decide), if_neg (by decide)]
  have hallocate : Ensures stack (liftNet (allocateNetworkAddress env eui64))
      fun assigned stack' => stack' = stack ∧
        (stack.net.addressMap.Assignable eui64 assigned ↔
          stack.net.addressMap.Reassignable eui64) ∧
        (stack.net.addressMap.nwkFor eui64 = some assigned ∨
          stack.net.addressMap.claimedByOther assigned eui64 = false) := by
    intro assigned stack' hlift
    obtain ⟨net, h, rfl⟩ := liftNet_eq_ok.mp hlift
    obtain ⟨_, _, hget, h⟩ := bind_eq_ok.mp h
    cases hget
    obtain ⟨hallocate, rfl⟩ := lift_eq_ok.mp h
    exact ⟨rfl, AddressMap.allocate_assignable hallocate⟩
  refine .bind hallocate ?_
  rintro assigned _ ⟨rfl, hassignable, hfree⟩
  refine .bind (beginJoin_sending _) fun _ stack₁ hjoined => ?_
  rw [← hjoined.addressMap] at hassignable hfree ⊢
  rw [← hjoined.tasklets]
  intro _ stack' hlift
  obtain ⟨net, h, rfl⟩ := liftNet_eq_ok.mp hlift
  obtain ⟨_, net₁, hmapping, h⟩ := bind_eq_ok.mp h
  cases (updateNwkEui64Mapping_of_free hfree).symm.trans hmapping
  cases h
  refine ⟨assigned, @neighborAddress_upsertChild stack₁.net _ _ _ _ _ rfl rfl rfl, rfl, ?_⟩
  exact AddressMap.assignable_updateMapping.trans hassignable

/-! ## Responses -/

section

variable {net net' : Net}

/-- A unicast to its next hop is enqueued under the next identifier. -/
theorem of_sendUnicast_direct {send : Unicast} {r : Except EnqueueError SendId}
    (hmode : send.mode = .direct) (h : sendUnicast env send net = .ok (r, net')) :
    net'.sends.nextId = net.sends.nextId + 1 ∧
      ∃ record frame, net'.sends.unicasts.records.get net.sends.nextId = some record ∧
        record.frame = some (.nwk frame send.security) ∧ frame.payload = send.frame.payload := by
  obtain ⟨frame, security, mode, policy, confirm⟩ := send
  cases hmode
  obtain ⟨_, _, hlift, h⟩ := bind_eq_ok.mp h
  obtain ⟨-, rfl⟩ := lift_eq_ok.mp hlift
  obtain ⟨_, _, hsequence, h⟩ := bind_eq_ok.mp h
  cases hsequence
  obtain ⟨_, _, hget, h⟩ := bind_eq_ok.mp h
  cases hget
  obtain ⟨_, _, hresolve, h⟩ := bind_eq_ok.mp h
  cases hresolve
  obtain ⟨_, _, henqueue, h⟩ := bind_eq_ok.mp h
  cases h
  cases (enqueueUnicast_eq_ok env _ (room_of_admission henqueue) ..).symm.trans henqueue
  exact ⟨rfl, _, _, (FlatMap.get_insert ..).trans (if_pos rfl), rfl, rfl⟩

/-- The one unicast that a response enqueues. -/
theorem of_sendRejoinResponse {destination assigned : Nwk} {destinationIeee : Eui64}
    {status : Nwk802154AssociationStatus} {secured : Bool}
    (h : sendRejoinResponse env destination destinationIeee assigned status secured net =
      .ok ((), net')) :
    net'.sends.nextId = net.sends.nextId + 1 ∧
      ∃ record frame security, net'.sends.unicasts.records.get net.sends.nextId = some record ∧
        record.frame = some (.nwk frame security) ∧ frame.payload = .command (.rejoinResponse
          { networkAddress := assigned, rejoinStatus := status }) := by
  obtain ⟨_, _, hsend, h⟩ := bind_eq_ok.mp h
  cases h
  obtain ⟨hnext, record, frame, hrecord, hframe, hpayload⟩ := of_sendUnicast_direct rfl hsend
  refine ⟨hnext, record, frame, _, hrecord, hframe, hpayload.trans ?_⟩
  cases secured <;> rfl

end

/-- The address that a successful response grants. -/
def Frame.granted : Frame → Option Nwk
  | .nwk frame _ => match frame.payload with
    | .command (.rejoinResponse response) =>
      if response.rejoinStatus = .associationSuccessful then some response.networkAddress else none
    | _ => none
  | .raw (.command frame) => match frame.commandPayload with
    | .associationResponse response =>
      if response.associationStatus = .associationSuccessful then some response.shortAddress
      else none
    | _ => none
  | .raw _ => none

/-- A response that was enqueued between the two states grants an address. -/
def Grants (net net' : Net) (nwk : Nwk) : Prop :=
  ∃ id record frame, net.sends.nextId ≤ id ∧
    net'.sends.unicasts.records.get id = some record ∧ record.frame = some frame ∧
    Frame.granted frame = some nwk

/-- The tasklet of an association answers with the address that it was given. -/
theorem runJoin_grants {backend : CryptoBackend} {eui64 : Eui64} {assigned : Nwk}
    {verdict : Except DeliveryError Unit} {stack : ZigbeeStack} :
    Ensures stack (stepTasklet backend env (.runJoin eui64 assigned) verdict)
      fun _ stack' => Grants stack.net stack'.net assigned := by
  intro _ stack' h
  obtain ⟨id, stack₁, hlift, h⟩ := bind_eq_ok.mp h
  obtain ⟨net₁, hqueue, rfl⟩ := liftNet_eq_ok.mp hlift
  obtain ⟨net₂, h, rfl⟩ := liftNet_eq_ok.mp h
  cases h
  obtain ⟨_, dropped, hdrop, hqueue⟩ := bind_eq_ok.mp hqueue
  obtain ⟨unicasts, rfl⟩ := dropIndirectTransactions_unicasts _ _ hdrop
  obtain ⟨_, _, hget, hqueue⟩ := bind_eq_ok.mp hqueue
  cases hget
  cases (enqueueUnicast_eq_ok env _ (room_of_admission hqueue) ..).symm.trans hqueue
  exact ⟨stack.net.sends.nextId, _, _, le_refl _, (FlatMap.get_insert ..).trans (if_pos rfl),
    rfl, rfl⟩

/-! ## Rejoins -/

/-- The address that a device asks for may be given to it: if another device has it, the one that
it had before may; and else it is in the range. -/
def RequestAssignable (addresses : AddressMap) (eui64 : Eui64) (requested : Nwk) : Prop :=
  if addresses.claimedByOther requested eui64 then addresses.Reassignable eui64
  else AddressMap.InRange requested

theorem rejoinAddress_assignable {net : Net} {requested : Nwk} {eui64 : Eui64} :
    Ensures net (rejoinAddress env requested eui64) fun assigned net' => net' = net ∧
      (net.addressMap.Assignable eui64 assigned ↔
        RequestAssignable net.addressMap eui64 requested) ∧
      (net.addressMap.nwkFor eui64 = some assigned ∨
        net.addressMap.claimedByOther assigned eui64 = false) := by
  unfold RequestAssignable
  refine .bind_get (.ite (fun hclaimed => ?_) fun hfree => .pure ⟨rfl, ?_, .inr ?_⟩)
  · rw [if_pos hclaimed]
    exact .bind_get (.lift fun assigned hallocate =>
      ⟨rfl, AddressMap.allocate_assignable hallocate⟩)
  · rw [if_neg hfree]
    obtain ⟨hown, hothers⟩ := AddressMap.claimedByOther_eq_false.mp (Bool.eq_false_iff.mpr hfree)
    exact ⟨fun h => h.inRange, fun h => ⟨h, hown, hothers⟩⟩
  · exact Bool.eq_false_iff.mpr hfree

/-- What a rejoin that is not turned away does: the address is written down and granted. -/
theorem handleRejoinRequest_assigns {apsSecurity : ApsSecurity} {frame : NwkFrame}
    {request : NwkRejoinRequestCommand} {secured : Bool} {net : Net} {eui64 : Eui64}
    (hsource : frame.nwkHeader.sourceIeee = some eui64)
    (hcapacity : atCapacity env net.neighbors (rejoinDeviceType request) eui64 = false) :
    Ensures net (handleRejoinRequest env apsSecurity frame request secured)
      fun _ net' => ∃ assigned, neighborAddress net' eui64 = some assigned ∧
        Grants net net' assigned ∧
        (net'.addressMap.Assignable eui64 assigned ↔
          RequestAssignable net.addressMap eui64 frame.nwkHeader.source) := by
  unfold handleRejoinRequest
  rw [hsource]
  refine .bind_get ?_
  rw [hcapacity, if_neg Bool.false_ne_true]
  refine .bind rejoinAddress_assignable ?_
  rintro assigned _ ⟨rfl, hassignable, hfree⟩
  intro _ net' h
  rw [bind_of_ok (updateNwkEui64Mapping_of_free hfree)] at h
  obtain ⟨_, _, hmodify, h⟩ := bind_eq_ok.mp h
  cases hmodify
  obtain ⟨_, net₃, hresponse, h⟩ := bind_eq_ok.mp h
  have hsending := sendRejoinResponse_sending _ _ _ hresponse
  obtain ⟨-, record, response, security, hrecord, hframe, hpayload⟩ :=
    of_sendRejoinResponse hresponse
  -- what follows the response touches neither the neighbors nor the sends
  have hrest : net'.neighbors = net₃.neighbors ∧ net'.addressMap = net₃.addressMap ∧
      net'.sends = net₃.sends := by
    split at h
    · cases h
      exact ⟨rfl, rfl, rfl⟩
    · split at h <;> cases h <;> exact ⟨rfl, rfl, rfl⟩
  obtain ⟨hneighbors, haddresses, hsends⟩ := hrest
  refine ⟨assigned, neighborAddress_upsertChild (hneighbors.trans hsending.neighbors) rfl rfl,
    ⟨_, record, _, le_refl _, hsends ▸ hrecord, hframe, ?_⟩, ?_⟩
  · unfold Frame.granted
    dsimp only
    rw [hpayload]
    rfl
  · rw [haddresses, hsending.addressMap]
    exact AddressMap.assignable_updateMapping.trans hassignable

/-! ## Every request -/

/-- The address of a device that joins or rejoins may be given to it exactly if the one that it
comes back with may: the previous one for an association, and for a rejoin the one that it asks
for or, if another device has that, the previous one.  It goes into the neighbor table and into the
response. -/
theorem assigned_addresses_iff (backend : CryptoBackend) (env : Env) :
    (∀ (stack stack' : ZigbeeStack) (eui64 : Eui64)
      (request : Ieee802154AssociationRequestCommand),
      AssociationAdmitted env stack.net request eui64 →
      process802154AssociationRequest env (some (.eui64 eui64)) request stack = .ok ((), stack') →
      ∃ assigned, neighborAddress stack'.net eui64 = some assigned ∧
        stack'.net.tasklets = stack.net.tasklets ++ [.runJoin eui64 assigned] ∧
        (∀ verdict later later', stepTasklet backend env (.runJoin eui64 assigned) verdict later =
          .ok ((), later') → Grants later.net later'.net assigned) ∧
        (stack'.net.addressMap.Assignable eui64 assigned ↔
          stack.net.addressMap.Reassignable eui64)) ∧
    ∀ (net net' : Net) (apsSecurity : ApsSecurity) (frame : NwkFrame)
      (request : NwkRejoinRequestCommand) (secured : Bool) (eui64 : Eui64),
      frame.nwkHeader.sourceIeee = some eui64 →
      atCapacity env net.neighbors (rejoinDeviceType request) eui64 = false →
      handleRejoinRequest env apsSecurity frame request secured net = .ok ((), net') →
      ∃ assigned, neighborAddress net' eui64 = some assigned ∧ Grants net net' assigned ∧
        (net'.addressMap.Assignable eui64 assigned ↔
          RequestAssignable net.addressMap eui64 frame.nwkHeader.source) := by
  refine ⟨fun stack stack' eui64 request hadmitted h => ?_,
    fun net net' apsSecurity frame request secured eui64 hsource hcapacity h => ?_⟩
  · obtain ⟨assigned, hneighbor, htasklets, hassignable⟩ :=
      process802154AssociationRequest_assigns hadmitted _ _ h
    exact ⟨assigned, hneighbor, htasklets, fun _ _ _ hstep => runJoin_grants _ _ hstep, hassignable⟩
  · exact handleRejoinRequest_assigns hsource hcapacity _ _ h

namespace Example

/-- A device wants to come back. -/
def comesBack (deviceType : NwkRejoinCapabilityInformationDeviceType) :
    NwkRejoinRequestCommand where
  capabilityInformation :=
    { alternatePanCoordinator := false
      deviceType
      powerSource := .mainsPowered
      receiverOnWhenIdle := true
      reserved1 := 0
      reserved2 := 0
      securityCapability := false
      allocateAddress := true }

/-- The device 5 asks for an address. -/
def asksFor (nwk : Nwk) (request : NwkRejoinRequestCommand) : NwkFrame where
  nwkHeader := ownHeader (.plain .router nwk 5) .command 0 (some 5)
  auxHeader := none
  payload := .command (.rejoinRequest request)

/-- The coordinator hears the request. -/
def rejoined (nwk : Nwk) : Checked (Unit × Net) :=
  handleRejoinRequest (.plain .coordinator 0 1) configured.apsSecurity
    (asksFor nwk (comesBack .router)) (comesBack .router) true configured.net

theorem atCapacity_configured : atCapacity (.plain .coordinator 0 1) configured.net.neighbors
    (rejoinDeviceType (comesBack .router)) 5 = false := by
  decide +kernel

end Example

open Driver.Example in
theorem assigned_addresses_iff_rejoined : ∃ net' assigned, rejoined 0x1234 = .ok ((), net') ∧
    neighborAddress net' 5 = some assigned ∧ net'.addressMap.Assignable 5 assigned := by
  have hok : (rejoined 0x1234).toOption.isSome = true := by decide +kernel
  obtain ⟨⟨_, net'⟩, hrejoined⟩ := Option.isSome_iff_exists.mp hok
  have hrejoined := Checked.eq_ok_of_toOption hrejoined
  obtain ⟨assigned, hneighbor, -, hassignable⟩ :=
    (assigned_addresses_iff SoftwareBackend (.plain .coordinator 0 1)).2 configured.net net'
      configured.apsSecurity (asksFor 0x1234 (comesBack .router)) (comesBack .router) true 5 rfl
      atCapacity_configured hrejoined
  refine ⟨net', assigned, hrejoined, hneighbor, hassignable.mpr ?_⟩
  rw [RequestAssignable, if_neg (by decide +kernel)]
  exact ⟨by decide, by decide⟩

open Driver.Example in
/-- A router that asks for a reserved address is given it. -/
theorem reserved_address_assigned : ∃ net', rejoined 0xFFF8 = .ok ((), net') ∧
    neighborAddress net' 5 = some 0xFFF8 ∧ Grants configured.net net' 0xFFF8 := by
  have hfacts : (rejoined 0xFFF8).toOption.map (fun r => neighborAddress r.2 5) =
      some (some 0xFFF8) := by
    decide +kernel
  obtain ⟨⟨_, net'⟩, hrejoined, hneighbor⟩ := Option.map_eq_some_iff.mp hfacts
  have hrejoined := Checked.eq_ok_of_toOption hrejoined
  obtain ⟨assigned, hassigned, hgrants, -⟩ := @handleRejoinRequest_assigns _ _ _ _ _ _ 5 rfl
    atCapacity_configured _ _ hrejoined
  cases hneighbor.symm.trans hassigned
  exact ⟨net', hrejoined, hneighbor, hgrants⟩

end Driver

end Ziggurat
