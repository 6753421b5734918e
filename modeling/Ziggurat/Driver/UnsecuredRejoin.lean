import Ziggurat.Driver.AssignedAddresses

/-!
# Unsecured rejoins

A device that lost the network key may ask for it again in the clear, and the stack admits it
only if it shares a link key with the device.  `handle_rejoin_request` asks for the link key
last: the address map, the neighbor table and the response to the device come before.

So a request that is rejected leaves no trace exactly when the handler stops before that: the
request does not name its device, or there is no room for another child.
-/

namespace Ziggurat.Driver

open Lib.Stateful

/-- What `handle_rejoin_request` does before it responds, and the address and the status that it
responds with. -/
def rejoinAnswer (env : Env) (frame : NwkFrame) (request : NwkRejoinRequestCommand)
    (secured : Bool) (sourceIeee : Eui64) : NetM (Nwk × Nwk802154AssociationStatus) := do
  let deviceType := rejoinDeviceType request
  if atCapacity env (← get).neighbors deviceType sourceIeee then
    return (0xFFFF, .panAtCapacity)
  else
    let assignedNwk ← rejoinAddress env frame.nwkHeader.source sourceIeee
    updateNwkEui64Mapping env assignedNwk sourceIeee
    modify fun net =>
      { net with
        neighbors := net.neighbors.upsertChild
          { eui64 := sourceIeee
            networkAddress := assignedNwk
            deviceType
            rxOnWhenIdle := request.capabilityInformation.receiverOnWhenIdle
            deviceTimeout := initialDeviceTimeout env deviceType
            relationship := if secured then .child else .unauthenticatedChild } env.now }
    return (assignedNwk, .associationSuccessful)

section

variable {env : Env} {net net' : Net} {apsSecurity : ApsSecurity} {frame : NwkFrame}
  {request : NwkRejoinRequestCommand} {secured : Bool} {sourceIeee : Eui64}

/-- The handler in three steps: the answer, the response, and what follows a success. -/
theorem handleRejoinRequest_eq (hsource : frame.nwkHeader.sourceIeee = some sourceIeee) :
    handleRejoinRequest env apsSecurity frame request secured = (do
      let answer ← rejoinAnswer env frame request secured sourceIeee
      sendRejoinResponse env frame.nwkHeader.source sourceIeee answer.1 answer.2 secured
      if answer.2 = .associationSuccessful then
        if secured then announceJoin env answer.1 sourceIeee
        else if mayRejoinUnsecured env apsSecurity sourceIeee then
          modify fun net =>
            { net with
              tasklets := net.tasklets ++
                [.deliverKeyAndAnnounce answer.1 sourceIeee .rejoin] }) := by
  unfold handleRejoinRequest rejoinAnswer
  rw [hsource, bind_assoc]
  refine congrArg (get >>= ·) (funext fun net => ?_)
  split
  next => simp
  next => simp

theorem rejoinAnswer_of_capacity
    (hcapacity : atCapacity env net.neighbors (rejoinDeviceType request) sourceIeee = true) :
    rejoinAnswer env frame request secured sourceIeee net =
      .ok ((0xFFFF, .panAtCapacity), net) :=
  (bind_of_ok rfl).trans (congrFun (if_pos hcapacity) _)

/-- A request that goes past the capacity check succeeds, and no other device is in its way: only
the tables change before the response. -/
theorem rejoinAnswer_of_room {assigned : Nwk}
    (hcapacity : atCapacity env net.neighbors (rejoinDeviceType request) sourceIeee = false)
    (hfound : rejoinAddress env frame.nwkHeader.source sourceIeee net = .ok (assigned, net')) :
    ∃ net₁, rejoinAnswer env frame request secured sourceIeee net =
        .ok ((assigned, .associationSuccessful), net₁) ∧ net₁.tasklets = net.tasklets := by
  obtain ⟨rfl, -, hfree⟩ := rejoinAddress_assignable _ _ hfound
  refine ⟨_, (bind_of_ok rfl).trans ((congrFun (if_neg ?_) _).trans ((bind_of_ok hfound).trans
    ((bind_of_ok (updateNwkEui64Mapping_of_free hfree)).trans rfl))), rfl⟩
  exact ne_true_of_eq_false hcapacity

/-- No unicast that was enqueued between the two states grants an address. -/
def NoGrant (net net' : Net) : Prop :=
  ∀ id record frame, net.sends.nextId ≤ id → id < net'.sends.nextId →
    net'.sends.unicasts.records.get id = some record → record.frame = some frame →
    Frame.granted frame = none

/-- A response that refuses grants nothing. -/
theorem noGrant_of_sendRejoinResponse {destination assigned : Nwk}
    {status : Nwk802154AssociationStatus} (hstatus : status ≠ .associationSuccessful)
    (h : sendRejoinResponse env destination sourceIeee assigned status secured net =
      .ok ((), net')) :
    NoGrant net net' := by
  obtain ⟨hnext, record, response, security, hrecord, hframe, hpayload⟩ := of_sendRejoinResponse h
  intro id record' frame' hle hlt hrecord' hframe'
  rw [hnext] at hlt
  obtain rfl := Nat.le_antisymm (Nat.le_of_lt_succ hlt) hle
  cases hrecord.symm.trans hrecord'
  cases hframe.symm.trans hframe'
  unfold Frame.granted
  dsimp only
  rw [hpayload]
  exact if_neg hstatus

end

/-- The neighbors, the addresses and the keys stay as they are, when the handler responds and when
it returns, and it does not respond with success. -/
structure NoEffect (env : Env) (stack : ZigbeeStack) (frame : NwkFrame)
    (request : NwkRejoinRequestCommand) : Prop where
  answer : ∀ eui64 ∈ frame.nwkHeader.sourceIeee, ∀ answer net',
    rejoinAnswer env frame request false eui64 stack.net = .ok (answer, net') →
    net'.neighbors = stack.net.neighbors ∧ net'.addressMap = stack.net.addressMap ∧
      answer.2 ≠ .associationSuccessful
  returned : ∀ stack',
    liftNet (handleUnsecuredNwkFrame env stack.apsSecurity frame) stack = .ok ((), stack') →
    stack'.net.neighbors = stack.net.neighbors ∧ stack'.net.addressMap = stack.net.addressMap ∧
      stack'.apsSecurity = stack.apsSecurity ∧ NoGrant stack.net stack'.net

/-- A rejected request is not given the network key.  It has no other effect if and only if it
does not name its device, or there is no room for the device.

The addresses that the source draws for a device whose own is taken do not end, so one is found. -/
theorem rejected_rejoin_noEffect_iff (env : Env) (stack : ZigbeeStack) {frame : NwkFrame}
    {request : NwkRejoinRequestCommand}
    (hrequest : frame.payload = .command (.rejoinRequest request))
    (hrejected : ∀ eui64 ∈ frame.nwkHeader.sourceIeee,
      mayRejoinUnsecured env stack.apsSecurity eui64 = false)
    (hfound : ∀ eui64 ∈ frame.nwkHeader.sourceIeee, ∃ assigned net',
      rejoinAddress env frame.nwkHeader.source eui64 stack.net = .ok (assigned, net')) :
    (NoEffect env stack frame request ↔
      frame.nwkHeader.sourceIeee = none ∨
      ∃ eui64, frame.nwkHeader.sourceIeee = some eui64 ∧
        atCapacity env stack.net.neighbors (rejoinDeviceType request) eui64 = true) ∧
    ∀ stack', liftNet (handleUnsecuredNwkFrame env stack.apsSecurity frame) stack =
      .ok ((), stack') → stack'.net.tasklets = stack.net.tasklets := by
  have hhandler : handleUnsecuredNwkFrame env stack.apsSecurity frame =
      handleRejoinRequest env stack.apsSecurity frame request false := by
    unfold handleUnsecuredNwkFrame
    rw [hrequest]
  cases hsource : frame.nwkHeader.sourceIeee with
  | none =>
    have hstill : ∀ stack', liftNet (handleUnsecuredNwkFrame env stack.apsSecurity frame) stack =
        .ok ((), stack') → stack' = stack := by
      intro stack' h
      rw [hhandler, handleRejoinRequest, hsource] at h
      cases h
      rfl
    refine ⟨iff_of_true ⟨?_, fun stack' h => ?_⟩ (.inl rfl), fun stack' h => by rw [hstill _ h]⟩
    · rw [hsource]
      nofun
    · rw [hstill _ h]
      exact ⟨rfl, rfl, rfl, fun id _ _ hle hlt => absurd hlt (Nat.not_lt.mpr hle)⟩
  | some eui64 =>
    have hrefused := hrejected eui64 hsource
    obtain ⟨assigned, net₀, hassigned⟩ := hfound eui64 hsource
    rw [handleRejoinRequest_eq hsource] at hhandler
    cases hcapacity : atCapacity env stack.net.neighbors (rejoinDeviceType request) eui64 with
    | true =>
      have hanswer := @rejoinAnswer_of_capacity env stack.net frame request false eui64 hcapacity
      have hreturned : ∀ stack', liftNet (handleUnsecuredNwkFrame env stack.apsSecurity frame)
          stack = .ok ((), stack') → Sending stack.net stack'.net ∧
            stack'.apsSecurity = stack.apsSecurity ∧ NoGrant stack.net stack'.net := by
        intro stack' hlift
        obtain ⟨net', h, rfl⟩ := liftNet_eq_ok.mp hlift
        rw [hhandler, bind_of_ok hanswer] at h
        obtain ⟨_, _, hresponse, h⟩ := bind_eq_ok.mp h
        rw [if_neg (by decide)] at h
        cases h
        exact ⟨sendRejoinResponse_sending _ _ _ hresponse, rfl,
          noGrant_of_sendRejoinResponse (by decide) hresponse⟩
      refine ⟨iff_of_true ⟨?_, fun stack' h => ?_⟩ (.inr ⟨eui64, rfl, hcapacity⟩),
        fun stack' h => (hreturned _ h).1.tasklets⟩
      · intro eui64' hmem answer net' h
        cases hsource.symm.trans hmem
        cases hanswer.symm.trans h
        exact ⟨rfl, rfl, nofun⟩
      · obtain ⟨hsending, hkeys, hgrant⟩ := hreturned _ h
        exact ⟨hsending.neighbors, hsending.addressMap, hkeys, hgrant⟩
    | false =>
      obtain ⟨net₁, hanswer, htasklets⟩ :=
        @rejoinAnswer_of_room env stack.net net₀ frame request false eui64 _ hcapacity hassigned
      refine ⟨iff_of_false (fun h => ?_) ?_, fun stack' hlift => ?_⟩
      · exact (h.answer eui64 hsource _ _ hanswer).2.2 rfl
      · rintro (hnone | ⟨_, ⟨⟩, hroom⟩)
        · cases hnone
        · exact nomatch hcapacity.symm.trans hroom
      · -- the key is what the check withholds
        obtain ⟨net', h, rfl⟩ := liftNet_eq_ok.mp hlift
        rw [hhandler, bind_of_ok hanswer] at h
        obtain ⟨_, _, hresponse, h⟩ := bind_eq_ok.mp h
        rw [if_pos rfl, hrefused, if_neg (by decide), if_neg (by decide)] at h
        cases h
        exact (sendRejoinResponse_sending _ _ _ hresponse).tasklets.trans htasklets

namespace Example

/-- A coordinator that takes no children. -/
def full : Env :=
  { Env.plain .coordinator 0 1 with tunables := { maxChildren := 0 } }

end Example

open Driver.Example in
/-- An end device that shares no key with us is rejected, and told that there is no room. -/
theorem rejected_rejoin_noEffect_full :
    mayRejoinUnsecured full (ZigbeeStack.plain full 7).apsSecurity 5 = false ∧
    NoEffect full (.plain full 7) (asksFor 0x1234 (comesBack .endDevice)) (comesBack .endDevice) :=
  ⟨rfl, (rejected_rejoin_noEffect_iff full (.plain full 7) rfl (fun _ h => by cases h; rfl)
    (fun _ h => by cases h; exact ⟨_, _, rfl⟩)).1.mpr (.inr ⟨5, rfl, rfl⟩)⟩

open Driver.Example in
/-- A router that shares no key with us is rejected, and is a child of ours with an address
and a response that says so. -/
theorem rejected_rejoin_has_effect :
    let env := Env.plain .coordinator 0 1
    let stack := ZigbeeStack.plain env 7
    mayRejoinUnsecured env stack.apsSecurity 5 = false ∧
    ∃ stack', liftNet (handleUnsecuredNwkFrame env stack.apsSecurity
        (asksFor 0x1234 (comesBack .router))) stack = .ok ((), stack') ∧
      stack.net.neighbors.contains 5 = false ∧ stack'.net.neighbors.contains 5 = true ∧
      stack.net.addressMap.nwkFor 5 = none ∧ stack'.net.addressMap.nwkFor 5 = some 0x1234 ∧
      ((stack'.net.sends.unicasts.records.get 0).bind (·.frame)).bind Frame.granted =
        some 0x1234 :=
  ⟨rfl, _, rfl, rfl, rfl, rfl, rfl, rfl⟩

end Ziggurat.Driver
