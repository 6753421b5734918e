import Ziggurat.Aps.FrameSpec
import Ziggurat.Aps.KeyExchange
import Ziggurat.Driver.Receive
import Ziggurat.Lib.ReplayFilter
import Ziggurat.Lib.Stateful
import Ziggurat.Nwk.FrameSpec

/-!
# What the receive path accepts

Two properties of the checks in front of the handlers.

* They return for every packet: what a parser of one layer accepts, the serializers and the
  decryption of the next layer can hold.
* They are a replay filter.  A secured frame that is handled or relayed carries a counter
  above the one on record for the device that relayed it to us, and the record moves up to
  it before anything else happens.  A frame that is turned away moves no record.
-/

namespace Ziggurat.Driver

open Lib.ReplayFilter Lib.Stateful

/-! ## The checks return -/

section

variable (backend : CryptoBackend)

/-- The frame passed the checks of its auxiliary header. -/
structure Accepted (security : NwkSecurity) (frame : NwkFrame) (auxHeader : NwkAuxHeader)
    (source : Eui64) : Prop where
  auxHeader_eq : frame.auxHeader = some auxHeader
  extendedSource_eq : auxHeader.extendedSource = some source
  inbound : (security.inboundNetworkKey source auxHeader.keySequenceNumber
    auxHeader.frameCounter).isSome

/-- A secured frame that was let through is accepted. -/
def Received.Sound (security : NwkSecurity) : Received → Prop
  | .secured frame _ => ∃ auxHeader source, Accepted security frame auxHeader source
  | .ignored | .gpdf | .unsecured _ => True

/-- Every frame with a source route that fits is accepted or ignored. -/
theorem receiveSecured_eq_ok (security : NwkSecurity) (srcAddress : Option Ieee802154Address)
    {frame : EncryptedNwkFrame} (hroute : frame.nwkHeader.sourceRouteSize ≤ maxPhyPacketSize) :
    ∃ received, receiveSecured backend security srcAddress frame = .ok received ∧
      received.Sound security := by
  unfold receiveSecured
  cases haux : frame.auxHeader with
  | none => exact ⟨.ignored, rfl, trivial⟩
  | some auxHeader =>
    dsimp only
    split_ifs
    · exact ⟨.ignored, rfl, trivial⟩
    · exact ⟨.ignored, rfl, trivial⟩
    cases hsource : auxHeader.extendedSource with
    | none => exact ⟨.ignored, rfl, trivial⟩
    | some source =>
      dsimp only
      cases hkey : security.inboundNetworkKey source auxHeader.keySequenceNumber
          auxHeader.frameCounter with
      | none => exact ⟨.ignored, rfl, trivial⟩
      | some key =>
        have hreturns := @EncryptedNwkFrame.decrypt_returns backend frame auxHeader key hroute haux
          (by rw [hsource]; rfl)
        obtain ⟨decrypted, hdecrypt, hheaders⟩ := hreturns.toOption
        dsimp only
        rw [hdecrypt, Checked.ok_bind]
        match decrypted, srcAddress with
        | none, _ | some _, none | some _, some (.eui64 _) => exact ⟨.ignored, rfl, trivial⟩
        | some decrypted, some (.nwk sender) =>
          exact ⟨.secured decrypted sender, rfl, auxHeader, source,
            (hheaders _ rfl).2.trans haux, hsource, by rw [hkey]; rfl⟩

/-- The checks of a data frame return. -/
theorem receive_eq_ok (env : Env) (panId : PanId) (security : NwkSecurity)
    (dataFrame : Ieee802154DataFrame FrameBytes) :
    ∃ received, receive backend env panId security dataFrame = .ok received ∧
      received.Sound security := by
  unfold receive
  dsimp only
  split_ifs
  · exact ⟨.ignored, rfl, trivial⟩
  · exact ⟨.gpdf, rfl, trivial⟩
  · exact ⟨.ignored, rfl, trivial⟩
  · exact ⟨.ignored, rfl, trivial⟩
  obtain ⟨parsed, hparse, hroute⟩ :=
    (EncryptedNwkFrame.fromBytes_returns dataFrame.payload.bytes).toOption
  rw [hparse, Checked.ok_bind]
  cases parsed with
  | none => exact ⟨.ignored, rfl, trivial⟩
  | some frame =>
    dsimp only
    split_ifs
    · exact ⟨.ignored, rfl, trivial⟩
    · obtain ⟨payload, hpayload⟩ :=
        NwkPayload.fromBytes_eq_ok frame.nwkHeader.frameControl.frameType frame.ciphertext
      rw [hpayload]
      exact ⟨.unsecured _, rfl, trivial⟩
    · exact receiveSecured_eq_ok backend security _ (hroute frame rfl)

/-- Decryption returns for a frame of any kind. -/
theorem decryptFrame_returns {α Err : Type} {decrypt : Key → Parse Err α}
    (hdecrypt : ∀ key, Parse.Returns (decrypt key) fun _ => True) (security : ApsSecurity)
    (source : Eui64) (auxHeader : ApsAuxHeader) (networkKey : Key) :
    ∃ r, security.decryptFrame backend source auxHeader networkKey
        (fun key => (decrypt key).toOption) = .ok r := by
  obtain ⟨o, security', h, -⟩ := security.decryptFrame_eq_ok backend
    (fun key => (hdecrypt key).toOption.imp fun _ => And.left) source auxHeader networkKey
  exact ⟨_, h⟩

theorem decryptData_eq_ok (security : ApsSecurity) (source : Eui64) (frame : EncryptedApsDataFrame)
    (networkKey : Key) : ∃ r, security.decryptData backend source frame networkKey = .ok r :=
  decryptFrame_returns backend (frame.decrypt_returns · source) ..

theorem decryptAck_eq_ok (security : ApsSecurity) (source : Eui64) (frame : EncryptedApsAckFrame)
    (networkKey : Key) : ∃ r, security.decryptAck backend source frame networkKey = .ok r :=
  decryptFrame_returns backend (frame.decrypt_returns · source) ..

theorem decryptCommand_eq_ok (security : ApsSecurity) (source : Eui64)
    (frame : EncryptedApsCommandFrame) (networkKey : Key) :
    ∃ r, security.decryptCommand backend source frame networkKey = .ok r :=
  decryptFrame_returns backend frame.decrypt_returns ..

/-- The APS layer returns for a payload of any kind. -/
theorem receiveAps_eq_ok (stack : ZigbeeStack) (header : NwkHeader) (payload : FrameBytes) :
    ∃ r, receiveAps backend stack header payload = .ok r := by
  obtain ⟨parsed, hparse, -⟩ := (parseApsFrame_returns payload.bytes).toOption
  unfold receiveAps
  rw [hparse, Checked.ok_bind]
  match parsed with
  | none | some (.data _) | some (.ack _) | some (.command _) => exact ⟨_, rfl⟩
  | some (.encryptedData frame) =>
    dsimp only
    unfold decryptApsDataFrame
    split
    next => exact ⟨_, rfl⟩
    next source _ =>
      obtain ⟨⟨decrypted, _⟩, hdecrypt⟩ := decryptData_eq_ok backend
        stack.apsSecurity source frame stack.nwkSecurity.networkKey
      rw [hdecrypt, Checked.ok_bind]
      cases decrypted <;> exact ⟨_, rfl⟩
  | some (.encryptedAck frame) =>
    dsimp only
    unfold decryptApsAckFrame
    split
    next => exact ⟨_, rfl⟩
    next source _ =>
      obtain ⟨⟨decrypted, _⟩, hdecrypt⟩ := decryptAck_eq_ok backend
        stack.apsSecurity source frame stack.nwkSecurity.networkKey
      rw [hdecrypt, Checked.ok_bind]
      cases decrypted <;> exact ⟨_, rfl⟩
  | some (.encryptedCommand frame) =>
    dsimp only
    unfold decryptApsCommandFrame
    split
    next => exact ⟨_, rfl⟩
    next source _ =>
      obtain ⟨⟨decrypted, _⟩, hdecrypt⟩ := decryptCommand_eq_ok backend
        stack.apsSecurity source frame stack.nwkSecurity.networkKey
      rw [hdecrypt, Checked.ok_bind]
      cases decrypted <;> exact ⟨_, rfl⟩

/-- The receive path cannot be crashed from the air.  Whatever the radio delivers, in
whatever state: the packet parses or not; the checks of a data frame decide, with the frame
decrypted or not; and the APS layer decides on the payload of a frame for us, in the state
that the handlers of the network layer left. -/
theorem receive_path_returns (env : Env) (psdu : Bytes)
    (panId : PanId) (security : NwkSecurity) (dataFrame : Ieee802154DataFrame FrameBytes)
    (stack : ZigbeeStack) (header : NwkHeader) (payload : FrameBytes) :
    (∃ parsed, (Ieee802154Frame.fromBytesWithoutFcs psdu).run = .ok parsed) ∧
      (∃ received, receive backend env panId security dataFrame = .ok received) ∧
        ∃ received, receiveAps backend stack header payload = .ok received := by
  refine ⟨?_, ?_, receiveAps_eq_ok backend stack header payload⟩
  · obtain ⟨parsed, hparse, -⟩ := Ieee802154Frame.fromBytesWithoutFcs_returns psdu
    exact ⟨parsed, hparse⟩
  · obtain ⟨received, hreceive, -⟩ := receive_eq_ok backend env panId security dataFrame
    exact ⟨received, hreceive⟩

/-! ## The checks are a replay filter -/

/-- The incoming frame counters of a stack. -/
abbrev ZigbeeStack.incoming (stack : ZigbeeStack) : FlatMap Eui64 UInt32 :=
  stack.nwkSecurity.primary.incomingFrameCounterSet

/-- A data frame from the radio, with all that its handler draws on, and what the other tasks
of the driver did before it arrived. -/
structure Delivery where
  env : Env
  frame : Ieee802154DataFrame FrameBytes
  lqi : UInt8
  rssi : Int8
  meanwhile : ZigbeeStack → ZigbeeStack
  keeps : ∀ stack, (meanwhile stack).incoming = stack.incoming

/-- The relaying device and the counter of a frame that was decrypted. -/
def frameCounterOf (frame : NwkFrame) : List (Eui64 × Nat) :=
  match frame.auxHeader with
  | none => []
  | some auxHeader =>
    match auxHeader.extendedSource with
    | none => []
    | some source => [(source, auxHeader.frameCounter.toNat)]

/-- The secured frame among what the checks let through. -/
def Received.handled : Received → List (Eui64 × Nat)
  | .secured frame _ => frameCounterOf frame
  | .ignored | .gpdf | .unsecured _ => []

/-- The counters on record once the checks have decided. -/
def Received.note (security : NwkSecurity) : Received → NwkSecurity
  | .secured frame _ => noteFrameCounter frame security
  | .ignored | .gpdf | .unsecured _ => security

/-- What the checks make of a data frame in a state. -/
def checked (env : Env) (stack : ZigbeeStack) (dataFrame : Ieee802154DataFrame FrameBytes) :
    Received :=
  match receive backend env stack.net.panId stack.nwkSecurity dataFrame with
  | .ok received => received
  | .error _ => .ignored

/-- Process data frames one after another: the secured frames that are handled or relayed, and
the last state.  A handler that panics ends the run, with the counter of its frame on
record. -/
def processAll (stack : ZigbeeStack) : List Delivery → List (Eui64 × Nat) × ZigbeeStack
  | [] => ([], stack)
  | delivery :: deliveries =>
    let stack := delivery.meanwhile stack
    let received := checked backend delivery.env stack delivery.frame
    match process802154DataFrame backend delivery.env delivery.frame delivery.lqi delivery.rssi
      stack with
    | .error _ => (received.handled, { stack with
        nwkSecurity := received.note stack.nwkSecurity })
    | .ok (_, stack') =>
      let (log, last) := processAll stack' deliveries
      (received.handled ++ log, last)

theorem receive_eq_checked (env : Env) (stack : ZigbeeStack)
    (dataFrame : Ieee802154DataFrame FrameBytes) :
    receive backend env stack.net.panId stack.nwkSecurity dataFrame =
        .ok (checked backend env stack dataFrame) ∧
      (checked backend env stack dataFrame).Sound stack.nwkSecurity := by
  obtain ⟨received, hreceive, hsound⟩ :=
    receive_eq_ok backend env stack.net.panId stack.nwkSecurity dataFrame
  rw [checked, hreceive]
  exact ⟨rfl, hsound⟩

/-- The lowest counter that is accepted of a device. -/
def counterFloor (incoming : FlatMap Eui64 UInt32) (source : Eui64) : Nat :=
  match incoming.get source with
  | none => 0
  | some stored => stored.toNat + 1

/-- Whatever the handlers do, the records are those that the checks call for. -/
theorem process802154DataFrame_nwkSecurity {env : Env}
    {dataFrame : Ieee802154DataFrame FrameBytes} {lqi : UInt8} {rssi : Int8}
    {stack stack' : ZigbeeStack} {r : Option NwkFrame}
    (h : process802154DataFrame backend env dataFrame lqi rssi stack = .ok (r, stack')) :
    stack'.nwkSecurity = (checked backend env stack dataFrame).note stack.nwkSecurity := by
  have hreceive := (receive_eq_checked backend env stack dataFrame).1
  generalize checked backend env stack dataFrame = received at hreceive ⊢
  unfold process802154DataFrame at h
  obtain ⟨_, _, hget, h⟩ := bind_eq_ok.mp h
  cases hget
  obtain ⟨_, _, hlift, h⟩ := bind_eq_ok.mp h
  rw [hreceive] at hlift
  cases hlift
  cases received with
  | ignored =>
    cases h
    rfl
  | gpdf | unsecured _ =>
    obtain ⟨_, _, hnet, h⟩ := bind_eq_ok.mp h
    obtain ⟨_, _, rfl⟩ := liftNet_eq_ok.mp hnet
    cases h
    rfl
  | secured frame sender =>
    obtain ⟨_, _, hset, h⟩ := bind_eq_ok.mp h
    cases hset
    split at h
    all_goals
      obtain ⟨_, _, hnet, h⟩ := bind_eq_ok.mp h
      obtain ⟨_, _, rfl⟩ := liftNet_eq_ok.mp hnet
      cases h
      rfl

/-- The checks guard the records. -/
theorem Received.Sound.guarded {security : NwkSecurity} {received : Received}
    (h : received.Sound security) :
    Guarded (counterFloor security.primary.incomingFrameCounterSet) received.handled
      (counterFloor (received.note security).primary.incomingFrameCounterSet) := by
  cases received with
  | ignored | gpdf | unsecured _ => exact .idle fun _ => Nat.le_refl _
  | secured frame sender =>
    obtain ⟨auxHeader, source, haux, hsource, hinbound⟩ := h
    obtain ⟨-, hfresh⟩ := NwkSecurity.of_inboundNetworkKey_isSome hinbound
    have hfloor : counterFloor security.primary.incomingFrameCounterSet source ≤
        auxHeader.frameCounter.toNat := by
      unfold counterFloor
      split
      next => exact Nat.zero_le _
      next stored hstored => exact hfresh stored hstored
    simp only [Received.handled, Received.note, frameCounterOf, noteFrameCounter, haux, hsource]
    refine .take (fun other => ?_) hfloor ?_
    · by_cases hother : other = source
      · rw [hother]
        refine hfloor.trans ?_
        simp [counterFloor, NwkSecurity.noteInboundFrameCounter]
      · simp [counterFloor, NwkSecurity.noteInboundFrameCounter, hother]
    · simp [counterFloor, NwkSecurity.noteInboundFrameCounter]

theorem Received.Sound.ne_max {security : NwkSecurity} {received : Received}
    (h : received.Sound security) {source : Eui64} {counter : Nat}
    (hmem : (source, counter) ∈ received.handled) : counter ≠ 2 ^ 32 - 1 := by
  cases received with
  | ignored | gpdf | unsecured _ => cases hmem
  | secured frame sender =>
    obtain ⟨auxHeader, relayer, haux, hsource, hinbound⟩ := h
    obtain ⟨hmax, -⟩ := NwkSecurity.of_inboundNetworkKey_isSome hinbound
    simp only [Received.handled, frameCounterOf, haux, hsource, List.mem_singleton,
      Prod.mk.injEq] at hmem
    exact hmem.2 ▸ hmax

/-- A run guards the records. -/
theorem processAll_guarded (deliveries : List Delivery) (stack : ZigbeeStack) :
    Guarded (counterFloor stack.incoming) (processAll backend stack deliveries).1
      (counterFloor (processAll backend stack deliveries).2.incoming) := by
  induction deliveries generalizing stack with
  | nil => exact .idle fun _ => Nat.le_refl _
  | cons delivery deliveries ih =>
    have hstep := (receive_eq_checked backend delivery.env (delivery.meanwhile stack)
      delivery.frame).2.guarded
    change Guarded (counterFloor (delivery.meanwhile stack).incoming) _ _ at hstep
    rw [delivery.keeps] at hstep
    rw [processAll]
    dsimp only
    split
    next => exact hstep
    next _ stack' hprocess =>
      rw [← process802154DataFrame_nwkSecurity backend hprocess] at hstep
      exact hstep.trans (ih stack')

theorem processAll_ne_max (deliveries : List Delivery) (stack : ZigbeeStack) {source : Eui64}
    {counter : Nat} (hmem : (source, counter) ∈ (processAll backend stack deliveries).1) :
    counter ≠ 2 ^ 32 - 1 := by
  induction deliveries generalizing stack with
  | nil => cases hmem
  | cons delivery deliveries ih =>
    have hsound := (receive_eq_checked backend delivery.env (delivery.meanwhile stack)
      delivery.frame).2
    rw [processAll] at hmem
    dsimp only at hmem
    split at hmem
    next => exact hsound.ne_max hmem
    next _ stack' _ =>
      rcases List.mem_append.mp hmem with hmem | hmem
      · exact hsound.ne_max hmem
      · exact ih stack' hmem

/-- A counter on record is below the floor, so it stays while no floor falls. -/
theorem stored_le_of_counterFloor_le {incoming incoming' : FlatMap Eui64 UInt32} {source : Eui64}
    (h : counterFloor incoming source ≤ counterFloor incoming' source) {stored : UInt32}
    (hstored : incoming.get source = some stored) :
    ∃ stored', incoming'.get source = some stored' ∧ stored ≤ stored' := by
  unfold counterFloor at h
  rw [hstored] at h
  dsimp only at h
  split at h
  next => exact absurd h (Nat.not_succ_le_zero _)
  next stored' hstored' => exact ⟨stored', hstored', Nat.le_of_succ_le_succ h⟩

/-- Replay protection of the network layer.  In every run of data frames, whatever they are
and whatever the rest of the driver does in between:

* the counters of the secured frames that are handled or relayed are strictly increasing for
  each relaying device, and none is the last one;
* a data frame that is turned away leaves every counter on record as it was;
* no counter on record ever decreases. -/
theorem nwk_replay_protection :
    (∀ stack deliveries source,
      (countersOf source (processAll backend stack deliveries).1).Pairwise (· < ·) ∧
        2 ^ 32 - 1 ∉ countersOf source (processAll backend stack deliveries).1) ∧
    (∀ env dataFrame lqi rssi stack r stack',
      process802154DataFrame backend env dataFrame lqi rssi stack = .ok (r, stack') →
      (checked backend env stack dataFrame).handled = [] → stack'.incoming = stack.incoming) ∧
    ∀ stack deliveries source stored, stack.incoming.get source = some stored →
      ∃ stored', (processAll backend stack deliveries).2.incoming.get source = some stored' ∧
        stored ≤ stored' := by
  refine ⟨?_, ?_, ?_⟩
  · intro stack deliveries source
    refine ⟨(processAll_guarded backend deliveries stack).increasing source, ?_⟩
    intro hmem
    exact processAll_ne_max backend deliveries stack (mem_countersOf.mp hmem) rfl
  · intro env dataFrame lqi rssi stack r stack' hprocess hhandled
    have hsound := (receive_eq_checked backend env stack dataFrame).2
    rw [ZigbeeStack.incoming, process802154DataFrame_nwkSecurity backend hprocess]
    generalize checked backend env stack dataFrame = received at hsound hhandled ⊢
    cases received with
    | ignored | gpdf | unsecured _ => rfl
    | secured frame sender =>
      -- a frame that was let through has a counter
      obtain ⟨auxHeader, source, haux, hsource, -⟩ := hsound
      simp only [Received.handled, frameCounterOf, haux, hsource] at hhandled
      exact nomatch hhandled
  · intro stack deliveries source stored hstored
    exact stored_le_of_counterFloor_le ((processAll_guarded backend deliveries stack).mono source)
      hstored

end

end Ziggurat.Driver
