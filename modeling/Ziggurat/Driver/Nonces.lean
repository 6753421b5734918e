import Ziggurat.Driver.Events
import Ziggurat.Driver.Transmit
import Ziggurat.Lib.ReplayFilter

/-!
# Nonces

A frame is encrypted with a nonce that is made of our address and of a frame counter.  A key that
meets one counter twice protects neither of the two frames, so no counter may be used again.

The stack has two counters, one for the network key and one for all keys that are derived from
link keys.  `Step` has all the points at which they are read or written.  A frame of the network
layer is secured by the sender task in three steps, with the lock given up after each: the
auxiliary header is written, the counter is taken, the frame is encrypted.  A frame of the APS
layer is secured in one call.  Anything may happen in between that leaves the two counters alone.

`Securing` is a run of such steps.  It keeps a log of the encryptions, with the counter that is in
the auxiliary header of each encrypted frame.  `OnAir` is a run of the code itself, and
`OnAir.secured` says that it takes these steps and no others.  `nonces_never_reused` is the
result for the steps, and `frameCounters_increasing` is the result for the frames on the air.
-/

namespace Ziggurat

namespace ApsSecurity

variable {backend : CryptoBackend} {security security' : ApsSecurity}

theorem outgoingFrameCounter_beginJoin (security : ApsSecurity) (eui64 : Eui64) :
    (security.beginJoin eui64).2.outgoingFrameCounter = security.outgoingFrameCounter := by
  unfold beginJoin
  split
  next => rfl
  next =>
    dsimp only
    split
    next =>
      split
      next => rfl
      next =>
        unfold pruneIfEmpty
        split
        next =>
          split
          next => rfl
          next => rfl
        next => rfl
    next => rfl

theorem Decrypted.outgoingFrameCounter {source : Eui64} {counter : UInt32}
    {applied : Option AppliedKey} (h : Decrypted security source counter applied security') :
    security'.outgoingFrameCounter = security.outgoingFrameCounter := by
  cases h <;> rfl

theorem Verified.outgoingFrameCounter {eui64 : Eui64} {hash : Bytes} {o : Option Bool}
    (h : Verified backend security eui64 hash o security') :
    security'.outgoingFrameCounter = security.outgoingFrameCounter := by
  cases h <;> rfl

theorem call_counts {c : Call} {r : Return}
    (hcall : security.call backend c = .ok (r, security')) :
    Counts security.outgoingFrameCounter r.frameCounter security'.outgoingFrameCounter := by
  have hidle (h : security'.outgoingFrameCounter = security.outgoingFrameCounter) :
      Counts security.outgoingFrameCounter none security'.outgoingFrameCounter :=
    Nat.le_of_eq (congrArg UInt32.toNat h.symm)
  cases call_effect hcall with
  | decrypted _ hframe h =>
    rw [hframe]
    exact hidle h.outgoingFrameCounter
  | secured _ hcounts => exact hcounts
  | verified h => exact hidle h.outgoingFrameCounter
  | joined => exact hidle (outgoingFrameCounter_beginJoin ..)
  | issued | provisioned | restoredKey | restoredCounter => exact hidle rfl

end ApsSecurity

namespace Driver.Nonces

open Lib.ReplayFilter Lib.Stateful

/-! ## Steps -/

/-- The keys that share a counter. -/
inductive KeyClass where
  | network
  /-- The keys that are derived from link keys. -/
  | link
  deriving DecidableEq

/-- How far the sender task is with the frame that it secures. -/
inductive Sender where
  | idle
  /-- The frame has its auxiliary header. -/
  | prepared (frame : NwkFrame)
  /-- The header has its counter. -/
  | counted (frame : NwkFrame)

structure System where
  stack : ZigbeeStack
  sender : Sender

/-- The counters of the two classes. -/
def counter (stack : ZigbeeStack) : KeyClass → UInt32
  | .network => stack.nwkSecurity.primary.outgoingFrameCounter
  | .link => stack.apsSecurity.outgoingFrameCounter

section

variable (backend : CryptoBackend)

/-- One step of the system, and the encryption that it may be. -/
inductive Step : System → List (KeyClass × Nat) → System → Prop where
  | prepare {stack stack' : ZigbeeStack} {env : Env} {frame frame' : NwkFrame}
      (h : applyNwkAuxHeader env frame .networkKey stack = .ok (frame', stack')) :
      Step ⟨stack, .idle⟩ [] ⟨stack', .prepared frame'⟩
  | count {stack stack' : ZigbeeStack} {frame : NwkFrame} {auxHeader : NwkAuxHeader}
      {frameCounter : UInt32} (haux : frame.auxHeader = some auxHeader)
      (h : nextNwkFrameCounter stack = .ok (frameCounter, stack')) :
      Step ⟨stack, .prepared frame⟩ []
        ⟨stack', .counted { frame with auxHeader := some { auxHeader with frameCounter } }⟩
  | encrypt {stack : ZigbeeStack} {frame : NwkFrame} {encrypted : EncryptedNwkFrame}
      {auxHeader : NwkAuxHeader}
      (h : frame.encrypt backend stack.nwkSecurity.networkKey = .ok encrypted)
      (haux : encrypted.auxHeader = some auxHeader) :
      Step ⟨stack, .counted frame⟩ [(.network, auxHeader.frameCounter.toNat)] ⟨stack, .idle⟩
  | call {stack : ZigbeeStack} {sender : Sender} {c : ApsSecurity.Call} {r : ApsSecurity.Return}
      {apsSecurity : ApsSecurity} (h : stack.apsSecurity.call backend c = .ok (r, apsSecurity)) :
      Step ⟨stack, sender⟩ (r.frameCounter.toList.map fun counter => (.link, counter.toNat))
        ⟨{ stack with apsSecurity }, sender⟩
  /-- Anything else. -/
  | meanwhile {stack stack' : ZigbeeStack} {sender : Sender}
      (h : ∀ key, counter stack' key = counter stack key) :
      Step ⟨stack, sender⟩ [] ⟨stack', sender⟩

/-- Steps in any order, and the encryptions among them. -/
inductive Securing : System → List (KeyClass × Nat) → System → Prop where
  | start {system : System} : Securing system [] system
  | step {first system system' : System} {log entry : List (KeyClass × Nat)}
      (run : Securing first log system) (step : Step backend system entry system') :
      Securing first (log ++ entry) system'

end

/-! ## Counters -/

variable {backend : CryptoBackend}

/-- The lowest counter that the next encryption may have. -/
def floor (system : System) : KeyClass → Nat
  | .network =>
    match system.sender with
    | .counted frame => frame.auxHeader.elim 0 (·.frameCounter.toNat)
    | _ => (counter system.stack .network).toNat + 1
  | .link => (counter system.stack .link).toNat + 1

/-- The counter that the sender has taken was the last one. -/
def System.Sound (system : System) : Prop :=
  ∀ frame auxHeader, system.sender = .counted frame → frame.auxHeader = some auxHeader →
    auxHeader.frameCounter.toNat ≤ (counter system.stack .network).toNat

/-- The counter is advanced by one, and not past its end. -/
theorem nextNwkFrameCounter_counts {stack stack' : ZigbeeStack} {frameCounter : UInt32}
    (h : nextNwkFrameCounter stack = .ok (frameCounter, stack')) :
    frameCounter.toNat = (counter stack .network).toNat + 1 ∧
      counter stack' .network = frameCounter ∧ counter stack' .link = counter stack .link := by
  by_cases hroom : stack.nwkSecurity.primary.outgoingFrameCounter.toNat + 1 < 2 ^ 32
  · cases h.symm.trans (nextNwkFrameCounter_eq_ok hroom)
    refine ⟨?_, rfl, rfl⟩
    rw [UInt32.toNat_add]
    exact Nat.mod_eq_of_lt hroom
  · rw [nextNwkFrameCounter_eq_error hroom] at h
    cases h

theorem auxHeader_of_encrypt {frame : NwkFrame} {key : Key} {encrypted : EncryptedNwkFrame}
    (h : frame.encrypt backend key = .ok encrypted) : encrypted.auxHeader = frame.auxHeader := by
  obtain ⟨auxHeader, haux, h⟩ := Checked.bind_eq_ok.mp h
  obtain ⟨_, -, h⟩ := Checked.bind_eq_ok.mp h
  obtain ⟨_, -, h⟩ := Checked.bind_eq_ok.mp h
  obtain ⟨_, -, h⟩ := Checked.bind_eq_ok.mp h
  obtain ⟨_, -, h⟩ := Checked.bind_eq_ok.mp h
  cases h
  rfl

theorem Step.sound {system system' : System} {entry : List (KeyClass × Nat)}
    (h : Step backend system entry system') (hsound : system.Sound) : system'.Sound := by
  intro frame' auxHeader' hsender haux'
  cases h with
  | prepare => cases hsender
  | count haux h =>
    obtain ⟨-, hcounter, -⟩ := nextNwkFrameCounter_counts h
    cases hsender
    cases haux'
    rw [hcounter]
  | encrypt => cases hsender
  | call => exact hsound frame' auxHeader' hsender haux'
  | meanwhile h =>
    rw [h .network]
    exact hsound frame' auxHeader' hsender haux'

/-- Floors that do not depend on the part of the system that changes. -/
theorem floor_mono {stack stack' : ZigbeeStack} {sender : Sender}
    (h : ∀ key, (counter stack key).toNat ≤ (counter stack' key).toNat) (key : KeyClass) :
    floor ⟨stack, sender⟩ key ≤ floor ⟨stack', sender⟩ key := by
  cases key with
  | network =>
    cases sender with
    | counted frame => exact Nat.le_refl _
    | idle | prepared => exact Nat.succ_le_succ (h .network)
  | link => exact Nat.succ_le_succ (h .link)

/-- A step takes no counter, or one that was not taken before. -/
theorem Step.guarded {system system' : System} {entry : List (KeyClass × Nat)}
    (h : Step backend system entry system') (hsound : system.Sound) :
    Guarded (floor system) entry (floor system') := by
  cases h with
  | prepare h =>
    cases h
    exact .idle fun key => by cases key <;> exact Nat.le_refl _
  | count haux h =>
    obtain ⟨hnext, hcounter, hlink⟩ := nextNwkFrameCounter_counts h
    refine .idle fun key => ?_
    cases key with
    | network => exact Nat.le_of_eq hnext.symm
    | link => exact Nat.le_of_eq (congrArg (·.toNat + 1) hlink.symm)
  | @encrypt stack frame encrypted auxHeader h haux =>
    rw [auxHeader_of_encrypt h] at haux
    have hlast := hsound frame auxHeader rfl haux
    have hfloor : floor ⟨stack, .counted frame⟩ .network = auxHeader.frameCounter.toNat := by
      change frame.auxHeader.elim 0 _ = _
      rw [haux]
      rfl
    refine .take (fun key => ?_) (Nat.le_of_eq hfloor) (Nat.lt_succ_of_le hlast)
    cases key with
    | network => exact hfloor ▸ Nat.le_succ_of_le hlast
    | link => exact Nat.le_refl _
  | @call stack sender c r apsSecurity h =>
    have hcounts := ApsSecurity.call_counts h
    cases hr : r.frameCounter with
    | none =>
      rw [hr] at hcounts
      refine .idle (floor_mono fun key => ?_)
      cases key with
      | network => exact Nat.le_refl _
      | link => exact hcounts
    | some frameCounter =>
      rw [hr] at hcounts
      obtain ⟨hnext, hlast⟩ := hcounts
      refine .take (floor_mono fun key => ?_) (Nat.le_of_eq hnext.symm) ?_
      · cases key with
        | network => exact Nat.le_refl _
        | link =>
          change stack.apsSecurity.outgoingFrameCounter.toNat ≤
            apsSecurity.outgoingFrameCounter.toNat
          rw [hlast, hnext]
          exact Nat.le_succ _
      · change frameCounter.toNat < apsSecurity.outgoingFrameCounter.toNat + 1
        rw [hlast]
        exact Nat.lt_succ_self _
  | meanwhile h => exact .idle (floor_mono fun key => Nat.le_of_eq (congrArg _ (h key).symm))

theorem Securing.guarded {system system' : System} {log : List (KeyClass × Nat)}
    (h : Securing backend system log system') (hsound : system.Sound) :
    system'.Sound ∧ Guarded (floor system) log (floor system') := by
  induction h with
  | start => exact ⟨hsound, .idle fun _ => Nat.le_refl _⟩
  | step _ step ih =>
    obtain ⟨hsound, hguarded⟩ := ih
    exact ⟨step.sound hsound, hguarded.trans (step.guarded hsound)⟩

/-! ## Transmits -/

theorem Securing.trans {s t u : System} {log log' : List (KeyClass × Nat)}
    (h : Securing backend s log t) (h' : Securing backend t log' u) :
    Securing backend s (log ++ log') u := by
  induction h' with
  | start => exact (List.append_nil log).symm ▸ h
  | step _ step ih =>
    rw [← List.append_assoc]
    exact .step ih step

theorem Step.securing {system system' : System} {entry : List (KeyClass × Nat)}
    (h : Step backend system entry system') : Securing backend system entry system' :=
  .step .start h

/-- Code that leaves the counters alone. -/
def Idle {α : Type} (x : StackM α) : Prop := Steps (Keeps counter) x

theorem Securing.idle {α : Type} {x : StackM α} {system : System} {stack stack' : ZigbeeStack}
    {sender : Sender} {log : List (KeyClass × Nat)} {a : α} (hx : Idle x)
    (run : Securing backend system log ⟨stack, sender⟩) (h : x stack = .ok (a, stack')) :
    Securing backend system log ⟨stack', sender⟩ := by
  have hstep : Step backend ⟨stack, sender⟩ [] ⟨stack', sender⟩ :=
    .meanwhile fun key => congrFun (hx stack a stack' h) key
  exact List.append_nil log ▸ .step run hstep

theorem idle_liftNet {α : Type} (x : NetM α) : Idle (liftNet x) := by
  intro stack a stack' h
  obtain ⟨net, -, rfl⟩ := liftNet_eq_ok.mp h
  rfl

/-- The counter that is in the header of a frame. -/
def frameCounters : Frame → List (KeyClass × Nat)
  | .nwk frame .networkKey =>
    (frame.auxHeader.map fun header => (.network, header.frameCounter.toNat)).toList
  | _ => []

variable {env : Env}

theorem encryptNwkFrame_securing {stack stack' : ZigbeeStack} {frame frame' : NwkFrame}
    {encrypted : EncryptedNwkFrame}
    (h : encryptNwkFrame backend frame .networkKey stack = .ok ((encrypted, frame'), stack')) :
    Securing backend ⟨stack, .prepared frame⟩ (frameCounters (.nwk frame' .networkKey))
      ⟨stack', .idle⟩ := by
  obtain ⟨frameCounter, stack₁, hcount, h⟩ := bind_eq_ok.mp h
  obtain ⟨auxHeader, _, hlift, h⟩ := bind_eq_ok.mp h
  obtain ⟨haux, rfl⟩ := lift_eq_ok.mp hlift
  obtain ⟨_, _, hget, h⟩ := bind_eq_ok.mp h
  cases hget
  obtain ⟨_, _, hlift', h⟩ := bind_eq_ok.mp h
  obtain ⟨hencrypt, rfl⟩ := lift_eq_ok.mp hlift'
  cases h
  have hcounted : Step backend _ [] _ := .count (Checked.unwrap_eq_ok.mp haux) hcount
  exact hcounted.securing.trans (Step.encrypt hencrypt (auxHeader_of_encrypt hencrypt)).securing

/-- A frame is secured afresh, whatever an earlier attempt left in it. -/
theorem secure_securing {stack stack₁ stack₂ : ZigbeeStack} {frame frame₁ frame₂ : NwkFrame}
    {security : NwkSecurityMode} {encrypted : EncryptedNwkFrame}
    (hprepare : applyNwkAuxHeader env frame security stack = .ok (frame₁, stack₁))
    (hencrypt : encryptNwkFrame backend frame₁ security stack₁ =
      .ok ((encrypted, frame₂), stack₂)) :
    Securing backend ⟨stack, .idle⟩ (frameCounters (.nwk frame₂ security)) ⟨stack₂, .idle⟩ := by
  cases security with
  | networkKey =>
    exact (Step.prepare hprepare).securing.trans (encryptNwkFrame_securing hencrypt)
  | unsecured =>
    cases hprepare
    obtain ⟨_, _, hlift, h⟩ := bind_eq_ok.mp hencrypt
    obtain ⟨-, rfl⟩ := lift_eq_ok.mp hlift
    cases h
    exact .start

/-- A transmit encrypts its frame once, with the counter that it leaves in it. -/
theorem transmit_securing {stack stack' : ZigbeeStack} {frame : Frame} {kind : Transmit}
    {attempt : Attempt} {sent : Sent}
    (h : transmit backend env frame kind attempt stack = .ok (sent, stack')) :
    Securing backend ⟨stack, .idle⟩ (frameCounters sent.frame) ⟨stack', .idle⟩ := by
  have hraw {frame : Ieee802154Frame FrameBytes}
      (h : transmitRaw env frame attempt stack = .ok (sent, stack')) :
      Securing backend ⟨stack, .idle⟩ (frameCounters sent.frame) ⟨stack', .idle⟩ := by
    obtain ⟨_, _, hsend, h⟩ := bind_eq_ok.mp h
    cases h
    exact Securing.start.idle (idle_liftNet _) hsend
  cases frame with
  | raw frame =>
    cases kind with
    | unicast nextHop framePending => exact hraw h
    | broadcast => exact hraw h
  | nwk frame security =>
    cases kind with
    | unicast nextHop framePending =>
      obtain ⟨_, _, hprepare, h⟩ := bind_eq_ok.mp h
      obtain ⟨_, _, hencrypt, h⟩ := bind_eq_ok.mp h
      obtain ⟨_, _, hget, h⟩ := bind_eq_ok.mp h
      cases hget
      obtain ⟨_, _, hrecord, h⟩ := bind_eq_ok.mp h
      obtain ⟨_, _, htotal, h⟩ := bind_eq_ok.mp h
      obtain ⟨_, _, hsend, h⟩ := bind_eq_ok.mp h
      obtain ⟨_, _, hfailure, h⟩ := bind_eq_ok.mp h
      cases h
      exact ((((secure_securing hprepare hencrypt).idle (idle_liftNet _) hrecord).idle
        (idle_liftNet _) htotal).idle (idle_liftNet _) hsend).idle (idle_liftNet _) hfailure
    | broadcast =>
      obtain ⟨_, _, hprepare, h⟩ := bind_eq_ok.mp h
      obtain ⟨_, _, hencrypt, h⟩ := bind_eq_ok.mp h
      obtain ⟨_, _, hget, h⟩ := bind_eq_ok.mp h
      cases hget
      obtain ⟨_, _, htotal, h⟩ := bind_eq_ok.mp h
      obtain ⟨_, _, hsend, h⟩ := bind_eq_ok.mp h
      cases h
      exact ((secure_securing hprepare hencrypt).idle (idle_liftNet _) htotal).idle
        (idle_liftNet _) hsend

/-! ## Handlers -/

/-- The network key is not used, and the link keys are used in calls only. -/
structure Calls (backend : CryptoBackend) (stack stack' : ZigbeeStack) : Prop where
  network : counter stack' .network = counter stack .network
  link : ∃ calls, ApsSecurity.Run backend stack.apsSecurity calls stack'.apsSecurity

theorem run_trans {s t u : ApsSecurity}
    {calls calls' : List (ApsSecurity.Call × ApsSecurity.Return)}
    (h : ApsSecurity.Run backend s calls t) (h' : ApsSecurity.Run backend t calls' u) :
    ApsSecurity.Run backend s (calls ++ calls') u := by
  induction h with
  | nil => exact h'
  | cons hcall _ ih => exact .cons hcall (ih h')

instance : IsPreorder ZigbeeStack (Calls backend) where
  refl _ := ⟨rfl, [], .nil⟩
  trans _ _ _ h h' := by
    obtain ⟨calls, hcalls⟩ := h.link
    obtain ⟨calls', hcalls'⟩ := h'.link
    exact ⟨h'.network.trans h.network, calls ++ calls', run_trans hcalls hcalls'⟩

/-- A call of the APS layer and nothing else. -/
theorem calls_of_call {stack : ZigbeeStack} {α : Type} {f : α → ApsSecurity.Return} {a : α}
    {apsSecurity : ApsSecurity} {x : Checked (α × ApsSecurity)} (c : ApsSecurity.Call)
    (hcall : stack.apsSecurity.call backend c = Prod.map f id <$> x)
    (h : x = .ok (a, apsSecurity)) : Calls backend stack { stack with apsSecurity } := by
  refine ⟨rfl, [(c, f a)], .cons (hcall.trans ?_) .nil⟩
  rw [h]
  rfl

theorem calls_liftNet {α : Type} (x : NetM α) : Steps (Calls backend) (liftNet x) := by
  intro stack a stack' h
  obtain ⟨net, -, rfl⟩ := liftNet_eq_ok.mp h
  exact ⟨rfl, [], .nil⟩

theorem maybeNotifyApsFrameCounter_calls : Steps (Calls backend) maybeNotifyApsFrameCounter :=
  .bind_get fun _ => .ite
    (fun _ => .set_bind ⟨rfl, [], .nil⟩ (calls_liftNet _))
    (fun _ => Steps.pure _ _)

theorem apsAckPayload_calls {apsFrame : ApsDataFrame} {sourceEui64 : Option Eui64} :
    Steps (Calls backend) (apsAckPayload backend apsFrame sourceEui64) := by
  refine .ite (fun _ => ?_) (fun _ => .bind (.lift _) fun _ => .pure _)
  cases sourceEui64 with
  | none => exact .pure _
  | some sourceEui64 =>
    refine .bind_get fun stack => .bind_lift ?_
    rintro ⟨encrypted, apsSecurity⟩ hencrypt
    refine .set_bind (calls_of_call (.encryptAck _ _) rfl hencrypt) ?_
    cases encrypted with
    | none => exact .pure _
    | some encrypted =>
      exact .bind maybeNotifyApsFrameCounter_calls fun _ => .bind (.lift _) fun _ => .pure _

theorem handleApsAckRequest_calls {header : NwkHeader} {apsFrame : ApsDataFrame}
    {sourceEui64 : Option Eui64} :
    Steps (Calls backend) (handleApsAckRequest backend env header apsFrame sourceEui64) := by
  refine .bind apsAckPayload_calls fun payload => ?_
  cases payload with
  | none => exact .pure _
  | some payload => exact .bind (.lift _) fun _ => .bind (calls_liftNet _) fun _ => .pure _

theorem beginJoin_calls {ieee : Eui64} : Steps (Calls backend) (beginJoin ieee) := by
  refine .bind_get fun stack => ?_
  have hjoined : Calls backend stack
      { stack with apsSecurity := (stack.apsSecurity.beginJoin ieee).2 } :=
    ⟨rfl, [(.beginJoin ieee, _)], .cons rfl .nil⟩
  generalize stack.apsSecurity.beginJoin ieee = joined at hjoined
  obtain ⟨provisionalKey, apsSecurity⟩ := joined
  refine .set_bind hjoined ?_
  cases provisionalKey with
  | some key => exact calls_liftNet _
  | none => exact .pure _

theorem buildEncryptedNetworkKeyTransport_calls {destination : Eui64} {joinKind : JoinKind} :
    Steps (Calls backend)
      (buildEncryptedNetworkKeyTransport backend env destination joinKind) := by
  refine .bind (calls_liftNet _) fun counter => .bind_get fun stack => .bind_lift ?_
  intro linkKey _
  refine .bind_lift ?_
  rintro ⟨encrypted, apsSecurity⟩ hencrypt
  have hcalls := calls_of_call (.encryptCommandWithLinkKey _ _ _) rfl hencrypt
  exact .set_bind ⟨hcalls.network, hcalls.link⟩ (.pure _)

theorem sendNetworkKey_calls {nwk : Nwk} {eui64 : Eui64} {joinKind : JoinKind} :
    Steps (Calls backend) (sendNetworkKey backend env nwk eui64 joinKind) :=
  .bind buildEncryptedNetworkKeyTransport_calls fun _ => .bind (.lift _) fun _ =>
    .bind (.lift _) fun _ => .bind (calls_liftNet _) fun _ => .pure _

theorem sendTunneledNetworkKey_calls {routerNwk : Nwk} {eui64 : Eui64} {joinKind : JoinKind} :
    Steps (Calls backend) (sendTunneledNetworkKey backend env routerNwk eui64 joinKind) :=
  .bind buildEncryptedNetworkKeyTransport_calls fun _ => .bind (calls_liftNet _) fun _ =>
    .bind (.lift _) fun _ => .bind (.lift _) fun _ => .bind (.lift _) fun _ =>
      .bind (calls_liftNet _) fun _ => .pure _

theorem sendConfirmKey_calls {destination : Nwk} {eui64 : Eui64} {status : UInt8}
    {encrypted : Bool} :
    Steps (Calls backend) (sendConfirmKey backend env destination eui64 status encrypted) := by
  have hsend {payload : Bytes} : Steps (Calls backend) (do
      let _ ← liftNet (sendSecuredApsPayload env destination payload)) :=
    .bind (calls_liftNet _) fun _ => .pure _
  refine .bind (calls_liftNet _) fun counter => .ite (fun _ => ?_) fun _ => ?_
  · refine .bind_get fun stack => .bind_lift ?_
    rintro ⟨frame, apsSecurity⟩ hencrypt
    exact .set_bind (calls_of_call (.encryptCommand _ _ _) rfl hencrypt)
      (.bind (.lift _) fun _ => hsend)
  · exact .bind (.lift _) fun _ => hsend

theorem handleRequestKey_calls {header : NwkHeader} {commandFrame : ApsCommandFrame}
    {request : ApsRequestKeyCommandFrame} {apsSourceIeee : Option Eui64}
    {appliedKey : Option AppliedKey} :
    Steps (Calls backend)
      (handleRequestKey backend env header commandFrame request apsSourceIeee appliedKey) := by
  refine .ite (fun _ => ?_) (fun _ => .pure _)
  split
  next sourceIeee applied =>
    refine .bind .get fun _ => .ite (fun _ => ?_) (fun _ => .pure _)
    refine .bind_get fun stack => .bind_lift ?_
    rintro ⟨key, security⟩ hissue
    refine .set_bind (calls_of_call (.issueDeviceKey _ _) rfl hissue)
      (.bind (calls_liftNet _) fun counter => ?_)
    refine .bind_get fun stack => .bind_lift ?_
    rintro ⟨encrypted, apsSecurity⟩ hencrypt
    refine .set_bind (calls_of_call (.encryptCommandWithAppliedKey _ _ _ _) rfl hencrypt) ?_
    cases encrypted with
    | none => exact .pure _
    | some encrypted =>
      exact .bind (.lift _) fun _ => .bind (calls_liftNet _) fun _ => .pure _
  next => exact .pure _

theorem handleVerifyKey_calls {header : NwkHeader} {verify : ApsVerifyKeyCommandFrame} :
    Steps (Calls backend) (handleVerifyKey backend env header verify) := by
  refine .ite (fun _ => .bind .get fun _ => ?_) (fun _ => .pure _)
  refine .ite (fun _ => .bind_get fun stack => .bind_lift ?_) (fun _ => .pure _)
  rintro ⟨verified, security⟩ hverify
  refine .set_bind (calls_of_call (.verifyDeviceKey _ _) rfl hverify) ?_
  split
  next => exact sendConfirmKey_calls
  next =>
    exact .bind .get fun _ => .bind (.lift _) fun _ => .bind (calls_liftNet _) fun _ =>
      sendConfirmKey_calls
  next => exact sendConfirmKey_calls

theorem learnFromUpdate_calls {header : NwkHeader} {update : ApsUpdateDeviceCommandFrame}
    {deliver : StackM Unit} (h : Steps (Calls backend) deliver) :
    Steps (Calls backend) (learnFromUpdate env header update deliver) :=
  .bind (calls_liftNet _) fun _ => .bind h fun _ => calls_liftNet _

theorem handleUpdateDevice_calls {header : NwkHeader} {update : ApsUpdateDeviceCommandFrame}
    {apsEncrypted : Bool} :
    Steps (Calls backend) (handleUpdateDevice backend env header update apsEncrypted) := by
  have htunneled {joinKind : JoinKind} : Steps (Calls backend) (learnFromUpdate env header update
      (sendTunneledNetworkKey backend env header.source update.deviceAddress joinKind)) :=
    learnFromUpdate_calls sendTunneledNetworkKey_calls
  unfold handleUpdateDevice
  refine .bind .get fun _ => .ite (fun _ => ?_) (fun _ => .pure _)
  cases update.status with
  | standardDeviceUnsecuredJoin =>
    exact .bind (calls_liftNet _) fun _ => .bind .get fun _ =>
      .ite (fun _ => .bind beginJoin_calls fun _ => htunneled) (fun _ => .pure _)
  | standardDeviceTrustCenterRejoin =>
    exact .bind (calls_liftNet _) fun _ => .bind .get fun _ =>
      .ite (fun _ => htunneled) (fun _ => .pure _)
  | standardDeviceSecuredRejoin =>
    exact .bind (calls_liftNet _) fun _ => learnFromUpdate_calls (.pure _)
  | deviceLeft => exact .bind .get fun _ => calls_liftNet _

theorem handleApsCommandFrame_calls {header : NwkHeader} {commandFrame : ApsCommandFrame}
    {apsSourceIeee : Option Eui64} {appliedKey : Option AppliedKey} :
    Steps (Calls backend)
      (handleApsCommandFrame backend env header commandFrame apsSourceIeee appliedKey) := by
  refine .ite (fun _ => ?_) (fun _ => .pure _)
  split
  next => exact handleUpdateDevice_calls
  next => exact handleRequestKey_calls
  next => exact handleVerifyKey_calls
  next => exact .pure _

theorem receiveAps_calls {stack : ZigbeeStack} {header : NwkHeader} {payload : FrameBytes}
    {received : ApsReceived} {apsSecurity : ApsSecurity}
    (h : receiveAps backend stack header payload = .ok (received, apsSecurity)) :
    Calls backend stack { stack with apsSecurity } := by
  obtain ⟨parsed, -, h⟩ := Checked.bind_eq_ok.mp h
  split at h
  next =>
    cases h
    exact refl_of (Calls backend) stack
  next =>
    cases h
    exact refl_of (Calls backend) stack
  next =>
    unfold decryptApsDataFrame at h
    split at h
    next =>
      cases h
      exact refl_of (Calls backend) stack
    next =>
      obtain ⟨⟨decrypted, _⟩, hdecrypt, h⟩ := Checked.bind_eq_ok.mp h
      have hcalls := calls_of_call (.decryptData _ _ _) rfl hdecrypt
      cases decrypted <;> (cases h; exact hcalls)
  next =>
    cases h
    exact refl_of (Calls backend) stack
  next =>
    unfold decryptApsAckFrame at h
    split at h
    next =>
      cases h
      exact refl_of (Calls backend) stack
    next =>
      obtain ⟨⟨decrypted, _⟩, hdecrypt, h⟩ := Checked.bind_eq_ok.mp h
      have hcalls := calls_of_call (.decryptAck _ _ _) rfl hdecrypt
      cases decrypted <;> (cases h; exact hcalls)
  next =>
    cases h
    exact refl_of (Calls backend) stack
  next =>
    unfold decryptApsCommandFrame at h
    split at h
    next =>
      cases h
      exact refl_of (Calls backend) stack
    next =>
      obtain ⟨⟨decrypted, _⟩, hdecrypt, h⟩ := Checked.bind_eq_ok.mp h
      have hcalls := calls_of_call (.decryptCommand _ _ _) rfl hdecrypt
      cases decrypted <;> (cases h; exact hcalls)

theorem handleApsData_calls {header : NwkHeader} {apsFrame : ApsDataFrame}
    {sourceEui64 : Option Eui64} {lqi : UInt8} {rssi : Int8} :
    Steps (Calls backend) (handleApsData backend env header apsFrame sourceEui64 lqi rssi) := by
  refine .bind (calls_liftNet _) fun duplicate => .ite (fun _ => ?_) fun _ => ?_
  · exact .bind handleApsAckRequest_calls fun _ => .ite (fun _ => calls_liftNet _) fun _ => .pure _
  · exact .ite (fun _ => calls_liftNet _) fun _ => .pure _

theorem handleApsPayload_calls {header : NwkHeader} {payload : FrameBytes} {lqi : UInt8}
    {rssi : Int8} :
    Steps (Calls backend) (handleApsPayload backend env header payload lqi rssi) := by
  refine .bind_get fun stack => .bind_lift ?_
  rintro ⟨received, apsSecurity⟩ hreceive
  refine .set_bind (receiveAps_calls hreceive) ?_
  cases received with
  | dropped => exact .pure _
  | data frame source => exact handleApsData_calls
  | ack frame => exact calls_liftNet _
  | command frame applied => exact handleApsCommandFrame_calls
  | undecrypted source auxHeader => exact calls_liftNet _

theorem process802154DataFrame_calls {dataFrame : Ieee802154DataFrame FrameBytes} {lqi : UInt8}
    {rssi : Int8} :
    Steps (Calls backend) (process802154DataFrame backend env dataFrame lqi rssi) := by
  refine .bind_get fun stack => .bind_lift fun received _ => ?_
  cases received with
  | ignored => exact Steps.pure _ stack
  | gpdf => exact Steps.bind (calls_liftNet _) (fun _ => .pure _) stack
  | unsecured frame => exact Steps.bind (calls_liftNet _) (fun _ => .pure _) stack
  | secured frame sender =>
    have hnote : counter { stack with nwkSecurity := noteFrameCounter frame stack.nwkSecurity }
        .network = counter stack .network := by
      change (noteFrameCounter frame stack.nwkSecurity).primary.outgoingFrameCounter = _
      unfold noteFrameCounter
      split
      next => rfl
      next => split <;> rfl
    refine .set_bind ⟨hnote, [], .nil⟩ (.ite (fun _ => ?_) fun _ => ?_)
    · exact .bind (calls_liftNet _) fun _ => .pure _
    · exact .bind (calls_liftNet _) fun _ => .pure _

theorem process802154CommandFrame_calls {commandFrame : Ieee802154CommandFrame} :
    Steps (Calls backend) (process802154CommandFrame env commandFrame) := by
  refine .bind .get fun _ => .ite (fun _ => ?_) (fun _ => .pure _)
  split
  next =>
    refine .ite (fun _ => ?_) (fun _ => .pure _)
    unfold process802154AssociationRequest
    split
    next =>
      refine .bind .get fun _ => .ite (fun _ => .bind (calls_liftNet _) fun _ => .pure _)
        fun _ => .ite (fun _ => .bind (calls_liftNet _) fun _ => .pure _) fun _ => ?_
      exact .bind (calls_liftNet _) fun _ => .bind beginJoin_calls fun _ => calls_liftNet _
    next => exact .pure _
  next => exact calls_liftNet _
  next => exact .pure _

theorem runTasklet_calls {index : Nat} {verdict : Except DeliveryError Unit} :
    Steps (Calls backend) (runTasklet backend env index verdict) := by
  have hdeliver {nwk : Nwk} {eui64 : Eui64} {joinKind : JoinKind} :
      Steps (Calls backend) (deliverKey backend env nwk eui64 joinKind) := by
    refine .bind sendNetworkKey_calls fun sent => ?_
    cases sent with
    | none => exact .pure _
    | some keyTransport => exact calls_liftNet _
  refine .bind .get fun stack => ?_
  split
  next => exact .pure _
  next tasklet _ =>
    refine .bind (calls_liftNet _) fun _ => ?_
    cases tasklet with
    | runJoin eui64 shortAddress => exact .bind (calls_liftNet _) fun _ => calls_liftNet _
    | awaitResponse eui64 shortAddress response =>
      cases verdict with
      | ok => exact hdeliver
      | error => exact .pure _
    | deliverKeyAndAnnounce nwk eui64 joinKind => exact hdeliver
    | awaitTransport nwk eui64 keyTransport =>
      cases verdict with
      | ok => exact calls_liftNet _
      | error => exact .pure _

theorem handle_calls {event : Event} {stack stack' : ZigbeeStack}
    (hother : ∀ stack', event = .meanwhile stack' → Calls backend stack stack')
    (h : event.handle backend env stack = .ok ((), stack')) : Calls backend stack stack' := by
  cases event with
  | data dataFrame lqi rssi =>
    exact Steps.bind process802154DataFrame_calls (fun _ => .pure _) stack _ _ h
  | aps header payload lqi rssi => exact handleApsPayload_calls stack _ _ h
  | macCommand commandFrame => exact process802154CommandFrame_calls stack _ _ h
  | tasklet index verdict => exact runTasklet_calls stack _ _ h
  | conflict address source => exact calls_liftNet _ stack _ _ h
  | provisionalKey ieee key =>
    cases h
    exact ⟨rfl, [(.setProvisionalKey ieee key, .done)], .cons rfl .nil⟩
  | meanwhile =>
    cases h
    exact hother _ rfl

theorem Calls.securing {stack stack' : ZigbeeStack} (h : Calls backend stack stack')
    (sender : Sender) : ∃ log, Securing backend ⟨stack, sender⟩ log ⟨stack', sender⟩ ∧
      countersOf .network log = [] := by
  have hrun {s t : ApsSecurity} {calls : List (ApsSecurity.Call × ApsSecurity.Return)}
      (hcalls : ApsSecurity.Run backend s calls t) : ∃ log,
      Securing backend ⟨{ stack with apsSecurity := s }, sender⟩ log
        ⟨{ stack with apsSecurity := t }, sender⟩ ∧ countersOf .network log = [] := by
    induction hcalls with
    | nil => exact ⟨[], .start, rfl⟩
    | @cons s _ _ c r _ hcall _ ih =>
      obtain ⟨log, hlog, hnone⟩ := ih
      have hstep : Step backend ⟨{ stack with apsSecurity := s }, sender⟩ _ _ := .call hcall
      refine ⟨_, hstep.securing.trans hlog, ?_⟩
      rw [countersOf_append, hnone]
      cases r.frameCounter <;> rfl
  obtain ⟨calls, hcalls⟩ := h.link
  obtain ⟨log, hlog, hnone⟩ := hrun hcalls
  have hrest : Step backend ⟨{ stack with apsSecurity := stack'.apsSecurity }, sender⟩ []
      ⟨stack', sender⟩ := by
    refine .meanwhile fun key => ?_
    cases key with
    | network => exact h.network
    | link => rfl
  exact ⟨log, List.append_nil log ▸ .step hlog hrest, hnone⟩

theorem handlePacket_calls {psdu : Bytes} {lqi : UInt8} {rssi : Int8} :
    Steps (Calls backend) (handlePacket backend env psdu lqi rssi) := by
  refine .bind (.lift _) fun parsed => ?_
  split
  next => exact .pure _
  next => exact .pure _
  next =>
    refine .ite (fun _ => .pure _) fun _ => ?_
    split
    next =>
      refine .bind process802154DataFrame_calls fun received => ?_
      split
      next => exact .pure _
      next =>
        split
        next => exact .pure _
        next => exact handleApsPayload_calls
    next => exact process802154CommandFrame_calls
    next => exact .pure _

/-- The driver at work: packets, events and transmits in any order, with the frames that were
given to the radio. -/
inductive OnAir (backend : CryptoBackend) : ZigbeeStack → List Frame → ZigbeeStack → Prop where
  | start {stack : ZigbeeStack} : OnAir backend stack [] stack
  | packet {first stack stack' : ZigbeeStack} {frames : List Frame} {env : Env} {psdu : Bytes}
      {lqi : UInt8} {rssi : Int8} (run : OnAir backend first frames stack)
      (h : handlePacket backend env psdu lqi rssi stack = .ok ((), stack')) :
      OnAir backend first frames stack'
  | event {first stack stack' : ZigbeeStack} {frames : List Frame} {env : Env} {event : Event}
      (run : OnAir backend first frames stack)
      (hother : ∀ stack', event = .meanwhile stack' → Calls backend stack stack')
      (h : event.handle backend env stack = .ok ((), stack')) : OnAir backend first frames stack'
  | transmit {first stack stack' : ZigbeeStack} {frames : List Frame} {env : Env} {frame : Frame}
      {kind : Transmit} {attempt : Attempt} {sent : Sent} (run : OnAir backend first frames stack)
      (h : transmit backend env frame kind attempt stack = .ok (sent, stack')) :
      OnAir backend first (frames ++ [sent.frame]) stack'

/-- The network key was used for these frames and no others. -/
def Secured (backend : CryptoBackend) (stack : ZigbeeStack) (frames : List Frame)
    (stack' : ZigbeeStack) : Prop :=
  ∃ log, Securing backend ⟨stack, .idle⟩ log ⟨stack', .idle⟩ ∧
    countersOf .network log = countersOf .network (frames.flatMap frameCounters)

theorem Secured.calls {stack stack₁ stack₂ : ZigbeeStack} {frames : List Frame}
    (h : Secured backend stack frames stack₁) (hcalls : Calls backend stack₁ stack₂) :
    Secured backend stack frames stack₂ := by
  obtain ⟨log, hlog, hcounters⟩ := h
  obtain ⟨log', hlog', hnone⟩ := hcalls.securing .idle
  refine ⟨log ++ log', hlog.trans hlog', ?_⟩
  rw [countersOf_append, hnone, hcounters, List.append_nil]

/-- A handler secures frames of the APS layer only, and a transmit secures its own frame. -/
theorem OnAir.secured {stack stack' : ZigbeeStack} {frames : List Frame}
    (h : OnAir backend stack frames stack') : Secured backend stack frames stack' := by
  induction h with
  | start => exact ⟨[], .start, rfl⟩
  | packet _ h ih => exact ih.calls (handlePacket_calls _ _ _ h)
  | event _ hother h ih => exact ih.calls (handle_calls hother h)
  | transmit _ h ih =>
    obtain ⟨log, hlog, hcounters⟩ := ih
    refine ⟨_, hlog.trans (transmit_securing h), ?_⟩
    rw [countersOf_append, hcounters, List.flatMap_append, countersOf_append,
      List.flatMap_singleton]

/-! ## The result -/

/-- A transmit with a counter that is used up does not return. -/
theorem transmit_exhausted {stack : ZigbeeStack}
    (h : (counter stack .network).toNat = 2 ^ 32 - 1) (env : Env) (frame : NwkFrame)
    (kind : Transmit) (attempt : Attempt) :
    transmit backend env (.nwk frame .networkKey) kind attempt stack = .error .unwrap := by
  have hnext : nextNwkFrameCounter stack = .error .unwrap := by
    refine nextNwkFrameCounter_eq_error ?_
    change ¬ (counter stack .network).toNat + 1 < 2 ^ 32
    omega
  have hencrypt (frame : NwkFrame) :
      encryptNwkFrame backend frame .networkKey stack = .error .unwrap := bind_of_error hnext
  cases kind with
  | unicast nextHop framePending => exact (bind_of_ok rfl).trans (bind_of_error (hencrypt _))
  | broadcast => exact (bind_of_ok rfl).trans (bind_of_error (hencrypt _))

/-- No key is used twice with one counter, and no counter starts over. -/
theorem nonces_never_reused (backend : CryptoBackend) (stack : ZigbeeStack) (system : System)
    (log : List (KeyClass × Nat)) (run : Securing backend ⟨stack, .idle⟩ log system) :
    (∀ key, (countersOf key log).Nodup ∧ (countersOf key log).Pairwise (· < ·)) ∧
      ((counter system.stack .network).toNat = 2 ^ 32 - 1 → ∀ env frame kind attempt,
        transmit backend env (.nwk frame .networkKey) kind attempt system.stack =
          .error .unwrap) ∧
      ((counter system.stack .link).toNat = 2 ^ 32 - 1 → ∀ c r apsSecurity,
        system.stack.apsSecurity.call backend c = .ok (r, apsSecurity) →
          r.frameCounter = none) := by
  have hsound : System.Sound ⟨stack, .idle⟩ := by
    intro frame auxHeader hsender
    cases hsender
  obtain ⟨-, hguarded⟩ := run.guarded hsound
  refine ⟨fun key => ?_, fun hlast => transmit_exhausted hlast, ?_⟩
  · have hincreasing := hguarded.increasing key
    exact ⟨hincreasing.imp fun hlt => Nat.ne_of_lt hlt, hincreasing⟩
  · intro hlast c r apsSecurity hcall
    have hcounts := ApsSecurity.call_counts hcall
    cases hr : r.frameCounter with
    | none => rfl
    | some frameCounter =>
      rw [hr] at hcounts
      have hlt := frameCounter.toNat_lt
      have hnext : frameCounter.toNat = (counter system.stack .link).toNat + 1 := hcounts.1
      omega

namespace Example

/-- A router. -/
def stack : ZigbeeStack := .plain (.plain .router 1 1) 0

/-- A broadcast of its own, with a frame counter. -/
def broadcast (frameCounter : UInt32) : NwkFrame :=
  { nwkCommandFrame (.plain .router 1 1) 0xFFFC (.leave ⟨false, false, false⟩) with
    auxHeader := some { freshAuxHeader (.plain .router 1 1) stack.nwkSecurity with frameCounter } }

/-- The router with both of its counters. -/
def counting (network link : UInt32) : ZigbeeStack :=
  { stack with
    nwkSecurity.primary.outgoingFrameCounter := network
    apsSecurity.outgoingFrameCounter := link }

/-- One copy of the broadcast, of the frame as the copy before it left it. -/
theorem copy_securing (network link : UInt32)
    (h : nextNwkFrameCounter (counting network link) =
      .ok (network + 1, counting (network + 1) link)) :
    Securing SoftwareBackend ⟨counting network link, .idle⟩ [(.network, (network + 1).toNat)]
      ⟨counting (network + 1) link, .idle⟩ := by
  have hprepare := @Step.prepare SoftwareBackend (counting network link) _ (.plain .router 1 1)
    (broadcast network) (broadcast 0) rfl
  have hcount := @Step.count SoftwareBackend _ _ (broadcast 0) _ _ rfl h
  obtain ⟨ciphertext, hencrypt, -⟩ := @NwkFrame.encrypt_eq_ok SoftwareBackend
    (broadcast (network + 1)) _ ⟨[0x04, 0x00], by decide⟩ stack.nwkSecurity.networkKey rfl rfl
    rfl (Nat.zero_le _) (by decide)
  have hsecured := @Step.encrypt SoftwareBackend (counting (network + 1) link) _ _ _ hencrypt rfl
  exact (hprepare.securing.trans hcount.securing).trans hsecured.securing

end Example

open Nonces.Example in
/-- Two copies of a broadcast, and between them the client restores a counter. -/
theorem nonces_never_reused_copies : ∃ system log,
    Securing SoftwareBackend ⟨counting 0 0, .idle⟩ log system ∧
      log = [(KeyClass.network, 1), (KeyClass.network, 2)] ∧
      (countersOf .network log).Nodup := by
  have hrestore := @Step.call SoftwareBackend (counting 1 0) .idle (.restoreOutgoingFrameCounter 7)
    _ (counting 1 7).apsSecurity rfl
  have hrun := ((copy_securing 0 0 rfl).trans hrestore.securing).trans (copy_securing 1 7 rfl)
  exact ⟨_, _, hrun, rfl, ((nonces_never_reused _ _ _ _ hrun).1 .network).1⟩

/-- The counter rises with each of our frames, a frame that is sent again included.  So whichever
of the earlier ones a receiver has on record, the next one is no replay to it. -/
theorem frameCounters_increasing (backend : CryptoBackend) (stack stack' : ZigbeeStack)
    (frames : List Frame) (run : OnAir backend stack frames stack') :
    (countersOf .network (frames.flatMap frameCounters)).Pairwise (· < ·) ∧
      ∀ (earlier rest : List Nat) (c : UInt32) (sender : Eui64) (receiver : NwkSecurity),
        countersOf .network (frames.flatMap frameCounters) = earlier ++ c.toNat :: rest →
        (∀ stored, receiver.primary.incomingFrameCounterSet.get sender = some stored →
          stored ≤ counter stack .network ∨ stored.toNat ∈ earlier) →
        c.toNat ≠ 2 ^ 32 - 1 →
        receiver.inboundNetworkKey sender receiver.activeKeySeqNumber c =
          some receiver.primary.key := by
  obtain ⟨log, hlog, hcounters⟩ := run.secured
  have hsound : System.Sound ⟨stack, .idle⟩ := by
    intro frame auxHeader hsender
    cases hsender
  obtain ⟨-, hguarded⟩ := hlog.guarded hsound
  have hincreasing := hguarded.increasing .network
  rw [← hcounters]
  refine ⟨hincreasing, fun earlier rest c sender receiver hsplit hrecord hlast => ?_⟩
  have hfresh (stored : UInt32)
      (hstored : receiver.primary.incomingFrameCounterSet.get sender = some stored) :
      stored.toNat < c.toNat := by
    cases hrecord stored hstored with
    | inl hle =>
      have hmem : c.toNat ∈ countersOf .network log := by
        rw [hsplit]
        exact List.mem_append_right _ List.mem_cons_self
      exact Nat.lt_of_le_of_lt hle (hguarded.above (mem_countersOf.mp hmem))
    | inr hmem =>
      rw [hsplit] at hincreasing
      exact (List.pairwise_append.mp hincreasing).2.2 _ hmem _ List.mem_cons_self
  unfold NwkSecurity.inboundNetworkKey
  rw [if_neg (not_not.mpr rfl), if_neg hlast]
  split
  next => rfl
  next stored hstored => exact if_neg (Nat.not_le_of_lt (hfresh stored hstored))

open Nonces.Example in
/-- A broadcast, a packet that is not a frame, and the copy of the broadcast, which is taken by
a device that has the broadcast on record. -/
theorem frameCounters_increasing_copies : ∃ frames stack',
    OnAir SoftwareBackend stack frames stack' ∧
      countersOf .network (frames.flatMap frameCounters) = [1, 2] ∧
      (stack.nwkSecurity.noteInboundFrameCounter 1 1).inboundNetworkKey 1 0 2 =
        some stack.nwkSecurity.primary.key := by
  have hfirst := @OnAir.transmit SoftwareBackend stack _ _ _ (.plain .router 1 1)
    (.nwk (broadcast 0) .networkKey) .broadcast ⟨.ok .acked, false⟩ _ .start rfl
  have hpacket := @OnAir.packet SoftwareBackend _ _ _ _ (.plain .router 1 1) [] 0 0 hfirst rfl
  have hcopy := @OnAir.transmit SoftwareBackend _ _ _ _ (.plain .router 1 1)
    (.nwk (broadcast 1) .networkKey) .broadcast ⟨.ok .acked, false⟩ _ hpacket rfl
  refine ⟨_, _, hcopy, rfl, (frameCounters_increasing _ _ _ _ hcopy).2 [1] [] 2 1
    (stack.nwkSecurity.noteInboundFrameCounter 1 1) rfl (fun stored hstored => ?_) (by decide)⟩
  cases hstored
  exact .inr List.mem_cons_self

end Driver.Nonces

end Ziggurat
