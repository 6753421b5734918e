import Ziggurat.Aps.FrameSpec
import Ziggurat.FlatMap

/-!
# APS security

`aps/security.rs`: the link keys shared with other devices, the outgoing frame counter
of all frames secured with them, and the incoming counter of each device.

A device with no key of its own shares the key that a configured seed issues to it, or
the well-known key.  An inbound frame may be secured with the device's key or still with
the well-known one, so both are tried, and only a frame under the device's own key is
checked for replay.
-/

namespace Ziggurat

inductive TclkFlavor where
  | zStack
  | ezsp
  deriving DecidableEq, Repr

/-- A seed that issues a key to every device. -/
structure TclkSeed where
  seed : Key
  flavor : TclkFlavor
  deriving DecidableEq, Repr

inductive KeyAttributes where
  | provisional
  | unverified
  | verified
  deriving DecidableEq, Repr

structure DeviceLinkKey where
  key : Key
  attributes : KeyAttributes
  deriving DecidableEq, Repr

/-- Which key an inbound frame was secured with. -/
inductive AppliedKey where
  | network
  | device
  | global
  deriving DecidableEq, Repr

structure DeviceState where
  key : Option DeviceLinkKey := none
  pendingKey : Option Key := none
  incomingFrameCounter : Option UInt32 := none
  deriving DecidableEq, Repr

structure ApsSecurity where
  globalLinkKey : Key
  localEui64 : Eui64
  devices : FlatMap Eui64 DeviceState
  tclkSeed : Option TclkSeed
  outgoingFrameCounter : UInt32

section

variable (backend : CryptoBackend)

def TclkSeed.derive (seed : TclkSeed) (eui64 : Eui64) : Checked Key :=
  match seed.flavor with
  | .zStack => .ok (zstackTclk seed.seed eui64 0)
  | .ezsp => ezspTclk backend seed.seed eui64

namespace ApsSecurity

def new (globalLinkKey : Key) (localEui64 : Eui64) (tclkSeed : Option TclkSeed) : ApsSecurity where
  globalLinkKey := globalLinkKey
  localEui64 := localEui64
  devices := .new
  tclkSeed := tclkSeed
  outgoingFrameCounter := 0

/-! ## Keys -/

/-- `devices.entry(eui64).or_default()`. -/
def entry (security : ApsSecurity) (eui64 : Eui64) : DeviceState :=
  (security.devices.get eui64).getD {}

/-- Write back through the reference that `entry` or `get_mut` handed out. -/
def setEntry (security : ApsSecurity) (eui64 : Eui64) (entry : DeviceState) : ApsSecurity :=
  { security with devices := security.devices.insert eui64 entry }

/-- The unique link key on record for a device. -/
def deviceKey (security : ApsSecurity) (eui64 : Eui64) : Option DeviceLinkKey :=
  (security.devices.get eui64).bind DeviceState.key

/-- Drop an entry that holds nothing. -/
def pruneIfEmpty (security : ApsSecurity) (eui64 : Eui64) : ApsSecurity :=
  match security.devices.get eui64 with
  | some entry =>
    if entry.key.isNone ∧ entry.pendingKey.isNone ∧ entry.incomingFrameCounter.isNone then
      { security with devices := security.devices.remove eui64 }
    else security
  | none => security

/-- A key that the client persisted. -/
def restoreDeviceKey (security : ApsSecurity) (eui64 : Eui64) (key : Key) : ApsSecurity :=
  security.setEntry eui64 { security.entry eui64 with key := some ⟨key, .verified⟩ }

/-- An incoming counter that the client persisted. -/
def restoreIncomingFrameCounter (security : ApsSecurity) (eui64 : Eui64) (counter : UInt32) :
    ApsSecurity :=
  security.setEntry eui64 { security.entry eui64 with incomingFrameCounter := some counter }

/-- The outgoing counter that the client persisted.  It never moves backwards. -/
def restoreOutgoingFrameCounter (security : ApsSecurity) (counter : UInt32) : ApsSecurity :=
  { security with outgoingFrameCounter := max security.outgoingFrameCounter counter }

/-- Register a key that was provisioned out of band for a device that will join. -/
def setProvisionalKey (security : ApsSecurity) (eui64 : Eui64) (key : Key) : ApsSecurity :=
  security.setEntry eui64 { security.entry eui64 with key := some ⟨key, .provisional⟩ }

/-- A device joins fresh: only a provisional key survives, and is returned for the client
to persist. -/
def beginJoin (security : ApsSecurity) (eui64 : Eui64) : Option Key × ApsSecurity :=
  match security.devices.get eui64 with
  | none => (none, security)
  | some entry =>
    let entry := { entry with pendingKey := none }
    match entry.key with
    | some linkKey =>
      if linkKey.attributes = .provisional then
        (some linkKey.key, security.setEntry eui64 entry)
      else (none, (security.setEntry eui64 { entry with key := none }).pruneIfEmpty eui64)
    | none => (none, security.setEntry eui64 entry)

/-- Whether a device shares a key other than the well-known one.  A seed gives every
device one. -/
def hasUniqueLinkKey (security : ApsSecurity) (eui64 : Eui64) : Bool :=
  (security.deviceKey eui64).isSome || security.tclkSeed.isSome

/-- Issue a key that is pending until the device verifies it.  The key in use stays. -/
def issueDeviceKey (security : ApsSecurity) (eui64 : Eui64) (freshKey : Key) :
    Checked (Key × ApsSecurity) := do
  let key ← match security.tclkSeed with
    | some seed => seed.derive backend eui64
    | none => .ok freshKey
  return (key, security.setEntry eui64 { security.entry eui64 with pendingKey := some key })

/-- The key of a device with no unique key on record. -/
def unkeyedLinkKey (security : ApsSecurity) (eui64 : Eui64) : Checked Key :=
  match security.tclkSeed with
  | some seed => seed.derive backend eui64
  | none => .ok security.globalLinkKey

/-- The link key currently shared with a device. -/
def deviceLinkKey (security : ApsSecurity) (eui64 : Eui64) : Checked Key :=
  match security.deviceKey eui64 with
  | some linkKey => .ok linkKey.key
  | none => security.unkeyedLinkKey backend eui64

/-- The key of a factory-new joiner: it never holds one that a seed issued. -/
def joinLinkKey (security : ApsSecurity) (eui64 : Eui64) : Key :=
  match security.deviceKey eui64 with
  | some linkKey => linkKey.key
  | none => security.globalLinkKey

/-- Check the hash that proves possession of a key: of the pending key, which then becomes
the key in use, and else of the key in use.  `none` if there is no key to check. -/
def verifyDeviceKey (security : ApsSecurity) (eui64 : Eui64) (hash : Bytes) :
    Checked (Option Bool × ApsSecurity) :=
  match security.devices.get eui64 with
  | none => .ok (none, security)
  | some entry =>
    match entry.pendingKey, entry.key with
    | some pending, _ => do
      if (← verifyKeyHash backend pending) = hash then
        return (some true, security.setEntry eui64
          { entry with key := some ⟨pending, .verified⟩, pendingKey := none })
      else return (some false, security)
    | none, none => .ok (none, security)
    | none, some linkKey => do
      if (← verifyKeyHash backend linkKey.key) = hash then
        return (some true, security.setEntry eui64
          { entry with key := some { linkKey with attributes := .verified } })
      else return (some false, security)

/-- The key for outgoing data and acknowledgements.  A key that the device has not
verified may not encrypt. -/
def dataLinkKey (security : ApsSecurity) (eui64 : Eui64) : Checked (Option Key) :=
  match security.deviceKey eui64 with
  | some entry => .ok (if entry.attributes = .unverified then none else some entry.key)
  | none => some <$> security.unkeyedLinkKey backend eui64

/-- The key that a key identifier selects.  The network key is not derived from a link
key. -/
def selectKey (linkKey : Key) (keyId : NwkSecurityHeaderKeyId) : Checked (Option Key) :=
  match keyId with
  | .keyTransportKey => do return some (Key.ofBytes (← keyedHash backend linkKey [0x00]))
  | .keyLoadKey => do return some (Key.ofBytes (← keyedHash backend linkKey [0x02]))
  | .dataKey => .ok (some linkKey)
  | .networkKey => .ok none

/-! ## Outgoing frames -/

/-- Advance the outgoing frame counter.  A wrap would use a nonce again. -/
def nextOutgoingFrameCounter (security : ApsSecurity) : Checked (UInt32 × ApsSecurity) := do
  let counter := security.outgoingFrameCounter
  Checked.ensure (counter.toNat + 1 < 2 ^ 32) .unwrap
  return (counter + 1, { security with outgoingFrameCounter := counter + 1 })

/-- The auxiliary header of the next outgoing frame. -/
def nextAuxHeader (security : ApsSecurity) (keyId : NwkSecurityHeaderKeyId) :
    Checked (ApsAuxHeader × ApsSecurity) := do
  let (frameCounter, security) ← security.nextOutgoingFrameCounter
  return ({ securityControl :=
              { securityLevel := .noSecurity, keyId, extendedNonce := true,
                requireVerifiedFrameCounter := false }
            frameCounter
            extendedSource := some security.localEui64
            keySequenceNumber := none },
    security)

/-- `encrypt_command_with_link_key`: secure a command with a derivative of the key given. -/
def encryptCommandWithLinkKey (security : ApsSecurity) (linkKey : Key)
    (keyId : NwkSecurityHeaderKeyId) (command : ApsCommandFrame) :
    Checked (EncryptedApsCommandFrame × ApsSecurity) := do
  let key ← Checked.expect
    "APS commands are encrypted with link key classes, not the network key"
    (← selectKey backend linkKey keyId)
  let (auxHeader, security) ← security.nextAuxHeader keyId
  return (← command.encrypt backend key auxHeader, security)

/-- `encrypt_command`: secure a command with the key in use of a device. -/
def encryptCommand (security : ApsSecurity) (destination : Eui64)
    (keyId : NwkSecurityHeaderKeyId) (command : ApsCommandFrame) :
    Checked (EncryptedApsCommandFrame × ApsSecurity) := do
  security.encryptCommandWithLinkKey backend (← security.deviceLinkKey backend destination) keyId
    command

/-- `encrypt_command_with_applied_key`: secure a reply with the key of the request.  The
network key cannot secure one. -/
def encryptCommandWithAppliedKey (security : ApsSecurity) (source : Eui64) (applied : AppliedKey)
    (keyId : NwkSecurityHeaderKeyId) (command : ApsCommandFrame) :
    Checked (Option EncryptedApsCommandFrame × ApsSecurity) :=
  match applied with
  | .network => .ok (none, security)
  | .device => do
    let (frame, security) ← security.encryptCommand backend source keyId command
    return (some frame, security)
  | .global => do
    let (frame, security) ←
      security.encryptCommandWithLinkKey backend security.globalLinkKey keyId command
    return (some frame, security)

/-- `encrypt_data`: secure a data frame with the key shared with a device. -/
def encryptData (security : ApsSecurity) (destination : Eui64) (frame : ApsDataFrame) :
    Checked (Option EncryptedApsDataFrame × ApsSecurity) := do
  match ← security.dataLinkKey backend destination with
  | none => return (none, security)
  | some key =>
    let (auxHeader, security) ← security.nextAuxHeader .dataKey
    return (some (← frame.encrypt backend key auxHeader), security)

/-- `encrypt_ack`: secure an acknowledgement, likewise. -/
def encryptAck (security : ApsSecurity) (destination : Eui64) (ack : ApsAckFrame) :
    Checked (Option EncryptedApsAckFrame × ApsSecurity) := do
  match ← security.dataLinkKey backend destination with
  | none => return (none, security)
  | some key =>
    let (auxHeader, security) ← security.nextAuxHeader .dataKey
    return (some (← ack.encrypt backend key auxHeader), security)

/-! ## Inbound frames -/

/-- The first link key whose derivative decrypts a frame. -/
def firstKey {α : Type} (keyId : NwkSecurityHeaderKeyId) (decrypt : Key → Checked (Option α)) :
    List Key → Checked (Option (Key × α))
  | [] => .ok none
  | linkKey :: linkKeys => do
    let key ← Checked.expect "NetworkKey is handled above" (← selectKey backend linkKey keyId)
    match ← decrypt key with
    | some frame => return some (linkKey, frame)
    | none => firstKey keyId decrypt linkKeys

/-- `decrypt_frame`: try the keys that a frame may be secured with. -/
def decryptFrame {α : Type} (security : ApsSecurity) (source : Eui64) (auxHeader : ApsAuxHeader)
    (networkKey : Key) (decrypt : Key → Checked (Option α)) :
    Checked (Option (α × AppliedKey) × ApsSecurity) := do
  let keyId := auxHeader.securityControl.keyId
  if auxHeader.frameCounter.toNat = 2 ^ 32 - 1 then return (none, security)
  else if keyId = .networkKey then
    return ((← decrypt networkKey).map (·, .network), security)
  else do
    let deviceLinkKey ← security.deviceLinkKey backend source
    let candidateKeys :=
      if deviceLinkKey ≠ security.globalLinkKey then [deviceLinkKey, security.globalLinkKey]
      else [deviceLinkKey]
    match ← firstKey backend keyId decrypt candidateKeys with
    | none => return (none, security)
    | some (linkKey, frame) =>
      if linkKey = security.globalLinkKey then return (some (frame, .global), security)
      else
        let entry := security.entry source
        if entry.incomingFrameCounter.any (auxHeader.frameCounter < ·) then
          return (none, security)
        else do
          Checked.ensure (auxHeader.frameCounter.toNat + 1 < 2 ^ 32) .overflow
          return (some (frame, .device), security.setEntry source
            { entry with incomingFrameCounter := some (auxHeader.frameCounter + 1) })

def decryptCommand (security : ApsSecurity) (source : Eui64) (frame : EncryptedApsCommandFrame)
    (networkKey : Key) : Checked (Option (ApsCommandFrame × AppliedKey) × ApsSecurity) :=
  security.decryptFrame backend source frame.auxHeader networkKey
    (fun key => (frame.decrypt backend key).toOption)

def decryptData (security : ApsSecurity) (source : Eui64) (frame : EncryptedApsDataFrame)
    (networkKey : Key) : Checked (Option (ApsDataFrame × AppliedKey) × ApsSecurity) :=
  security.decryptFrame backend source frame.auxHeader networkKey
    (fun key => (frame.decrypt backend key source).toOption)

def decryptAck (security : ApsSecurity) (source : Eui64) (frame : EncryptedApsAckFrame)
    (networkKey : Key) : Checked (Option (ApsAckFrame × AppliedKey) × ApsSecurity) :=
  security.decryptFrame backend source frame.auxHeader networkKey
    (fun key => (frame.decrypt backend key source).toOption)

end ApsSecurity

end

end Ziggurat
