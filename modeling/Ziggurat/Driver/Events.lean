import Ziggurat.Driver.Receive
import Ziggurat.Driver.Footprint
import Ziggurat.Driver.ReceiveSpec

/-!
# Events of the stack

The stack handles events, each under a lock of its own: the parts of a received packet, the steps
of the flows that deliver keys, and what the host does to the keys.  Each event has an
environment, with the clock and the draws of its moment.  Everything else that the driver does
(transmissions, timers, sends of the host) may happen in between, and is an event as well.
-/

namespace Ziggurat.Driver

open Lib.Stateful

inductive Event where
  /-- A data frame, up to the APS layer. -/
  | data (dataFrame : Ieee802154DataFrame FrameBytes) (lqi : UInt8) (rssi : Int8)
  /-- The payload of a frame for us. -/
  | aps (header : NwkHeader) (payload : FrameBytes) (lqi : UInt8) (rssi : Int8)
  | macCommand (commandFrame : Ieee802154CommandFrame)
  /-- The runner polls a flow. -/
  | tasklet (index : Nat) (verdict : Except DeliveryError Unit)
  /-- An address conflict comes to our attention. -/
  | conflict (address : Nwk) (source : AddrConflictSource)
  /-- `set_provisional_key`. -/
  | provisionalKey (ieee : Eui64) (key : Key)
  /-- Anything else. -/
  | meanwhile (stack : ZigbeeStack)

section

variable (backend : CryptoBackend)

/-- The handling of an event. -/
def Event.handle (env : Env) : Event → StackM Unit
  | .data dataFrame lqi rssi => do
    let _ ← process802154DataFrame backend env dataFrame lqi rssi
  | .aps header payload lqi rssi => handleApsPayload backend env header payload lqi rssi
  | .macCommand commandFrame => process802154CommandFrame env commandFrame
  | .tasklet index verdict => runTasklet backend env index verdict
  | .conflict address source => liftNet (handleAddressConflict env address source)
  | .provisionalKey ieee key => modify fun stack =>
      { stack with apsSecurity := stack.apsSecurity.setProvisionalKey ieee key }
  | .meanwhile stack => set stack

end

end Ziggurat.Driver
