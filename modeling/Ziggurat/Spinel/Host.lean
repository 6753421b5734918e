import Ziggurat.Lib.Channel
import Ziggurat.Spinel.Stream

/-!
# The channels of the host

A response goes to the request that waits for it, by a channel of its own.  A property update or a
reset goes with `try_send` to a channel with a bound, which drops what does not fit, so that what
its receiver gets also depends on when it takes items out.

`run_route` says how much does.  However the stream is cut, and whenever receivers take items: the
requests end as if the segments were decoded and routed in order, and a receiver gets some of what
was routed to it, in order, and all of it if there was room for that.
-/

namespace Ziggurat

/-- The channels with a bound. -/
inductive SpinelReceiver where
  | propertyUpdate (propertyId : SpinelPropertyId)
  | reset
  deriving DecidableEq

/-- The channel of an item, unless it is the one of a request. -/
def SpinelDelivery.receiver : SpinelDelivery → Option SpinelReceiver
  | .response _ _ => none
  | .propertyUpdate propertyId _ => some (.propertyUpdate propertyId)
  | .reset _ => some .reset

/-- The protocol, the responses that requests got, and the other channels. -/
structure SpinelHost (capacity : SpinelReceiver → Nat) where
  protocol : SpinelProtocol
  responses : List SpinelDelivery
  inboxes : ∀ receiver, Lib.Inbox SpinelDelivery (capacity receiver)

namespace SpinelHost

variable {capacity : SpinelReceiver → Nat} {host host₁ host₂ : SpinelHost capacity}

/-- Nothing was sent yet. -/
def start (protocol : SpinelProtocol) : SpinelHost capacity := ⟨protocol, [], fun _ => .empty⟩

def send (host : SpinelHost capacity) (delivery : SpinelDelivery) : SpinelHost capacity :=
  match delivery.receiver with
  | none => { host with responses := host.responses ++ [delivery] }
  | some receiver =>
    { host with
      inboxes := Function.update host.inboxes receiver
        ((host.inboxes receiver).offer delivery) }

/-- The reader gets a piece of the stream, or a receiver takes an item. -/
inductive Event where
  | bytes (chunk : Bytes)
  | recv (receiver : SpinelReceiver)

def Event.chunk : Event → Option Bytes
  | .bytes chunk => some chunk
  | .recv _ => none

variable (crcKermit : Bytes → UInt16)

def step (host : SpinelHost capacity) : Event → SpinelHost capacity
  | .bytes chunk =>
    let handled := host.protocol.handleInboundBytes crcKermit chunk
    handled.2.foldl send { host with protocol := handled.1 }
  | .recv receiver =>
    { host with
      inboxes := Function.update host.inboxes receiver (host.inboxes receiver).take }

def run (host : SpinelHost capacity) (events : List Event) : SpinelHost capacity :=
  events.foldl (step crcKermit) host

/-- What became of the items that were sent between two states. -/
structure Sent (host host' : SpinelHost capacity) (deliveries : List SpinelDelivery) : Prop where
  responses : host'.responses = host.responses ++ deliveries.filter (·.receiver = none)
  inboxes : ∀ receiver, (host.inboxes receiver).Admits (host'.inboxes receiver)
    (deliveries.filter (·.receiver = some receiver))

theorem Sent.trans {deliveries deliveries' : List SpinelDelivery} (h : Sent host host₁ deliveries)
    (h' : Sent host₁ host₂ deliveries') : Sent host host₂ (deliveries ++ deliveries') where
  responses := by rw [h'.responses, h.responses, List.filter_append, List.append_assoc]
  inboxes receiver := by
    rw [List.filter_append]
    exact (h.inboxes receiver).trans (h'.inboxes receiver)

theorem sent_send (host : SpinelHost capacity) (delivery : SpinelDelivery) :
    Sent host (host.send delivery) [delivery] := by
  unfold send
  cases hreceiver : delivery.receiver with
  | none =>
    refine ⟨by simp [hreceiver], fun receiver => ?_⟩
    rw [List.filter_cons_of_neg (by simp [hreceiver])]
    exact .of_items rfl
  | some own =>
    refine ⟨by simp [hreceiver], fun receiver => ?_⟩
    dsimp only
    by_cases heq : receiver = own
    · subst heq
      rw [List.filter_cons_of_pos (by simp [hreceiver]), Function.update_self]
      exact Lib.Inbox.admits_offer _ _
    · rw [List.filter_cons_of_neg (by simp [hreceiver, Ne.symm heq]),
        Function.update_of_ne heq]
      exact .of_items rfl

theorem sent_foldl (deliveries : List SpinelDelivery) (host : SpinelHost capacity) :
    Sent host (deliveries.foldl send host) deliveries ∧
      (deliveries.foldl send host).protocol = host.protocol := by
  induction deliveries generalizing host with
  | nil => exact ⟨⟨(List.append_nil _).symm, fun _ => .of_items rfl⟩, rfl⟩
  | cons delivery deliveries ih =>
    obtain ⟨hsent, hprotocol⟩ := ih (host.send delivery)
    refine ⟨(sent_send host delivery).trans hsent, hprotocol.trans ?_⟩
    unfold send
    split
    next => rfl
    next => rfl

theorem sent_recv (host : SpinelHost capacity) (receiver : SpinelReceiver) :
    Sent host (host.step crcKermit (.recv receiver)) [] := by
  refine ⟨(List.append_nil _).symm, fun other => .of_items ?_⟩
  unfold step
  dsimp only
  by_cases heq : other = receiver
  · subst heq
    rw [Function.update_self, Lib.Inbox.items_take]
  · rw [Function.update_of_ne heq]

/-- Over a run, what is sent is what the pieces have, and the turns of receivers change nothing. -/
theorem sent_run (events : List Event) (host : SpinelHost capacity) :
    let handled := host.protocol.handleChunks crcKermit (events.filterMap Event.chunk)
    Sent host (host.run crcKermit events) handled.2 ∧
      (host.run crcKermit events).protocol = handled.1 := by
  induction events generalizing host with
  | nil => exact sent_foldl [] host
  | cons event events ih =>
    obtain ⟨hsent, hprotocol⟩ := ih (host.step crcKermit event)
    cases event with
    | bytes chunk =>
      obtain ⟨hchunk, hsame⟩ := sent_foldl (host.protocol.handleInboundBytes crcKermit chunk).2
        { host with protocol := (host.protocol.handleInboundBytes crcKermit chunk).1 }
      rw [step, hsame] at hsent hprotocol
      exact ⟨Sent.trans ⟨hchunk.responses, hchunk.inboxes⟩ hsent, hprotocol⟩
    | recv receiver => exact ⟨(sent_recv crcKermit host receiver).trans hsent, hprotocol⟩

/-- The requests of the host depend on the stream alone.  A receiver gets what the stream has for
it, in order, but for what did not fit its channel when it came. -/
theorem run_route (events : List Event) (protocol : SpinelProtocol)
    (hflag : HdlcSpecial.flag.byte ∉ protocol.buffer)
    (hruns : ∀ run ∈ protocol.runs (events.filterMap Event.chunk).flatten,
      run.length ≤ maxHdlcBufferSize) :
    let routed := protocol.route ((protocol.runs
      (events.filterMap Event.chunk).flatten).dropLast.filterMap (decodeSegment crcKermit))
    let host : SpinelHost capacity := (start protocol).run crcKermit events
    (∃ bytes, host.protocol = routed.1.withBytes bytes) ∧
      host.responses = routed.2.filter (·.receiver = none) ∧
      ∀ receiver, (host.inboxes receiver).items.Sublist
          (routed.2.filter (·.receiver = some receiver)) ∧
        ((routed.2.filter (·.receiver = some receiver)).length ≤ capacity receiver →
          (host.inboxes receiver).items = routed.2.filter (·.receiver = some receiver)) := by
  intro routed host
  obtain ⟨hrouted, bytes, hbytes⟩ :=
    SpinelProtocol.handleChunks_route crcKermit _ protocol hflag hruns
  obtain ⟨hsent, hprotocol⟩ := sent_run crcKermit events (@start capacity protocol)
  rw [show (@start capacity protocol).protocol = protocol from rfl, hrouted] at hsent
  refine ⟨⟨bytes, hprotocol.trans hbytes⟩, hsent.responses, fun receiver => ?_⟩
  obtain ⟨kept, hitems, hkept, hall⟩ := hsent.inboxes receiver
  rw [show (host.inboxes receiver).items = kept from hitems]
  exact ⟨hkept, fun hroom => hall ((Nat.zero_add _).trans_le hroom)⟩

end SpinelHost

namespace Example

/-- The channels of `SpinelPhy::new`. -/
def phyCapacity : SpinelReceiver → Nat
  | .propertyUpdate propertyId => if propertyId = 113 then 64 else 8
  | .reset => 8

/-- A host that waits for a response, for received frames and for resets. -/
def waitingHost : SpinelProtocol where
  buffer := []
  ignoringUntilNextFlag := true
  nextTid := 2
  pendingFrames := Function.update (fun _ => none) 1 (some 9)
  propertyUpdateReceivers := (· = 113)
  resetNotificationReceiver := true

/-- The response in two pieces, a received frame, and a reset. -/
def arrivals : List SpinelHost.Event :=
  [.bytes [0x7E, 0x81, 0x06], .bytes [0x01, 0x04, 0x03, 0xDB, 0x0A, 0x7E, 0x80, 0x06, 0x71],
    .recv .reset, .bytes [0x01, 0x02, 0x76, 0xEE, 0x7E, 0x80, 0x06, 0x00, 0x70, 0xEE, 0x74, 0x7E],
    .recv .reset]

end Example

open Example in
theorem SpinelHost.run_route_arrivals :
    let host : SpinelHost phyCapacity := (start waitingHost).run crc arrivals
    host.responses = [.response 9 ⟨⟨0b10, 0, 1⟩, .propValueIs, [0x01, 0x04, 0x03]⟩] ∧
      (host.inboxes (.propertyUpdate 113)).items = [.propertyUpdate 113 [0x01, 0x02]] ∧
      (host.inboxes .reset).items = [.reset .resetPowerOn] := by
  obtain ⟨-, hresponses, hinboxes⟩ := @SpinelHost.run_route phyCapacity crc arrivals waitingHost
    List.not_mem_nil (by decide)
  exact ⟨hresponses.trans (by decide +kernel),
    ((hinboxes (.propertyUpdate 113)).2 (by decide +kernel)).trans (by decide +kernel),
    ((hinboxes .reset).2 (by decide +kernel)).trans (by decide +kernel)⟩

end Ziggurat
