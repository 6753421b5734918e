import Ziggurat.Driver.Network

/-!
# Route records and source routes

A device that has a path to a concentrator lets the concentrator know it: the routers on the
path append their addresses to a route record, one after another, and the concentrator keeps
the list.  A frame that it sends back carries the list as a source route, which the routers
consume from the other end.

`Path` is the way of one frame through routers, each of which runs `relay_unicast_nwk_frame` on
what it received.  Between two routers only the auxiliary header of a frame changes.  The record
is followed along its path by induction, and the source route by induction on its relay index.
-/

namespace Ziggurat.Driver

open Lib.Stateful

/-! ## One relay -/

section

variable {env : Env} {neighbors : Neighbors} {routing routing' : Routing} {frame frame' : NwkFrame}
  {nextHop : Nwk}

/-- A payload that relays leave alone: anything but a route record. -/
def NwkPayload.Verbatim : NwkPayload → Prop
  | .command (.routeRecord _) => False
  | .command (.unparsed raw) => raw.bytes.head? ≠ some 0x05
  | _ => True

theorem NwkPayload.Verbatim.relayPayload {payload : NwkPayload} (h : NwkPayload.Verbatim payload) :
    relayPayload env payload = some payload := by
  unfold Driver.relayPayload
  split
  next => exact h.elim
  next => exact if_neg h
  next => rfl

/-- What every relay does to a frame, whatever its next hop. -/
structure Relayed (env : Env) (frame frame' : NwkFrame) : Prop where
  radius : frame'.nwkHeader.radius.toNat + 1 = frame.nwkHeader.radius.toNat
  payload : relayPayload env frame.payload = some frame'.payload
  source : frame'.nwkHeader.source = frame.nwkHeader.source
  destination : frame'.nwkHeader.destination = frame.nwkHeader.destination

theorem relayFrame_eq_some (h : relayFrame env neighbors frame = some frame') :
    Relayed env frame frame' ∧ frame'.nwkHeader.sourceRoute = frame.nwkHeader.sourceRoute := by
  unfold relayFrame at h
  dsimp only at h
  split at h
  next => cases h
  next hradius =>
    obtain ⟨payload, hpayload, rfl⟩ := Option.map_eq_some_iff.mp h
    obtain ⟨initiator, hheader⟩ := neighbors.clearEndDeviceInitiatorForRelay_eq
      (frame.withRadius (UInt8.saturatingSub frame.nwkHeader.radius 1)).nwkHeader
    simp only [hheader]
    refine ⟨⟨?_, hpayload, rfl, rfl⟩, rfl⟩
    have hpos : (UInt8.saturatingSub frame.nwkHeader.radius 1).toNat ≠ 0 := fun hzero =>
      hradius (UInt8.toNat_inj.mp hzero)
    change (UInt8.saturatingSub frame.nwkHeader.radius 1).toNat + 1 = _
    rw [UInt8.toNat_saturatingSub] at hpos ⊢
    change _ - 1 ≠ 0 at hpos
    change _ - 1 + 1 = _
    omega

/-- A frame with hops left whose payload may be relayed is relayed. -/
theorem isSome_relayFrame (hradius : 1 < frame.nwkHeader.radius.toNat)
    (hpayload : (relayPayload env frame.payload).isSome) :
    ∃ frame', relayFrame env neighbors frame = some frame' := by
  obtain ⟨payload, hpayload⟩ := Option.isSome_iff_exists.mp hpayload
  unfold relayFrame
  dsimp only
  rw [if_neg]
  · change ∃ frame', Option.map _ (relayPayload env frame.payload) = some frame'
    rw [hpayload]
    exact ⟨_, rfl⟩
  · intro hzero
    have := congrArg UInt8.toNat hzero
    rw [UInt8.toNat_saturatingSub] at this
    change _ - 1 = 0 at this
    omega

theorem relayNextHop_relayed
    (h : relayNextHop env neighbors routing frame = .ok (some (nextHop, frame'), routing')) :
    Relayed env frame frame' := by
  unfold relayNextHop at h
  cases hframe : relayFrame env neighbors frame with
  | none =>
    rw [hframe] at h
    cases h
  | some relayed =>
    obtain ⟨hrelayed, -⟩ := relayFrame_eq_some hframe
    rw [hframe] at h
    dsimp only at h
    split at h
    next =>
      obtain ⟨_, -, h⟩ := Checked.bind_eq_ok.mp h
      split at h
      next => cases h
      next =>
        cases h
        exact ⟨hrelayed.radius, hrelayed.payload, hrelayed.source, hrelayed.destination⟩
    next =>
      split at h
      next =>
        cases h
        exact hrelayed
      next =>
        obtain ⟨hop, -, h⟩ := Checked.bind_eq_ok.mp h
        cases hop with
        | none => cases h
        | some hop =>
          cases h
          exact hrelayed

/-! ## Source routes -/

/-- The relay index of a source route may be anything, and so may its relays. -/
theorem relaySourceRoute_eq_ok (sourceRoute : NwkSourceRoute) (destination : Nwk) :
    ∃ r, relaySourceRoute env sourceRoute destination = .ok r := by
  unfold relaySourceRoute
  dsimp only
  split_ifs with hzero hours
  · exact ⟨_, rfl⟩
  · exact ⟨_, rfl⟩
  · -- our own address is in the list at the index, so there is one in front of it
    have hpos : 1 ≤ sourceRoute.relayIndex.toNat := Nat.one_le_iff_ne_zero.mpr hzero
    obtain ⟨hlt, -⟩ := List.getElem?_eq_some_iff.mp (not_not.mp hours)
    have hfront : sourceRoute.relays[sourceRoute.relayIndex.toNat - 1]? =
        some (sourceRoute.relays[sourceRoute.relayIndex.toNat - 1]) :=
      List.getElem?_eq_getElem (by omega)
    rw [Checked.ensure_of _ hpos, hfront]
    exact ⟨_, rfl⟩

/-- A source-routed frame is relayed or dropped. -/
theorem relayNextHop_eq_ok {sourceRoute : NwkSourceRoute}
    (h : frame.nwkHeader.sourceRoute = some sourceRoute) :
    ∃ r, relayNextHop env neighbors routing frame = .ok r := by
  unfold relayNextHop
  cases hframe : relayFrame env neighbors frame with
  | none => exact ⟨_, rfl⟩
  | some relayed =>
    obtain ⟨-, hroute⟩ := relayFrame_eq_some hframe
    dsimp only
    rw [hroute, h]
    obtain ⟨r, hr⟩ := @relaySourceRoute_eq_ok env sourceRoute relayed.nwkHeader.destination
    dsimp only
    rw [hr]
    cases r <;> exact ⟨_, rfl⟩

/-- The last relay delivers to the destination. -/
theorem relaySourceRoute_last {sourceRoute : NwkSourceRoute}
    (hindex : sourceRoute.relayIndex.toNat = 0) (destination : Nwk) :
    relaySourceRoute env sourceRoute destination = .ok (some (destination, sourceRoute)) := by
  unfold relaySourceRoute
  dsimp only
  rw [if_pos hindex]
  rfl

/-- Every other relay delivers to the one in front of it in the list. -/
theorem relaySourceRoute_front {sourceRoute : NwkSourceRoute} {index : Nat}
    (hindex : sourceRoute.relayIndex.toNat = index + 1)
    (hours : sourceRoute.relays[index + 1]? = some env.networkAddress)
    (hfront : sourceRoute.relays[index]? = some nextHop) (destination : Nwk) :
    relaySourceRoute env sourceRoute destination =
      .ok (some (nextHop, { sourceRoute with relayIndex := sourceRoute.relayIndex - 1 })) := by
  unfold relaySourceRoute
  dsimp only
  rw [hindex, if_neg (Nat.succ_ne_zero _), if_neg (not_not.mpr hours),
    Checked.ensure_of _ (Nat.le_add_left 1 index), Nat.add_sub_cancel, hfront]
  rfl

/-- A source-routed frame follows its list. -/
theorem relayNextHop_of_sourceRoute {sourceRoute sourceRoute' : NwkSourceRoute}
    (hradius : 1 < frame.nwkHeader.radius.toNat) (hpayload : NwkPayload.Verbatim frame.payload)
    (hroute : frame.nwkHeader.sourceRoute = some sourceRoute)
    (hnext : relaySourceRoute env sourceRoute frame.nwkHeader.destination =
      .ok (some (nextHop, sourceRoute')))
    (hchild : nextHop = frame.nwkHeader.destination ∨
      (neighbors.endDeviceChildEui64 frame.nwkHeader.destination).isSome = false) :
    ∃ frame' routing', relayNextHop env neighbors routing frame =
        .ok (some (nextHop, frame'), routing') ∧
      frame'.nwkHeader.sourceRoute = some sourceRoute' := by
  obtain ⟨relayed, hframe⟩ := @isSome_relayFrame env neighbors frame hradius
    (by rw [hpayload.relayPayload]; rfl)
  obtain ⟨hrelayed, hsame⟩ := relayFrame_eq_some hframe
  rw [← hrelayed.destination] at hnext hchild
  have hhop : (if (neighbors.endDeviceChildEui64 relayed.nwkHeader.destination).isSome = true then
      relayed.nwkHeader.destination else nextHop) = nextHop := by
    split
    next hsome => exact (hchild.resolve_right (by rw [hsome]; exact Bool.noConfusion)).symm
    next => rfl
  unfold relayNextHop
  rw [hframe]
  dsimp only
  rw [hsame, hroute]
  dsimp only
  rw [hnext, Checked.ok_bind]
  dsimp only
  rw [hhop]
  exact ⟨_, _, rfl, rfl⟩

end

/-! ## Routers -/

/-- A router when a frame arrives: its state, and how it received the frame. -/
structure Router where
  env : Env
  net : Net
  auxHeader : Option NwkAuxHeader
  sender : Nwk
  lqi : UInt8

/-- The handler left the state `net'`, in which it has admitted a frame for a next hop. -/
def Admitted (net net' : Net) (nextHop : Nwk) (frame : NwkFrame) : Prop :=
  net'.sends.nextId = net.sends.nextId + 1 ∧
    ∃ record, net'.sends.unicasts.records.get net.sends.nextId = some record ∧
      record.frame = some (.nwk frame .networkKey) ∧ record.nextHop = nextHop

/-- The router receives a frame and relays it as `frame'` to `nextHop`. -/
def Router.Relays (router : Router) (frame : NwkFrame) (nextHop : Nwk) (frame' : NwkFrame) :
    Prop :=
  ∃ net', relayUnicastNwkFrame router.env { frame with auxHeader := router.auxHeader }
      router.sender router.lqi router.net = .ok ((), net') ∧
    Admitted router.net net' nextHop frame'

/-- The neighbors of a router once it has taken note of the transmission. -/
def Router.neighbors (router : Router) : Neighbors :=
  (router.net.neighbors.recordLqa router.sender router.lqi).recordInboundActivity router.sender

/-- The handler relays what `relayNextHop` decides, while there is an identifier for it. -/
theorem Router.relays {router : Router} {frame : NwkFrame}
    {relayed : Option (Nwk × NwkFrame)} {routing : Routing}
    (h : relayNextHop router.env router.neighbors router.net.routing
      { frame with auxHeader := router.auxHeader } = .ok (relayed, routing))
    (hid : router.net.sends.nextId + 1 < 2 ^ 32) :
    ∃ net', relayUnicastNwkFrame router.env { frame with auxHeader := router.auxHeader }
        router.sender router.lqi router.net = .ok ((), net') ∧
      ∀ hop ∈ relayed, Admitted router.net net' hop.1 hop.2 := by
  cases relayed with
  | none =>
    exact ⟨_, bind_eq_ok.mpr ⟨_, _, rfl, bind_eq_ok.mpr ⟨_, _, rfl, bind_eq_ok.mpr ⟨_, _, rfl,
      bind_eq_ok.mpr ⟨_, _, lift_of_ok h _, rfl⟩⟩⟩⟩, fun _ hop => by cases hop⟩
  | some hop =>
    have henqueue := enqueueUnicast_eq_ok router.env
      { router.net with neighbors := router.neighbors, routing } hid
      (.nwk hop.2 .networkKey) ⟨.userNormal, .forwarding⟩ .onHandoff hop.1
      (pollAddress router.neighbors hop.1)
    refine ⟨_, bind_eq_ok.mpr ⟨_, _, rfl, bind_eq_ok.mpr ⟨_, _, rfl,
      bind_eq_ok.mpr ⟨_, _, rfl, bind_eq_ok.mpr ⟨_, _, lift_of_ok h _, bind_eq_ok.mpr ⟨_, _, rfl,
        bind_eq_ok.mpr ⟨_, _, henqueue, rfl⟩⟩⟩⟩⟩⟩, ?_⟩
    rintro _ ⟨⟩
    refine ⟨rfl, ?_⟩
    dsimp only
    rw [Unicasts.enqueue, FlatMap.get_insert, if_pos rfl]
    exact ⟨_, rfl, rfl, rfl⟩

/-- A frame that is admitted is the one that `relayNextHop` decides on. -/
theorem Router.Relays.next {router : Router} {frame frame' : NwkFrame} {nextHop : Nwk}
    (h : router.Relays frame nextHop frame') :
    ∃ routing, relayNextHop router.env router.neighbors router.net.routing
      { frame with auxHeader := router.auxHeader } = .ok (some (nextHop, frame'), routing) := by
  obtain ⟨net', h, hid, record, hrecord, hframe, hhop⟩ := h
  unfold relayUnicastNwkFrame at h
  obtain ⟨_, _, hlqa, h⟩ := bind_eq_ok.mp h
  cases hlqa
  obtain ⟨_, _, hactivity, h⟩ := bind_eq_ok.mp h
  cases hactivity
  obtain ⟨_, _, hget, h⟩ := bind_eq_ok.mp h
  cases hget
  obtain ⟨⟨relayed, routing⟩, _, hlift, h⟩ := bind_eq_ok.mp h
  obtain ⟨hnext, rfl⟩ := lift_eq_ok.mp hlift
  dsimp only at h
  obtain ⟨_, _, hset, h⟩ := bind_eq_ok.mp h
  cases hset
  cases relayed with
  | none =>
    -- a frame that is dropped takes no identifier
    cases h
    exact absurd hid (Nat.ne_of_lt (Nat.lt_succ_self _))
  | some relayed =>
    obtain ⟨_, _, henqueue, h⟩ := bind_eq_ok.mp h
    cases h
    rw [enqueueUnicast_eq_ok router.env _ (room_of_admission henqueue)] at henqueue
    cases henqueue
    rw [Unicasts.enqueue, FlatMap.get_insert, if_pos rfl] at hrecord
    cases hrecord
    cases hframe
    cases hhop
    exact ⟨routing, hnext⟩

theorem Router.Relays.relayed {router : Router} {frame frame' : NwkFrame} {nextHop : Nwk}
    (h : router.Relays frame nextHop frame') : Relayed router.env frame frame' := by
  obtain ⟨routing, hnext⟩ := h.next
  obtain ⟨hradius, hpayload, hsource, hdestination⟩ := relayNextHop_relayed hnext
  exact ⟨hradius, hpayload, hsource, hdestination⟩

/-- A source-routed frame follows its list, however it was received. -/
theorem Router.relays_of_sourceRoute {router : Router} {frame : NwkFrame}
    {sourceRoute sourceRoute' : NwkSourceRoute} {nextHop : Nwk}
    (hradius : 1 < frame.nwkHeader.radius.toNat) (hpayload : NwkPayload.Verbatim frame.payload)
    (hroute : frame.nwkHeader.sourceRoute = some sourceRoute)
    (hnext : relaySourceRoute router.env sourceRoute frame.nwkHeader.destination =
      .ok (some (nextHop, sourceRoute')))
    (hchild : nextHop = frame.nwkHeader.destination ∨
      (router.net.neighbors.endDeviceChildEui64 frame.nwkHeader.destination).isSome = false)
    (hid : router.net.sends.nextId + 1 < 2 ^ 32) :
    ∃ frame', router.Relays frame nextHop frame' ∧
      frame'.nwkHeader.sourceRoute = some sourceRoute' := by
  have hchild' : nextHop = frame.nwkHeader.destination ∨
      (router.neighbors.endDeviceChildEui64 frame.nwkHeader.destination).isSome = false := by
    refine hchild.imp_right fun h => ?_
    exact Neighbors.endDeviceChildEui64_recordInboundActivity _
      (Neighbors.endDeviceChildEui64_recordLqa _ _ h)
  obtain ⟨frame', routing', h, hroute'⟩ := @relayNextHop_of_sourceRoute router.env
    router.neighbors router.net.routing { frame with auxHeader := router.auxHeader } nextHop
    sourceRoute sourceRoute' hradius hpayload hroute hnext hchild'
  obtain ⟨net', hrun, hadmitted⟩ := Router.relays h hid
  exact ⟨frame', ⟨net', hrun, hadmitted _ rfl⟩, hroute'⟩

/-! ## Paths -/

/-- The way of a frame that is transmitted to `node`: each router on it gets the frame from the
one before and relays it.  At the end the frame is `frame'` and has been transmitted to
`last`.  The routers hand over decoded frames: the codec between two hops is not on the path. -/
inductive Path : NwkFrame → Nwk → List Router → NwkFrame → Nwk → Prop where
  | arrived {frame : NwkFrame} {node : Nwk} : Path frame node [] frame node
  | relayed {frame frame' frame'' : NwkFrame} {node nextHop last : Nwk} {router : Router}
      {routers : List Router} (here : router.env.networkAddress = node)
      (relays : router.Relays frame nextHop frame')
      (rest : Path frame' nextHop routers frame'' last) :
      Path frame node (router :: routers) frame'' last

/-- The addresses of routers. -/
def addresses (routers : List Router) : List Nwk := routers.map (·.env.networkAddress)

/-- A frame goes no further than its radius, and its decoded payload arrives as it was. -/
theorem Path.preserves {frame frame' : NwkFrame} {node last : Nwk} {routers : List Router}
    (h : Path frame node routers frame' last) :
    frame'.nwkHeader.radius.toNat + routers.length = frame.nwkHeader.radius.toNat ∧
      frame'.nwkHeader.source = frame.nwkHeader.source ∧
      frame'.nwkHeader.destination = frame.nwkHeader.destination ∧
      (NwkPayload.Verbatim frame.payload → frame'.payload = frame.payload) := by
  induction h with
  | arrived => exact ⟨rfl, rfl, rfl, fun _ => rfl⟩
  | relayed here relays rest ih =>
    obtain ⟨hradius, hsource, hdestination, hpayload⟩ := ih
    have hrelayed := relays.relayed
    refine ⟨?_, hsource.trans hrelayed.source, hdestination.trans hrelayed.destination, ?_⟩
    · rw [List.length_cons, ← hrelayed.radius]
      omega
    · intro hverbatim
      have hsame := Option.some.inj (hverbatim.relayPayload.symm.trans hrelayed.payload)
      rw [← hsame] at hpayload
      exact hpayload hverbatim

/-- A route record collects the addresses on its path. -/
theorem Path.routeRecord {record recorded : NwkFrame} {node last : Nwk} {routers : List Router}
    (h : Path record node routers recorded last) {relays : List Nwk}
    (hrecord : record.payload = .command (.routeRecord ⟨relays⟩)) :
    recorded.payload = .command (.routeRecord ⟨relays ++ addresses routers⟩) ∧
      recorded.nwkHeader.source = record.nwkHeader.source := by
  induction h generalizing relays with
  | arrived => exact ⟨by rw [hrecord]; simp [addresses], rfl⟩
  | @relayed frame frame' _ _ _ _ router routers here hrelays rest ih =>
    have hrelayed := hrelays.relayed
    -- the router appends its address, or the record would not have gone on
    have hpayload := hrelayed.payload
    rw [hrecord, relayPayload] at hpayload
    split at hpayload
    next => cases hpayload
    next =>
      obtain ⟨hpath, hsource⟩ := ih (Option.some.inj hpayload).symm
      rw [hpath, hsource, hrelayed.source]
      simp [addresses]

/-- A source-routed frame visits the relays of its list from the relay index on, down to the
first, and then the destination. -/
theorem Path.sourceRoute {relays : List Nwk} {destination : Nwk} (index : Nat) :
    ∀ {node : Nwk} {frame : NwkFrame} {routers : List Router} {relayIndex : UInt8},
      relayIndex.toNat = index → relays[index]? = some node →
      addresses routers = (relays.take (index + 1)).reverse →
      frame.nwkHeader.sourceRoute = some ⟨relayIndex, relays⟩ →
      frame.nwkHeader.destination = destination → NwkPayload.Verbatim frame.payload →
      index + 1 < frame.nwkHeader.radius.toNat →
      (∀ router ∈ routers, router.net.sends.nextId + 1 < 2 ^ 32) →
      (∀ router ∈ routers.dropLast,
        (router.net.neighbors.endDeviceChildEui64 destination).isSome = false) →
      ∃ frame', Path frame node routers frame' destination := by
  induction index with
  | zero =>
    intro node frame routers relayIndex hindex hnode haddresses hroute hdestination hpayload
      hradius hids hchildren
    -- one router is left, and the destination is behind it
    have htake : relays.take 1 = [node] := by
      rw [List.take_one, List.head?_eq_getElem?, hnode]
      rfl
    rw [Nat.zero_add, htake, List.reverse_singleton] at haddresses
    obtain ⟨router, rfl, hhere⟩ := List.map_eq_singleton_iff.mp haddresses
    obtain ⟨frame', hrelays, -⟩ := router.relays_of_sourceRoute (by omega) hpayload hroute
      (relaySourceRoute_last hindex _) (.inl rfl) (hids router (List.mem_singleton_self _))
    rw [hdestination] at hrelays
    exact ⟨frame', .relayed hhere hrelays .arrived⟩
  | succ index ih =>
    intro node frame routers relayIndex hindex hnode haddresses hroute hdestination hpayload
      hradius hids hchildren
    obtain ⟨hlt, -⟩ := List.getElem?_eq_some_iff.mp hnode
    have hfront : relays[index]? = some relays[index] := List.getElem?_eq_getElem (by omega)
    rw [List.take_add_one, hnode, Option.toList_some, List.reverse_append,
      List.reverse_singleton, List.singleton_append] at haddresses
    obtain ⟨router, rest, rfl, hhere, hrest⟩ := List.map_eq_cons_iff.mp haddresses
    have hne : rest ≠ [] := by
      rintro rfl
      have := congrArg List.length hrest
      rw [List.map_nil, List.length_nil, List.length_reverse, List.length_take] at this
      omega
    rw [List.dropLast_cons_of_ne_nil hne, List.forall_mem_cons] at hchildren
    rw [List.forall_mem_cons] at hids
    obtain ⟨frame', hrelays, hroute'⟩ := router.relays_of_sourceRoute (by omega) hpayload hroute
      (relaySourceRoute_front hindex (by rw [hnode, hhere]) hfront _)
      (.inr (by rw [hdestination]; exact hchildren.1)) hids.1
    have hrelayed := hrelays.relayed
    have hsame : frame'.payload = frame.payload :=
      (Option.some.inj (hpayload.relayPayload.symm.trans hrelayed.payload)).symm
    have hindex' : (relayIndex - 1).toNat = index := by
      have hle : (1 : UInt8) ≤ relayIndex := by
        change 1 ≤ relayIndex.toNat
        omega
      rw [UInt8.toNat_sub_of_le _ _ hle, hindex]
      rfl
    have hradius' := hrelayed.radius
    obtain ⟨last, hpath⟩ := ih hindex' hfront hrest hroute'
      (hrelayed.destination.trans hdestination) (hsame ▸ hpayload) (by omega) hids.2 hchildren.2
    exact ⟨last, .relayed hhere hrelays hpath⟩

/-! ## At the concentrator -/

/-- A route record wins over everything else that the routing tables know. -/
theorem handleRouteRecord_routeTo {frame : NwkFrame} {command : NwkRouteRecordCommand}
    {net net' : Net} (h : handleRouteRecord frame command net = .ok ((), net')) :
    net'.routing.routeRecordTable.get frame.nwkHeader.source = some command.relays ∧
      net'.neighbors = net.neighbors := by
  unfold handleRouteRecord at h
  obtain ⟨_, _, hget, h⟩ := bind_eq_ok.mp h
  cases hget
  obtain ⟨_, _, hset, h⟩ := bind_eq_ok.mp h
  cases hset
  have hstored : ∀ routing : Routing, routing = (net.routing.storeRouteRecord
      frame.nwkHeader.source command.relays).2 →
      routing.routeRecordTable.get frame.nwkHeader.source = some command.relays := by
    rintro _ rfl
    exact (FlatMap.get_insert ..).trans (if_pos rfl)
  split at h
  next =>
    cases h
    exact ⟨hstored _ rfl, rfl⟩
  next =>
    cases h
    exact ⟨hstored _ rfl, rfl⟩

/-- A concentrator embeds the route record in the frame and transmits it to the last relay. -/
theorem resolve_eq_applySourceRoute {routing : Routing} {neighbors : Neighbors}
    {frame : NwkFrame} {policy : NextHop.Policy} {relays : List Nwk}
    (hconcentrator : policy.isConcentrator = true) (hforce : policy.forceRouteDiscovery = false)
    (hchild : (neighbors.endDeviceChildEui64 frame.nwkHeader.destination).isSome = false)
    (hrecord : routing.routeRecordTable.get frame.nwkHeader.destination = some relays)
    (hne : relays ≠ []) (hlength : relays.length < policy.maxSourceRoute.toNat) :
    NextHop.resolve routing neighbors frame (.route .stackDecides) policy =
      NextHop.applySourceRoute frame relays := by
  have hrouteTo : routing.routeTo frame.nwkHeader.destination policy.maxSourceRoute =
      .ok (some (.sourceRouted relays)) := by
    unfold Routing.routeTo
    rw [hrecord]
    cases relays with
    | nil => exact absurd rfl hne
    | cons relay relays => exact if_pos hlength
  unfold NextHop.resolve
  dsimp only
  rw [if_neg (by rw [hchild]; exact Bool.noConfusion),
    if_pos ⟨hconcentrator, by rw [hforce]; rfl⟩, hrouteTo, Checked.ok_bind]

theorem resolve_of_routeRecord {routing : Routing} {neighbors : Neighbors} {frame : NwkFrame}
    {policy : NextHop.Policy} {relays : List Nwk} {last : Nwk}
    (hconcentrator : policy.isConcentrator = true) (hforce : policy.forceRouteDiscovery = false)
    (hchild : (neighbors.endDeviceChildEui64 frame.nwkHeader.destination).isSome = false)
    (hrecord : routing.routeRecordTable.get frame.nwkHeader.destination = some relays)
    (hlast : relays.getLast? = some last) (hlength : relays.length < policy.maxSourceRoute.toNat) :
    ∃ routed, NextHop.resolve routing neighbors frame (.route .stackDecides) policy =
        .ok (.resolved last, routed) ∧
      routed.nwkHeader.sourceRoute = some ⟨UInt8.ofNat (relays.length - 1), relays⟩ ∧
      routed.nwkHeader.destination = frame.nwkHeader.destination ∧
      routed.nwkHeader.radius = frame.nwkHeader.radius ∧ routed.payload = frame.payload := by
  have hne : relays ≠ [] := by
    rintro rfl
    cases hlast
  have hpos : 1 ≤ relays.length := List.length_pos_iff.mpr hne
  have hmod : relays.length % 2 ^ 8 = relays.length :=
    Nat.mod_eq_of_lt (Nat.lt_trans hlength policy.maxSourceRoute.toNat_lt)
  rw [resolve_eq_applySourceRoute hconcentrator hforce hchild hrecord hne hlength]
  unfold NextHop.applySourceRoute
  rw [hlast, hmod, Checked.ensure_of _ hpos]
  exact ⟨_, rfl, rfl, rfl, rfl, rfl⟩

/-- A route record collects the routers on its way to the concentrator, and what the
concentrator sends back visits them in the reverse order, each of them once and with one hop
less.  The step that consumes a source route does not fail on any that comes from the air. -/
theorem route_record_reverses :
    (∀ {record recorded : NwkFrame} {device first concentrator : Nwk} {recorders : List Router}
      {auxHeader : Option NwkAuxHeader} {command : NwkRouteRecordCommand} {net net' : Net}
      {frame : NwkFrame} {policy : NextHop.Policy} {forwarders : List Router},
      (concentrator :: device :: addresses recorders).Nodup →
      0 < recorders.length → recorders.length < policy.maxSourceRoute.toNat →
      recorders.length < frame.nwkHeader.radius.toNat →
      -- the record is relayed and stored
      record.nwkHeader.source = device → record.payload = .command (.routeRecord ⟨[]⟩) →
      Path record first recorders recorded concentrator →
      recorded.payload = .command (.routeRecord command) →
      handleRouteRecord { recorded with auxHeader } command net = .ok ((), net') →
      -- the concentrator sends a frame to the device, and the routers of the record are there
      policy.isConcentrator = true → policy.forceRouteDiscovery = false →
      frame.nwkHeader.destination = device → NwkPayload.Verbatim frame.payload →
      (net.neighbors.endDeviceChildEui64 device).isSome = false →
      addresses forwarders = (addresses recorders).reverse →
      (∀ router ∈ forwarders, router.net.sends.nextId + 1 < 2 ^ 32) →
      (∀ router ∈ forwarders.dropLast,
        (router.net.neighbors.endDeviceChildEui64 device).isSome = false) →
      ∃ last routed delivered, (addresses recorders).getLast? = some last ∧
        NextHop.resolve net'.routing net'.neighbors frame (.route .stackDecides) policy =
          .ok (.resolved last, routed) ∧
        Path routed last forwarders delivered device ∧
        (concentrator :: (addresses forwarders ++ [device])).Nodup) ∧
    (∀ {router : Router} {frame frame' : NwkFrame} {nextHop : Nwk},
      router.Relays frame nextHop frame' →
      frame'.nwkHeader.radius.toNat + 1 = frame.nwkHeader.radius.toNat) ∧
    (∀ (env : Env) (neighbors : Neighbors) (routing : Routing) {frame : NwkFrame}
      {sourceRoute : NwkSourceRoute}, frame.nwkHeader.sourceRoute = some sourceRoute →
      ∃ r, relayNextHop env neighbors routing frame = .ok r) ∧
    (∀ (env : Env) (sender : Nwk) (lqi : UInt8) {net : Net} {frame : NwkFrame}
      {sourceRoute : NwkSourceRoute}, frame.nwkHeader.sourceRoute = some sourceRoute →
      net.sends.nextId + 1 < 2 ^ 32 →
      ∃ net', relayUnicastNwkFrame env frame sender lqi net = .ok ((), net')) := by
  refine ⟨?_, fun h => h.relayed.radius, fun _ _ _ _ _ h => relayNextHop_eq_ok h, ?_⟩
  · intro record recorded device first concentrator recorders auxHeader command net net' frame
      policy forwarders hdistinct hpos hlength hradius hsource hrecord hpath hrecorded hstored
      hconcentrator hforce hdestination hpayload hchild haddresses hids hchildren
    obtain ⟨hrelays, hsource'⟩ := hpath.routeRecord hrecord
    obtain rfl : command = ⟨addresses recorders⟩ := by
      rw [hrecorded, List.nil_append] at hrelays
      cases hrelays
      rfl
    obtain ⟨htable, hneighbors⟩ := handleRouteRecord_routeTo hstored
    dsimp only at htable
    rw [hsource', hsource, ← hdestination] at htable
    rw [← hdestination, ← hneighbors] at hchild
    have hlen : (addresses recorders).length = recorders.length := List.length_map ..
    have hne : addresses recorders ≠ [] := by
      rw [← List.length_pos_iff, hlen]
      exact hpos
    have hlast := List.getLast?_eq_getLast_of_ne_nil hne
    obtain ⟨routed, hresolve, hroute, hto, hhops, hsame⟩ := resolve_of_routeRecord hconcentrator
      hforce hchild htable hlast (hlen ▸ hlength)
    have hindex : (UInt8.ofNat ((addresses recorders).length - 1)).toNat =
        (addresses recorders).length - 1 := by
      have := policy.maxSourceRoute.toNat_lt
      rw [UInt8.toNat_ofNat']
      exact Nat.mod_eq_of_lt (by omega)
    have hall : (addresses recorders).take ((addresses recorders).length - 1 + 1) =
        addresses recorders := by
      rw [Nat.sub_add_cancel (by omega), List.take_length]
    obtain ⟨delivered, hdelivered⟩ := Path.sourceRoute _ hindex
      (by rw [← List.getLast?_eq_getElem?]; exact hlast) (by rw [haddresses, hall]) hroute
      (hto.trans hdestination) (hsame ▸ hpayload) (by rw [hhops]; omega) hids hchildren
    refine ⟨_, routed, delivered, hlast, hresolve, hdelivered, ?_⟩
    rw [haddresses]
    refine (List.Perm.nodup_iff (.cons _ ?_)).mp hdistinct
    exact (List.perm_append_singleton _ _).symm.trans ((List.reverse_perm _).symm.append_right _)
  · intro env sender lqi net frame sourceRoute hroute hid
    obtain ⟨r, hrelayed⟩ := @relayNextHop_eq_ok env
      ((net.neighbors.recordLqa sender lqi).recordInboundActivity sender) net.routing frame
      sourceRoute hroute
    obtain ⟨net', hrun, -⟩ := @Router.relays ⟨env, net, frame.auxHeader, sender, lqi⟩ frame _ _
      hrelayed hid
    exact ⟨net', hrun⟩

namespace Example

/-- A router on the way to node 0, with a route that was restored. -/
def onTheWay (address nextHop : Nwk) : Router where
  env := .plain .router address 0
  net := { (ZigbeeStack.plain (.plain .router address 0) 0).net with
    routing := Routing.restoreRoute {} 0 nextHop 1 }
  auxHeader := none
  sender := 0
  lqi := 255

/-- The route record of a device, before it is relayed. -/
def recordOf (device : Nwk) : NwkFrame :=
  nwkCommandFrame (.plain .router device 0) 0 (.routeRecord ⟨[]⟩)

/-- A leave command of the concentrator to a device. -/
def leaveOf (device : Nwk) : NwkFrame :=
  nwkCommandFrame (.plain .coordinator 0 0) device (.leave ⟨false, true, false⟩)

def leaving : NwkFrame :=
  nwkCommandFrame (.plain .router 9 0) 0 (.leave ⟨false, true, false⟩)

end Example

open Driver.Example in
/-- A leave command of a device to the concentrator, by way of two routers. -/
theorem Path.preserves_two :
    ∃ delivered, Path leaving 1 [onTheWay 1 2, onTheWay 2 0] delivered 0 ∧
      delivered.payload = leaving.payload := by
  have hpath : Path leaving 1 [onTheWay 1 2, onTheWay 2 0] _ 0 :=
    .relayed rfl ⟨_, rfl, rfl, _, rfl, rfl, rfl⟩
      (.relayed rfl ⟨_, rfl, rfl, _, rfl, rfl, rfl⟩ .arrived)
  exact ⟨_, hpath, hpath.preserves.2.2.2 trivial⟩

open Driver.Example in
theorem route_record_reverses_two : ∃ last routed delivered, last = 2 ∧
    Path routed last [onTheWay 2 0, onTheWay 1 2] delivered 9 := by
  have hpath : Path (recordOf 9) 1 [onTheWay 1 2, onTheWay 2 0] _ 0 :=
    .relayed rfl ⟨_, rfl, rfl, _, rfl, rfl, rfl⟩
      (.relayed rfl ⟨_, rfl, rfl, _, rfl, rfl, rfl⟩ .arrived)
  obtain ⟨hreverses, -⟩ := route_record_reverses
  obtain ⟨last, routed, delivered, hlast, -, hdelivered, -⟩ := @hreverses (recordOf 9) _ 9 1 0 _
    none _ (ZigbeeStack.plain (.plain .coordinator 0 0) 0).net _ (leaveOf 9) ⟨true, false, 11⟩
    [onTheWay 2 0, onTheWay 1 2] (by decide) (by decide) (by decide) (by decide) rfl rfl hpath
    rfl rfl rfl rfl rfl trivial rfl rfl (by decide) (by decide)
  exact ⟨last, routed, delivered, (Option.some.inj hlast).symm, hdelivered⟩

end Ziggurat.Driver
