import Ziggurat.Driver.LostNeighbors
import Ziggurat.Lib.Pagination

/-!
# Queries of the tables

A device reads our neighbors and our routes with `Mgmt_Lqi_req` and `Mgmt_Rtg_req`: a request has
the index to start from, and the response a few entries from there on and the number of entries in
all, in one byte.

`handleMgmtLqiReq_answers` and `handleMgmtRtgReq_answers` say what the response to a request is,
up to the frame in the send table.  `lqiQuery_paged` and `rtgQuery_paged` say that the responses
are pages of the table, under a number of entries modulo 256, so a client gets the whole table
exactly if that number is right.
-/

namespace Ziggurat.Driver

open Lib.BitCodec Lib.Stateful Lib.Pagination

/-! ## Enqueued responses -/

/-- A frame waits in the send table, with or without a route. -/
def Queued (net : Net) (id : SendId) (frame : NwkFrame) : Prop :=
  (∃ record security, net.sends.unicasts.records.get id = some record ∧
    record.frame = some (.nwk frame security)) ∨
  ∃ record security, net.sends.unroutedUnicasts.records.get id = some record ∧
    record.frame = .nwk frame security

variable {env : Env} {net : Net}

/-- What the stack decides on has the payload and the destination of the frame, and the frame is
given up only if it may not start a discovery. -/
theorem resolve_stackDecides {routing : Routing} {neighbors : Neighbors} {frame frame' : NwkFrame}
    {policy : NextHop.Policy} {answer : NextHop}
    (h : NextHop.resolve routing neighbors frame (.route .stackDecides) policy =
      .ok (answer, frame')) :
    frame'.payload = frame.payload ∧
      frame'.nwkHeader.destination = frame.nwkHeader.destination ∧
      (answer = .discard → frame.nwkHeader.frameControl.discoverRoute = .suppress) := by
  have hunrouted (h : NextHop.resolveUnrouted frame .stackDecides = .ok (answer, frame')) :
      frame'.payload = frame.payload ∧
        frame'.nwkHeader.destination = frame.nwkHeader.destination ∧
        (answer = .discard → frame.nwkHeader.frameControl.discoverRoute = .suppress) := by
    cases h
    refine ⟨rfl, rfl, fun hdiscard => ?_⟩
    by_contra hne
    rw [if_neg hne] at hdiscard
    cases hdiscard
  have htable (h : NextHop.resolveTable routing frame .stackDecides policy =
      .ok (answer, frame')) :
      frame'.payload = frame.payload ∧
        frame'.nwkHeader.destination = frame.nwkHeader.destination ∧
        (answer = .discard → frame.nwkHeader.frameControl.discoverRoute = .suppress) := by
    unfold NextHop.resolveTable at h
    split at h
    · exact hunrouted h
    · obtain ⟨found, -, h⟩ := Checked.bind_eq_ok.mp h
      cases found with
      | some hop =>
        cases h
        exact ⟨rfl, rfl, nofun⟩
      | none => exact hunrouted h
  unfold NextHop.resolve at h
  dsimp only at h
  split at h
  · cases h
    exact ⟨rfl, rfl, nofun⟩
  · split at h
    · obtain ⟨route, -, h⟩ := Checked.bind_eq_ok.mp h
      match route with
      | none => exact htable h
      | some (.nextHop hop) =>
        cases h
        exact ⟨rfl, rfl, nofun⟩
      | some (.sourceRouted relays) =>
        obtain ⟨_, -, h⟩ := Checked.bind_eq_ok.mp h
        obtain ⟨_, -, h⟩ := Checked.bind_eq_ok.mp h
        cases h
        exact ⟨rfl, rfl, nofun⟩
    · exact htable h

theorem enqueueBroadcast_unrouted {frame : Frame} {policy : TxPolicy} {schedule : Schedule} :
    Steps (Keeps fun net => net.sends.unroutedUnicasts)
      (enqueueBroadcast env frame policy schedule) := by
  intro net id net' h
  cases (enqueueBroadcast_eq_ok env net (room_of_admission h) ..).symm.trans h
  rfl

/-- A discovery is broadcast, and leaves the frames that wait for a route alone. -/
theorem startRouteDiscovery_unrouted {destination : Nwk} :
    Steps (Keeps fun net => net.sends.unroutedUnicasts)
      (startRouteDiscovery env destination) := by
  have hnumber : Steps (Keeps fun net => net.sends.unroutedUnicasts) nextSequenceNumber := by
    intro _ _ _ h
    cases h
    rfl
  exact .bind_get fun net => .set_bind rfl (.bind hnumber fun _ => .bind (.lift _) fun _ =>
    .bind enqueueBroadcast_unrouted fun _ => .pure _)

/-- A unicast that may start a discovery is enqueued, with its payload. -/
theorem sendUnicast_queued {send : Unicast} (hmode : send.mode = .route .stackDecides)
    (hdiscover : send.frame.nwkHeader.frameControl.discoverRoute ≠ .suppress) :
    Ensures net (sendUnicast env send) fun _ net' => ∃ frame,
      Queued net' net.sends.nextId frame ∧ frame.payload = send.frame.payload ∧
      frame.nwkHeader.destination = send.frame.nwkHeader.destination := by
  refine .bind_lift fun _ _ => .bind nextSequenceNumber_ensures ?_
  rintro number _ ⟨_, rfl⟩
  refine .bind_get (.bind_lift ?_)
  rintro ⟨answer, frame⟩ hresolve
  rw [hmode] at hresolve
  obtain ⟨hpayload, hdestination, hdiscard⟩ := resolve_stackDecides hresolve
  intro result net' h
  refine ⟨frame, ?_, hpayload, hdestination⟩
  cases answer with
  | discard => exact absurd (hdiscard rfl) hdiscover
  | resolved nextHop =>
    obtain ⟨id, _, henqueue, h⟩ := bind_eq_ok.mp h
    cases h
    cases (enqueueUnicast_eq_ok env _ (room_of_admission henqueue) ..).symm.trans henqueue
    exact .inl ⟨_, _, (FlatMap.get_insert ..).trans (if_pos rfl), rfl⟩
  | needDiscovery =>
    obtain ⟨id, net₁, henqueue, h⟩ := bind_eq_ok.mp h
    have hqueued : ∃ record, net₁.sends.unroutedUnicasts.records.get net.sends.nextId =
        some record ∧ record.frame = .nwk frame send.security := by
      have hroom := room_of_admission henqueue
      cases (enqueueUnroutedUnicast_eq_ok env _ hroom ..).symm.trans henqueue
      exact ⟨_, (FlatMap.get_insert ..).trans (if_pos rfl), rfl⟩
    obtain ⟨record, hget, hframe⟩ := hqueued
    have hunrouted : net'.sends.unroutedUnicasts = net₁.sends.unroutedUnicasts := by
      split at h
      · obtain ⟨_, net₂, hstart, h⟩ := bind_eq_ok.mp h
        cases h
        exact startRouteDiscovery_unrouted _ _ _ hstart
      · cases h
        rfl
    exact .inr ⟨record, send.security, hunrouted ▸ hget, hframe⟩

/-- A device profile command for a device is enqueued, in an APS data frame. -/
def Responds (net net' : Net) (destination : Nwk) (clusterId : ZdpClusterId) (asdu : Bytes) :
    Prop :=
  ∃ frame apsFrame payload, Queued net' net.sends.nextId frame ∧
    frame.nwkHeader.destination = destination ∧ frame.payload = .opaqueBytes payload ∧
    ApsDataFrame.toBytes apsFrame = .ok payload.bytes ∧
    apsFrame.clusterId = UInt16.ofFin (ZdpClusterId.enum.disc clusterId) ∧
    apsFrame.asdu.bytes = asdu

theorem sendZdpCommand_responds {α : Type} {codec : Codec α} {clusterId : ZdpClusterId}
    {destination : Nwk} {tsn : UInt8} {command : α} {asdu : Bytes}
    (hasdu : Zdp.serialize codec tsn command = .ok asdu) :
    Ensures net (sendZdpCommand env codec clusterId destination tsn command) fun _ net' =>
      Responds net net' destination clusterId asdu := by
  have hfits : asdu.length ≤ 104 := Zdp.length_le_of_serialize hasdu
  refine .bind_lift fun serialized hserialized => ?_
  cases hserialized.symm.trans hasdu
  rw [FrameBytes.fromSlice_eq (hfits.trans (by decide))]
  refine .bind nextApsCounter_ensures ?_
  rintro counter _ ⟨_, rfl⟩
  refine .bind_lift fun bytes hbytes => ?_
  have hshort : bytes.length ≤ maxPhyPacketSize := by
    obtain ⟨_, hbytes', hlen⟩ := ApsDataFrame.toBytes_eq_ok _
    cases hbytes.symm.trans hbytes'
    rw [hlen]
    change 8 + asdu.length ≤ 127
    omega
  unfold nwkDataFrame
  rw [FrameBytes.fromSlice_eq hshort]
  refine (sendUnicast_queued rfl (by intro h; cases h)).mono ?_
  rintro _ net' ⟨frame, hqueued, hpayload, hdestination⟩
  exact ⟨frame, _, _, hqueued, hdestination, hpayload, hbytes, rfl, rfl⟩

/-! ## Pages -/

/-- The neighbors by their network addresses. -/
def lqiEntries (neighbors : Neighbors) : List Neighbors.TableEntry :=
  neighbors.table.values.mergeSort fun a b => a.networkAddress ≤ b.networkAddress

/-- The response to `Mgmt_Lqi_req`. -/
def lqiPage (extendedPanId : Eui64) (neighbors : Neighbors) (startIndex : UInt8) : MgmtLqiRsp where
  status := .success
  neighborTableEntries := UInt8.ofNat (lqiEntries neighbors).length
  startIndex := startIndex
  neighborTableList := (((lqiEntries neighbors).drop startIndex.toNat).take
    mgmtLqiDescriptorsPerFrame).map (neighborDescriptor extendedPanId)

/-- The routes by their destinations. -/
def rtgEntries (routing : Routing) : List Routing.TableEntry :=
  routing.routeTable.values.mergeSort fun a b => a.destination ≤ b.destination

/-- The response to `Mgmt_Rtg_req`. -/
def rtgPage (routing : Routing) (startIndex : UInt8) : MgmtRtgRsp where
  status := .success
  routingTableEntries := UInt8.ofNat (rtgEntries routing).length
  startIndex := startIndex
  routingTableList := (((rtgEntries routing).drop startIndex.toNat).take
    mgmtRtgDescriptorsPerFrame).map routingDescriptor

theorem tableHeader_fixed : tableHeader.Fixed 32 :=
  ((Codec.fixed_enum _).pair <| fixed_u8.pair <| fixed_u8.pair <| Codec.fixed_uint 8).imap

theorem serialize_lqiPage (extendedPanId : Eui64) (neighbors : Neighbors) (startIndex tsn : UInt8) :
    ∃ asdu, Zdp.serialize MgmtLqiRsp.codec tsn (lqiPage extendedPanId neighbors startIndex) =
      .ok asdu := by
  have hitem : NeighborDescriptor.codec.Fixed 176 :=
    ((Codec.fixed_uint 64).pair <| (Codec.fixed_uint 64).pair <| (Codec.fixed_uint 16).pair <|
      (Codec.fixed_enum _).pair <| (Codec.fixed_enum _).pair <| (Codec.fixed_enum _).pair <|
      (Codec.fixed_reserved 1).pair <| (Codec.fixed_enum _).pair <| (Codec.fixed_reserved 6).pair <|
      fixed_u8.pair fixed_u8).imap
  generalize hpage : lqiPage extendedPanId neighbors startIndex = page
  have hshort : page.neighborTableList.length ≤ 2 := by
    rw [← hpage, lqiPage, List.length_map, List.length_take]
    exact Nat.min_le_left _ _
  obtain ⟨w, hwrite, hlen⟩ := tableHeader_fixed.counted hitem
    (page.status, page.neighborTableEntries, page.startIndex) (l := page.neighborTableList)
    (by omega)
  exact Zdp.serialize_eq_ok hwrite (by omega)

theorem serialize_rtgPage (routing : Routing) (startIndex tsn : UInt8) :
    ∃ asdu, Zdp.serialize MgmtRtgRsp.codec tsn (rtgPage routing startIndex) = .ok asdu := by
  have hitem : RoutingDescriptor.codec.Fixed 40 :=
    ((Codec.fixed_uint 16).pair <| (Codec.fixed_enum _).pair <| Codec.fixed_bool.pair <|
      Codec.fixed_bool.pair <| Codec.fixed_bool.pair <| (Codec.fixed_reserved 2).pair <|
      Codec.fixed_uint 16).imap
  generalize hpage : rtgPage routing startIndex = page
  have hshort : page.routingTableList.length ≤ 10 := by
    rw [← hpage, rtgPage, List.length_map, List.length_take]
    exact Nat.min_le_left _ _
  obtain ⟨w, hwrite, hlen⟩ := tableHeader_fixed.counted hitem
    (page.status, page.routingTableEntries, page.startIndex) (l := page.routingTableList)
    (by omega)
  exact Zdp.serialize_eq_ok hwrite (by omega)

/-- The response to the request of a client, as the client reads it. -/
theorem handleMgmtLqiReq_answers {header : NwkHeader} (hdestination :
    header.destination = env.networkAddress) {tsn startIndex : UInt8} {request : Bytes}
    (hrequest : Zdp.serialize MgmtLqiReq.codec tsn ⟨startIndex⟩ = .ok request) :
    ∃ asdu, Zdp.deserialize MgmtLqiRsp.codec asdu =
        some (tsn, lqiPage env.extendedPanId net.neighbors startIndex) ∧
      Ensures net (handleMgmtLqiReq env header request) fun _ net' =>
        Responds net net' header.source .mgmtLqiRsp asdu := by
  obtain ⟨asdu, hasdu⟩ := serialize_lqiPage env.extendedPanId net.neighbors startIndex tsn
  refine ⟨asdu, Zdp.deserialize_serialize hasdu, ?_⟩
  unfold handleMgmtLqiReq
  rw [if_pos hdestination, Zdp.deserialize_serialize hrequest]
  refine .bind_get (.bind (sendZdpCommand_responds hasdu) fun _ net' hresponds => ?_)
  exact .pure hresponds

theorem handleMgmtRtgReq_answers {header : NwkHeader} (hdestination :
    header.destination = env.networkAddress) {tsn startIndex : UInt8} {request : Bytes}
    (hrequest : Zdp.serialize MgmtRtgReq.codec tsn ⟨startIndex⟩ = .ok request) :
    ∃ asdu, Zdp.deserialize MgmtRtgRsp.codec asdu =
        some (tsn, rtgPage net.routing startIndex) ∧
      Ensures net (handleMgmtRtgReq env header request) fun _ net' =>
        Responds net net' header.source .mgmtRtgRsp asdu := by
  obtain ⟨asdu, hasdu⟩ := serialize_rtgPage net.routing startIndex tsn
  refine ⟨asdu, Zdp.deserialize_serialize hasdu, ?_⟩
  unfold handleMgmtRtgReq
  rw [if_pos hdestination, Zdp.deserialize_serialize hrequest]
  refine .bind_get (.bind (sendZdpCommand_responds hasdu) fun _ net' hresponds => ?_)
  exact .pure hresponds

/-! ## Clients -/

/-- What a client learns from a response to `Mgmt_Lqi_req`. -/
def lqiQuery (env : Env) (net : Net) (start : Nat) : Nat × List NeighborDescriptor :=
  let page := lqiPage env.extendedPanId net.neighbors (UInt8.ofNat start)
  (page.neighborTableEntries.toNat, page.neighborTableList)

/-- What a client learns from a response to `Mgmt_Rtg_req`. -/
def rtgQuery (net : Net) (start : Nat) : Nat × List RoutingDescriptor :=
  let page := rtgPage net.routing (UInt8.ofNat start)
  (page.routingTableEntries.toNat, page.routingTableList)

/-- Within the announced number, an index fits its byte. -/
theorem paged_map {A R : Type} (entries : List A) (f : A → R) {size : Nat} (hsize : 0 < size) :
    Paged (fun start => ((UInt8.ofNat entries.length).toNat,
      ((entries.drop (UInt8.ofNat start).toNat).take size).map f))
      (entries.map f) (entries.length % 256) size where
  size_pos := hsize
  announced_le := by
    rw [List.length_map]
    exact Nat.mod_le _ _
  page start hstart := by
    have hlt : entries.length % 256 < 256 := Nat.mod_lt _ (by decide)
    have hindex : (UInt8.ofNat start).toNat = start := by
      rw [UInt8.toNat_ofNat']
      exact Nat.mod_eq_of_lt (by omega)
    rw [hindex, List.map_take, List.map_drop, UInt8.toNat_ofNat']

theorem lqiQuery_paged (env : Env) (net : Net) :
    Paged (lqiQuery env net) ((lqiEntries net.neighbors).map (neighborDescriptor env.extendedPanId))
      ((lqiEntries net.neighbors).length % 256) mgmtLqiDescriptorsPerFrame :=
  paged_map _ _ (by decide)

theorem rtgQuery_paged (net : Net) :
    Paged (rtgQuery net) ((rtgEntries net.routing).map routingDescriptor)
      ((rtgEntries net.routing).length % 256) mgmtRtgDescriptorsPerFrame :=
  paged_map _ _ (by decide)

/-- A client that is told the number of entries modulo 256 gets them all exactly if it is their
number. -/
theorem collect_perm_iff {A R : Type} {ask : Nat → Nat × List R} {entries table : List A}
    {f : A → R} {size : Nat} (h : Paged ask (entries.map f) (entries.length % 256) size)
    (hsize : size < 256) (hperm : entries.Perm table) :
    ∃ got, collect ask 256 [] = some got ∧ (got.Perm (table.map f) ↔ table.length ≤ 255) := by
  have hlt : entries.length % 256 < 256 := Nat.mod_lt _ (by decide)
  rw [← hperm.length_eq]
  by_cases hfits : entries.length ≤ 255
  · refine ⟨entries.map f, collect_all h hlt ?_, iff_of_true (hperm.map f) hfits⟩
    rw [List.length_map, Nat.mod_eq_of_lt (by omega)]
  · have hshort : entries.length % 256 + size < (entries.map f).length := by
      rw [List.length_map]
      omega
    obtain ⟨got, hcollect, hlength⟩ := collect_short h hlt hshort
    refine ⟨got, hcollect, iff_of_false (fun hall => ?_) hfits⟩
    rw [hall.length_eq, (hperm.map f).length_eq] at hlength
    exact Nat.lt_irrefl _ hlength

/-- A client that reads our neighbors or our routes page by page gets each of them once exactly if
there are at most 255.  What it learns from each response is what the handler puts into the send
table. -/
theorem table_queries_complete_iff (env : Env) (net : Net) :
    (∃ got, collect (lqiQuery env net) 256 [] = some got ∧
      (got.Perm (net.neighbors.table.values.map (neighborDescriptor env.extendedPanId)) ↔
        net.neighbors.table.values.length ≤ 255)) ∧
    (∃ got, collect (rtgQuery net) 256 [] = some got ∧
      (got.Perm (net.routing.routeTable.values.map routingDescriptor) ↔
        net.routing.routeTable.values.length ≤ 255)) ∧
    ∀ (header : NwkHeader) (tsn : UInt8) (start : Nat) (request : Bytes),
      header.destination = env.networkAddress →
      (Zdp.serialize MgmtLqiReq.codec tsn ⟨UInt8.ofNat start⟩ = .ok request →
        ∃ asdu response, Zdp.deserialize MgmtLqiRsp.codec asdu = some (tsn, response) ∧
          lqiQuery env net start =
            (response.neighborTableEntries.toNat, response.neighborTableList) ∧
          Ensures net (handleMgmtLqiReq env header request) fun _ net' =>
            Responds net net' header.source .mgmtLqiRsp asdu) ∧
      (Zdp.serialize MgmtRtgReq.codec tsn ⟨UInt8.ofNat start⟩ = .ok request →
        ∃ asdu response, Zdp.deserialize MgmtRtgRsp.codec asdu = some (tsn, response) ∧
          rtgQuery net start = (response.routingTableEntries.toNat, response.routingTableList) ∧
          Ensures net (handleMgmtRtgReq env header request) fun _ net' =>
            Responds net net' header.source .mgmtRtgRsp asdu) := by
  refine ⟨?_, ?_, fun header tsn start request hdestination => ⟨fun hrequest => ?_,
    fun hrequest => ?_⟩⟩
  · exact collect_perm_iff (lqiQuery_paged env net) (by decide) (List.mergeSort_perm _ _)
  · exact collect_perm_iff (rtgQuery_paged net) (by decide) (List.mergeSort_perm _ _)
  · obtain ⟨asdu, hasdu, hresponds⟩ := handleMgmtLqiReq_answers hdestination hrequest
    exact ⟨asdu, _, hasdu, rfl, hresponds⟩
  · obtain ⟨asdu, hasdu, hresponds⟩ := handleMgmtRtgReq_answers hdestination hrequest
    exact ⟨asdu, _, hasdu, rfl, hresponds⟩

namespace Example

/-- A router that we hear. -/
def router (eui64 : Eui64) : Neighbors.TableEntry where
  extendedAddress := eui64
  networkAddress := 1
  deviceType := .router
  rxOnWhenIdle := true
  timeoutAt := 0
  deviceTimeout := 0
  relationship := .sibling
  lastLinkStatusTimestamp := 0

/-- We hear 256 routers. -/
def crowd : FlatMap Eui64 Neighbors.TableEntry where
  entries := (List.finRange 256).map fun n =>
    (n.castLE (by decide), router (n.castLE (by decide)))
  sorted := List.pairwise_map.mpr ((List.pairwise_lt_finRange 256).imp fun hlt => hlt)

/-- The coordinator among them. -/
def crowded : Net :=
  { (ZigbeeStack.plain (.plain .coordinator 0 1) 7).net with neighbors := { table := crowd } }

end Example

open Driver.Example in
/-- A client that is told that there are no neighbors stops after the first page. -/
theorem table_query_stops : crowded.neighbors.table.values.length = 256 ∧
    ∃ got, collect (lqiQuery (.plain .coordinator 0 1) crowded) 256 [] = some got ∧
      got.length = 2 := by
  have hlength : crowded.neighbors.table.values.length = 256 := by
    change (crowd.entries.map Prod.snd).length = 256
    rw [List.length_map, crowd, List.length_map, List.length_finRange]
  have hentries : (lqiEntries crowded.neighbors).length = 256 :=
    (List.length_mergeSort _).trans hlength
  have hannounced : (lqiQuery (.plain .coordinator 0 1) crowded 0).1 = 0 := by
    rw [lqiQuery, lqiPage, hentries]
    rfl
  refine ⟨hlength, (lqiQuery (.plain .coordinator 0 1) crowded 0).2, ?_, ?_⟩
  · have hdone : (lqiQuery (.plain .coordinator 0 1) crowded 0).1 ≤
        (lqiQuery (.plain .coordinator 0 1) crowded 0).2.length := by
      rw [hannounced]
      exact Nat.zero_le _
    exact if_pos hdone
  · rw [lqiQuery, lqiPage, List.length_map, List.length_take, List.length_drop, hentries]
    rfl

end Ziggurat.Driver
