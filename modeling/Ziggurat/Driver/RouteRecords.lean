import Ziggurat.Driver.SourceRoute

/-!
# Route records at the concentrator

A route record has the relays on its way to the concentrator, which stores it for its source, and
for each relay the rest of the list.  The client is told of a record that changed the list of its
source, and loads what it was told into a fresh stack after a restart.

* `route_records_replayed_iff`: the client is not told when a record that is known gives a relay
  back a route that another record had changed, so its copy falls behind there.
* `route_record_embedded_iff`: the relays take a record of as many relays as the limit, and the
  concentrator only embeds shorter ones.
-/

namespace Ziggurat.Driver

open Lib.Stateful

/-! ## Replaying what the client was told -/

/-- `apply_source_routes`: load the source routes that the client kept. -/
def applySourceRoutes (routing : Routing) (entries : List (Nwk × List Nwk)) : Routing :=
  entries.foldl (fun routing (destination, relays) =>
    (routing.storeRouteRecord destination relays).2) routing

/-- The source routes that notifications tell of. -/
def sourceRoutes (notifications : List ZigbeeNotification) : List (Nwk × List Nwk) :=
  notifications.filterMap fun
    | .routeRecord destination relays => some (destination, relays)
    | _ => none

/-- A fresh stack, loaded from the notifications. -/
def replayed (notifications : List ZigbeeNotification) : Routing :=
  applySourceRoutes {} (sourceRoutes notifications)

/-- Every relay of the list has the rest of it on record. -/
def Recorded (table : FlatMap Nwk (List Nwk)) : List Nwk → Prop
  | [] => True
  | relay :: relays => table.get relay = some relays ∧ Recorded table relays

/-- A record that is known does not change the route of a relay either. -/
def Repeats (routing : Routing) (source : Nwk) (relays : List Nwk) : Prop :=
  routing.routeRecordTable.get source = some relays → Recorded routing.routeRecordTable relays

/-- The client has emptied the queue. -/
def Net.drained (net : Net) : Net := { net with notifications := [] }

/-- The runs in which route records arrive at a fresh stack and meet the condition, with the
notifications that went out. -/
inductive Records : Net → List ZigbeeNotification → Prop where
  | start {net : Net} (fresh : net.routing.routeRecordTable = .new) : Records net []
  | record {net net' : Net} {emitted : List ZigbeeNotification} (frame : NwkFrame)
      (command : NwkRouteRecordCommand) (records : Records net emitted)
      (distinct : (frame.nwkHeader.source :: command.relays).Nodup)
      (repeats : Repeats net.routing frame.nwkHeader.source command.relays)
      (handled : handleRouteRecord frame command net.drained = .ok ((), net')) :
      Records net' (emitted ++ net'.notifications)

section

variable {table : FlatMap Nwk (List Nwk)} {relays : List Nwk} {source : Nwk}

theorem get_storeRelays_of_not_mem (hsource : source ∉ relays) :
    (Routing.storeRelays table relays).get source = table.get source := by
  induction relays generalizing table with
  | nil => rfl
  | cons relay relays ih =>
    rw [List.mem_cons, not_or] at hsource
    rw [Routing.storeRelays, ih hsource.2, FlatMap.get_insert, if_neg hsource.1]

theorem recorded_storeRelays (hdistinct : relays.Nodup) :
    Recorded (Routing.storeRelays table relays) relays := by
  induction relays generalizing table with
  | nil => trivial
  | cons relay relays ih =>
    obtain ⟨hrelay, hrelays⟩ := List.nodup_cons.mp hdistinct
    refine ⟨?_, ih hrelays⟩
    rw [Routing.storeRelays, get_storeRelays_of_not_mem hrelay, FlatMap.get_insert, if_pos rfl]

theorem Recorded.insert (h : Recorded table relays) (hsource : source ∉ relays)
    (path : List Nwk) : Recorded (table.insert source path) relays := by
  induction relays with
  | nil => trivial
  | cons relay relays ih =>
    rw [List.mem_cons, not_or] at hsource
    refine ⟨?_, ih h.2 hsource.2⟩
    rw [FlatMap.get_insert, if_neg fun heq => hsource.1 heq.symm]
    exact h.1

theorem insert_of_get {path : List Nwk} (h : table.get source = some path) :
    table.insert source path = table := by
  refine FlatMap.ext_get fun other => ?_
  rw [FlatMap.get_insert]
  split
  next hother => rw [hother, h]
  next => rfl

theorem storeRelays_of_recorded (h : Recorded table relays) :
    Routing.storeRelays table relays = table := by
  induction relays with
  | nil => rfl
  | cons relay relays ih =>
    rw [Routing.storeRelays, insert_of_get h.1]
    exact ih h.2

/-- Storing a known record changes nothing exactly if the relays have their part on record. -/
theorem storeRouteRecord_known_iff {routing : Routing}
    (hdistinct : (source :: relays).Nodup)
    (hknown : routing.routeRecordTable.get source = some relays) :
    (routing.storeRouteRecord source relays).2.routeRecordTable = routing.routeRecordTable ↔
      Recorded routing.routeRecordTable relays := by
  obtain ⟨hsource, hrelays⟩ := List.nodup_cons.mp hdistinct
  constructor
  · intro hsame
    exact hsame ▸ (recorded_storeRelays hrelays).insert hsource relays
  · intro hrecorded
    show (Routing.storeRelays routing.routeRecordTable relays).insert source relays = _
    rw [storeRelays_of_recorded hrecorded, insert_of_get hknown]

end

/-- The client is told of a record unless it is known. -/
theorem handleRouteRecord_drained {frame : NwkFrame} {command : NwkRouteRecordCommand}
    {net net' : Net} (hsource : frame.nwkHeader.source ∉ command.relays)
    (h : handleRouteRecord frame command net.drained = .ok ((), net')) :
    net'.routing = (net.routing.storeRouteRecord frame.nwkHeader.source command.relays).2 ∧
    net'.notifications =
      if net.routing.routeRecordTable.get frame.nwkHeader.source = some command.relays then []
      else [.routeRecord frame.nwkHeader.source command.relays] := by
  have hget := @get_storeRelays_of_not_mem net.routing.routeRecordTable _ _ hsource
  unfold handleRouteRecord at h
  obtain ⟨_, _, hread, h⟩ := bind_eq_ok.mp h
  cases hread
  obtain ⟨_, _, hset, h⟩ := bind_eq_ok.mp h
  cases hset
  split at h
  next hchanged =>
    cases h
    exact ⟨rfl, (if_neg (hget ▸ of_decide_eq_true hchanged)).symm⟩
  next hchanged =>
    cases h
    exact ⟨rfl, (if_pos (hget ▸ of_not_not fun hne => hchanged (decide_eq_true hne))).symm⟩

theorem replayed_append (emitted : List ZigbeeNotification) (source : Nwk) (relays : List Nwk) :
    replayed (emitted ++ [.routeRecord source relays]) =
      ((replayed emitted).storeRouteRecord source relays).2 := by
  unfold replayed applySourceRoutes sourceRoutes
  rw [List.filterMap_append, List.foldl_append]
  rfl

/-- What one record does to a copy that is up to date. -/
theorem replayed_record_iff {net net' : Net} {emitted : List ZigbeeNotification}
    {frame : NwkFrame} {command : NwkRouteRecordCommand}
    (hreplayed : (replayed emitted).routeRecordTable = net.routing.routeRecordTable)
    (hdistinct : (frame.nwkHeader.source :: command.relays).Nodup)
    (h : handleRouteRecord frame command net.drained = .ok ((), net')) :
    (replayed (emitted ++ net'.notifications)).routeRecordTable =
        net'.routing.routeRecordTable ↔
      Repeats net.routing frame.nwkHeader.source command.relays := by
  obtain ⟨hrouting, hnotifications⟩ :=
    handleRouteRecord_drained (List.nodup_cons.mp hdistinct).1 h
  rw [hrouting, hnotifications]
  by_cases hknown :
      net.routing.routeRecordTable.get frame.nwkHeader.source = some command.relays
  · rw [if_pos hknown, List.append_nil, hreplayed, eq_comm,
      storeRouteRecord_known_iff hdistinct hknown]
    exact ⟨fun hrecorded _ => hrecorded, fun hrepeats => hrepeats hknown⟩
  · rw [if_neg hknown, replayed_append]
    refine iff_of_true ?_ fun hget => absurd hget hknown
    show (Routing.storeRelays _ _).insert _ _ = (Routing.storeRelays _ _).insert _ _
    rw [hreplayed]

theorem Records.replayed {net : Net} {emitted : List ZigbeeNotification}
    (h : Records net emitted) :
    (replayed emitted).routeRecordTable = net.routing.routeRecordTable := by
  induction h with
  | start fresh => exact fresh.symm
  | record frame command _ distinct repeats handled ih =>
    exact (replayed_record_iff ih distinct handled).mpr repeats

/-- As long as a known record does not change the route of a relay, what the client was told gives
the same route records as the records themselves; and the next record keeps it so exactly if it
meets that condition. -/
theorem route_records_replayed_iff (net : Net) (emitted : List ZigbeeNotification)
    (h : Records net emitted) :
    (replayed emitted).routeRecordTable = net.routing.routeRecordTable ∧
    ∀ (frame : NwkFrame) (command : NwkRouteRecordCommand) (net' : Net),
      (frame.nwkHeader.source :: command.relays).Nodup →
      handleRouteRecord frame command net.drained = .ok ((), net') →
        ((replayed (emitted ++ net'.notifications)).routeRecordTable =
            net'.routing.routeRecordTable ↔
          Repeats net.routing frame.nwkHeader.source command.relays) :=
  ⟨h.replayed, fun _ _ _ => replayed_record_iff h.replayed⟩

namespace Example

/-- A concentrator that has just started. -/
def concentrator : Net := (ZigbeeStack.plain (.plain .coordinator 0 0) 0).net

/-- A record arrives, and the client is told of it. -/
def learns (net : Net) (source : Nwk) (relays : List Nwk) : Net :=
  { net with
    routing := (net.routing.storeRouteRecord source relays).2
    notifications := [.routeRecord source relays] }

/-- The record of node 9 arrives over the relays 1 and 2. -/
theorem records_first : Records (learns concentrator 9 [1, 2]) [.routeRecord 9 [1, 2]] :=
  @Records.record concentrator _ _ (recordOf 9) ⟨[1, 2]⟩ (.start rfl) (by decide)
    (fun hget => absurd hget (by decide +kernel)) rfl

/-- Node 1 sends a record of its own. -/
theorem handled_second : handleRouteRecord (recordOf 1) ⟨[3]⟩
    (learns concentrator 9 [1, 2]).drained =
      .ok ((), learns (learns concentrator 9 [1, 2]) 1 [3]) := rfl

end Example

open Driver.Example in
theorem route_records_replayed_iff_crossing :
    Records (learns concentrator 9 [1, 2]) [.routeRecord 9 [1, 2]] ∧
    (replayed [.routeRecord 9 [1, 2], .routeRecord 1 [3]]).routeRecordTable =
      (learns (learns concentrator 9 [1, 2]) 1 [3]).routing.routeRecordTable := by
  refine ⟨records_first, ?_⟩
  exact ((route_records_replayed_iff _ _ records_first).2 (recordOf 1) ⟨[3]⟩ _ (by decide)
    handled_second).mpr fun hget => absurd hget (by decide +kernel)

open Driver.Example in
/-- Then the record of node 9 comes again: it is known, and node 1 has its first route back, but
the client has the second one. -/
theorem route_records_lost : ∃ (net net' : Net) (emitted : List ZigbeeNotification),
    Records net emitted ∧
    handleRouteRecord (recordOf 9) ⟨[1, 2]⟩ net.drained = .ok ((), net') ∧
    net'.notifications = [] ∧ net'.routing.routeRecordTable.get 1 = some [2] ∧
    (replayed emitted).routeRecordTable.get 1 = some [3] := by
  have hsecond := Records.record (recordOf 1) ⟨[3]⟩ records_first (by decide)
    (fun hget => absurd hget (by decide +kernel)) handled_second
  exact ⟨_, _, _, hsecond, rfl, by decide +kernel, by decide +kernel, by decide +kernel⟩

/-! ## The longest record -/

/-- A record goes over no more relays than the limit. -/
theorem Path.length_le {record recorded : NwkFrame} {node last : Nwk} {routers : List Router}
    {maxSourceRoute : UInt8} (h : Path record node routers recorded last) {relays : List Nwk}
    (hrecord : record.payload = .command (.routeRecord ⟨relays⟩))
    (hlimit : ∀ router ∈ routers, router.env.tunables.maxSourceRoute = maxSourceRoute)
    (hrelays : relays.length ≤ maxSourceRoute.toNat) :
    relays.length + routers.length ≤ maxSourceRoute.toNat := by
  induction h generalizing relays with
  | arrived => exact hrelays
  | @relayed frame frame' _ _ _ _ router routers here hrelayed rest ih =>
    obtain ⟨hrouter, hrouters⟩ := List.forall_mem_cons.mp hlimit
    have hpayload := hrelayed.relayed.payload
    rw [hrecord, relayPayload, hrouter] at hpayload
    split at hpayload
    next => cases hpayload
    next hroom =>
      replace hroom : ¬ maxSourceRoute.toNat ≤ relays.length := hroom
      have hnext := @ih (relays ++ [router.env.networkAddress]) (Option.some.inj hpayload).symm
        hrouters (by
          rw [List.length_append, List.length_singleton]
          omega)
      rw [List.length_append, List.length_singleton] at hnext
      rw [List.length_cons]
      omega

/-- A source route is from a record, and not too long. -/
theorem routeTo_sourceRouted {routing : Routing} {destination : Nwk} {relays : List Nwk}
    {maxSourceRoute : UInt8}
    (h : routing.routeTo destination maxSourceRoute = .ok (some (.sourceRouted relays))) :
    relays ≠ [] ∧ relays.length < maxSourceRoute.toNat := by
  have hfallback : ∀ {x : Checked (Option Nwk)},
      (do return (← x).map .nextHop) ≠
        (.ok (some (.sourceRouted relays)) : Checked (Option Routing.Route)) := by
    intro x hx
    obtain ⟨nextHop, -, hx⟩ := Checked.bind_eq_ok.mp hx
    cases nextHop <;> cases hx
  unfold Routing.routeTo at h
  split at h
  · cases h
  · split at h
    next hlength =>
      cases h
      exact ⟨List.cons_ne_nil _ _, hlength⟩
    next => exact absurd h hfallback
  · exact absurd h hfallback

/-- A route record that all the relays on its way forward has no more relays than the limit, and
the concentrator embeds it exactly if it has fewer. -/
theorem route_record_embedded_iff (maxSourceRoute : UInt8) (recorders : List Router)
    {record recorded : NwkFrame} {device first concentrator : Nwk}
    {auxHeader : Option NwkAuxHeader} {command : NwkRouteRecordCommand} {net net' : Net}
    (hpos : 1 ≤ recorders.length)
    (hlimit : ∀ router ∈ recorders, router.env.tunables.maxSourceRoute = maxSourceRoute)
    (hsource : record.nwkHeader.source = device)
    (hrecord : record.payload = .command (.routeRecord ⟨[]⟩))
    (hpath : Path record first recorders recorded concentrator)
    (hrecorded : recorded.payload = .command (.routeRecord command))
    (hstored : handleRouteRecord { recorded with auxHeader } command net = .ok ((), net')) :
    recorders.length ≤ maxSourceRoute.toNat ∧
    (net'.routing.routeTo device maxSourceRoute =
        .ok (some (.sourceRouted (addresses recorders))) ↔
      recorders.length ≠ maxSourceRoute.toNat) := by
  have hle : recorders.length ≤ maxSourceRoute.toNat := by
    simpa using hpath.length_le hrecord hlimit (Nat.zero_le _)
  obtain ⟨hrelays, hsource'⟩ := hpath.routeRecord hrecord
  obtain rfl : command = ⟨addresses recorders⟩ := by
    rw [hrecorded, List.nil_append] at hrelays
    cases hrelays
    rfl
  have hlength : (addresses recorders).length = recorders.length := List.length_map ..
  have htable := (handleRouteRecord_routeTo hstored).1
  dsimp only at htable
  rw [hsource', hsource] at htable
  refine ⟨hle, fun hembedded hfull => ?_, fun hshort => ?_⟩
  · have := (routeTo_sourceRouted hembedded).2
    omega
  · unfold Routing.routeTo
    rw [htable]
    cases haddresses : addresses recorders with
    | nil =>
      rw [haddresses, List.length_nil] at hlength
      omega
    | cons relay relays =>
      rw [haddresses] at hlength
      exact if_pos (by omega)

namespace Example

/-- A router on the way to node 0 with a limit on route records. -/
def limited (maxSourceRoute : UInt8) (address : Nwk) : Router :=
  let router := onTheWay address 0
  { router with env := { router.env with tunables := { maxSourceRoute } } }

end Example

open Driver.Example in
/-- With a limit of two, the record of one relay is embedded. -/
theorem route_record_embedded_iff_one : ∃ recorded net',
    Path (recordOf 9) 1 [limited 2 1] recorded 0 ∧
    recorded.payload = .command (.routeRecord ⟨[1]⟩) ∧
    handleRouteRecord recorded ⟨[1]⟩ concentrator = .ok ((), net') ∧
    net'.routing.routeTo 9 2 = .ok (some (.sourceRouted [1])) := by
  have hpath : Path (recordOf 9) 1 [limited 2 1] _ 0 :=
    .relayed rfl ⟨_, rfl, rfl, _, rfl, rfl, rfl⟩ .arrived
  refine ⟨_, _, hpath, rfl, rfl, ?_⟩
  exact (@route_record_embedded_iff 2 [limited 2 1] (recordOf 9) _ 9 1 0 none ⟨[1]⟩ concentrator _
    (by decide) (by decide) rfl rfl hpath rfl rfl).2.mpr (by decide)

open Driver.Example in
/-- With a limit of one, the relay takes the record as well, and the concentrator has it and does
not use it. -/
theorem route_record_not_embedded : ∃ recorded net',
    Path (recordOf 9) 1 [limited 1 1] recorded 0 ∧
    recorded.payload = .command (.routeRecord ⟨[1]⟩) ∧
    handleRouteRecord recorded ⟨[1]⟩ concentrator = .ok ((), net') ∧
    net'.routing.routeTo 9 1 = .ok none := by
  have hpath : Path (recordOf 9) 1 [limited 1 1] _ 0 :=
    .relayed rfl ⟨_, rfl, rfl, _, rfl, rfl, rfl⟩ .arrived
  exact ⟨_, _, hpath, rfl, rfl, rfl⟩

end Ziggurat.Driver
