import Collector.Health

/-!
# The gauge of dead connections

The gauge counts the connections whose last status in the monitor is Disconnected,
and it is set only when the monitor recomputes. A first report of Disconnected
changes nothing that the monitor assumed, so it is recorded and not recomputed
for. And the monitor never hears that the pool collected a connection. The two
errors have opposite signs, and the gauge is right where they are equal.
-/

namespace Collector.Gauges

open Monitor Pool
open Health (System)

/-- The system, and how many first reports of Disconnected the monitor took since it
last set its gauges. -/
structure Watched where
  system : System
  unseen : Nat

/-- A new pool with its monitor. -/
def initial (maxAssetsPerConn : Nat) : Watched where
  system := Health.initial maxAssetsPerConn
  unseen := 0

/-- The first reports that the gauge does not show after a step. -/
def unseenAfter (watched : Watched) : Health.Action → Nat
  | .consume _ =>
    match watched.system.statusQueue with
    | [] => watched.unseen
    | (connId, status) :: _ =>
      if statusOf watched.system.monitor.connStatus connId ≠ status then 0
      else if connId ∈ watched.system.monitor.connStatus then watched.unseen
      else watched.unseen + 1
  | .refresh => 0
  | _ => watched.unseen

/-- One step of the system. -/
def step (watched : Watched) (action : Health.Action) : Option Watched :=
  (Health.step watched.system action).map fun next =>
    { system := next
      unseen := unseenAfter watched action }

/-- How many connections of the pool published Disconnected last. -/
def poolDown (system : System) : Nat :=
  (system.pool.connections.filter fun handle =>
    system.lastPublished handle.connId = some .disconnected).length

/-- How many connections that left the pool published Disconnected last. -/
def collectedDown (system : System) : Nat :=
  ((Finset.range system.pool.nextConnId).filter fun connId =>
    system.lastPublished connId = some .disconnected ∧
      connId ∉ system.pool.connections.map ConnHandle.connId).card

/-- Connections have different ids, all given out before. -/
structure Numbered (pool : Pool) : Prop where
  distinct : (pool.connections.map ConnHandle.connId).Nodup
  spawned : ∀ connId ∈ pool.connections.map ConnHandle.connId, connId < pool.nextConnId

section Numbers

/-- What is done to each connection leaves the ids as they are if it keeps each. -/
theorem connIds_mapIdx {change : Nat → ConnHandle → ConnHandle}
    (keeps : ∀ idx handle, (change idx handle).connId = handle.connId)
    (connections : List ConnHandle) :
    (connections.mapIdx change).map ConnHandle.connId = connections.map ConnHandle.connId := by
  apply List.ext_getElem?
  intro idx
  rw [List.getElem?_map, List.getElem?_map, List.getElem?_mapIdx, Option.map_map]
  congr 1
  funext handle
  exact keeps idx handle

theorem connIds_dispatchSubscribe (connections : List ConnHandle) (pending : Pending) :
    (dispatchSubscribe connections pending).map ConnHandle.connId =
      connections.map ConnHandle.connId := by
  apply connIds_mapIdx
  intro idx handle
  split <;> rfl

theorem connIds_dispatchUnsubscribe (connections : List ConnHandle) (connUnsubs : Pending) :
    (dispatchUnsubscribe connections connUnsubs).map ConnHandle.connId =
      connections.map ConnHandle.connId := by
  apply connIds_mapIdx
  intro idx handle
  split <;> rfl

/-- Collecting connections repeats no id and brings in none. -/
theorem connIds_collect {connections : List ConnHandle}
    (distinct : (connections.map ConnHandle.connId).Nodup) (idxs : List Nat)
    (assetToConns : AssetConns) :
    ((idxs.foldl removeConnection (connections, assetToConns)).1.map ConnHandle.connId).Nodup ∧
      ∀ handle ∈ (idxs.foldl removeConnection (connections, assetToConns)).1,
        handle ∈ connections := by
  induction idxs generalizing connections assetToConns with
  | nil => exact ⟨distinct, fun handle member => member⟩
  | cons idx rest inductionHypothesis =>
    obtain ⟨still, inside⟩ := inductionHypothesis
      (SwapRemove.nodup_map_swapRemove ConnHandle.connId distinct idx) _
    exact ⟨still, fun handle member => SwapRemove.mem_of_mem_swapRemove (inside handle member)⟩

/-- New connections get ids that were never given out. -/
theorem Numbered.spawn {pool : Pool} (numbered : Numbered pool) :
    Numbered pool.spawnConnection := by
  constructor
  · rw [spawnConnection, List.map_append, List.nodup_append]
    refine ⟨numbered.distinct, List.nodup_singleton _, ?_⟩
    intro connId member other isNew
    obtain rfl := List.mem_singleton.mp isNew
    exact Nat.ne_of_lt (numbered.spawned connId member)
  · intro connId member
    rw [spawnConnection, List.map_append] at member
    rcases List.mem_append.mp member with old | new
    · exact Nat.lt_succ_of_lt (numbered.spawned connId old)
    · rw [List.mem_singleton.mp new]
      exact Nat.lt_succ_self _

theorem Numbered.spawnConnections {pool : Pool} (numbered : Numbered pool) (count : Nat) :
    Numbered (Pool.spawnConnections count pool) ∧
      pool.nextConnId ≤ (Pool.spawnConnections count pool).nextConnId := by
  induction count generalizing pool with
  | zero => exact ⟨numbered, le_rfl⟩
  | succ count inductionHypothesis =>
    obtain ⟨still, grown⟩ := inductionHypothesis numbered.spawn
    exact ⟨still, (Nat.le_succ _).trans grown⟩

/-- Every call keeps the connections numbered and gives no id back. -/
theorem Numbered.step {pool next : Pool} {call : Pool.Action} (numbered : Numbered pool)
    (taken : Pool.step pool call = some next) :
    Numbered next ∧ pool.nextConnId ≤ next.nextConnId := by
  cases call with
  | subscribe markets first second =>
    rcases subscribeMarkets_some taken with ⟨-, rfl⟩ | ⟨count, assignment, rfl⟩
    · exact ⟨numbered, le_rfl⟩
    · have registered : Numbered (pool.register (pool.unregistered markets)) :=
        ⟨numbered.distinct, numbered.spawned⟩
      obtain ⟨still, grown⟩ := registered.spawnConnections count
      refine ⟨⟨?_, ?_⟩, grown⟩
      · rw [updateMonitorMappings, connIds_dispatchSubscribe]
        exact still.distinct
      · rw [updateMonitorMappings, connIds_dispatchSubscribe]
        exact still.spawned
  | unsubscribe marketHashes =>
    obtain rfl := Option.some.inj taken
    have same := connIds_dispatchUnsubscribe pool.connections (marketHashes.foldl removeMarket
      ⟨pool.markets, pool.assetToConns, fun _ => [], 0⟩).connUnsubs
    have collected := connIds_collect (same.symm ▸ numbered.distinct)
    have bounded (idxs : List Nat) (assetToConns : AssetConns) : ∀ connId ∈
        (idxs.foldl removeConnection (dispatchUnsubscribe pool.connections
          (marketHashes.foldl removeMarket
            ⟨pool.markets, pool.assetToConns, fun _ => [], 0⟩).connUnsubs,
          assetToConns)).1.map ConnHandle.connId, connId < pool.nextConnId := by
      intro connId member
      obtain ⟨handle, inside, rfl⟩ := List.mem_map.mp member
      apply numbered.spawned
      rw [← same]
      exact List.mem_map_of_mem ((collected idxs assetToConns).2 handle inside)
    unfold unsubscribeMarkets
    simp only
    split
    · exact ⟨⟨(collected _ _).1, bounded _ _⟩, le_rfl⟩
    · exact ⟨⟨(collected _ _).1, bounded _ _⟩, le_rfl⟩

end Numbers

/-- Recomputing an asset changes no status. -/
theorem assetTransition_connStatus {clock : Clock} {monitor next : Monitor} {asset : String}
    (moved : assetTransition clock monitor asset = some next) :
    next.connStatus = monitor.connStatus := by
  simp only [assetTransition] at moved
  split at moved
  · obtain rfl := Option.some.inj moved
    rfl
  · obtain ⟨conns, -, isNext⟩ := Option.bind_eq_some_iff.mp moved
    obtain rfl := Option.some.inj isNext
    obtain ⟨times, counters, exited⟩ := exitState_frame { monitor with
      assetStates := monitor.assetStates.insert asset
        (computeAssetState asset monitor.connStatus monitor.assetConns) } asset
      ((monitor.assetStates.lookup asset).getD .down) clock
    rw [exited]
    obtain ⟨_, _, entered⟩ := enterState_frame { monitor with
      assetStates := monitor.assetStates.insert asset
        (computeAssetState asset monitor.connStatus monitor.assetConns)
      assetTransitionTime := times
      counters := counters } asset
      (computeAssetState asset monitor.connStatus monitor.assetConns) clock
    rw [entered]

/-- A status event stores the status. It sets the gauge unless the monitor
assumed that status already. -/
theorem onStatus_gauge {monitor next : Monitor} {connId : Nat} {status : ConnStatus}
    {clock : Clock} (handled : monitor.onStatus connId status clock = some next) :
    next.connStatus = monitor.connStatus.insert connId status ∧
      next.counters.connsDown = if statusOf monitor.connStatus connId = status
        then monitor.counters.connsDown
        else countValues .disconnected (monitor.connStatus.insert connId status) := by
  simp only [Monitor.onStatus] at handled
  split at handled
  · rename_i assumed
    obtain rfl := Option.some.inj handled
    exact ⟨rfl, (if_pos assumed).symm⟩
  · rename_i news
    obtain ⟨recomputed, completed, isNext⟩ := Option.bind_eq_some_iff.mp handled
    obtain rfl := Option.some.inj isNext
    have kept : ∀ state asset after, assetTransition clock state asset = some after →
        state.connStatus = monitor.connStatus.insert connId status →
          after.connStatus = monitor.connStatus.insert connId status :=
      fun state asset after moved same => (assetTransition_connStatus moved).trans same
    have stored : recomputed.connStatus = monitor.connStatus.insert connId status := by
      apply Runs.invariant kept completed
      obtain ⟨since, counters, booked⟩ := connTransition_frame { monitor with
        connStatus := monitor.connStatus.insert connId status } connId
        (statusOf monitor.connStatus connId) status clock
      rw [booked]
    rw [if_neg news, ← stored]
    unfold finishStartup
    split <;> exact ⟨rfl, rfl⟩

/-- What holds in every state: the gauge misses the first reports of Disconnected
that came since it was set, and nothing else the monitor has read. -/
structure Counted (watched : Watched) : Prop where
  numbered : Numbered watched.system.pool
  unspawned : ∀ connId, watched.system.pool.nextConnId ≤ connId →
    watched.system.lastPublished connId = none
  delivered : ∀ connId, (Health.afterQueue watched.system.monitor.connStatus
    watched.system.statusQueue).lookup connId = watched.system.lastPublished connId
  counted : watched.system.monitor.counters.connsDown + watched.unseen =
    countValues .disconnected watched.system.monitor.connStatus

theorem counted_initial (maxAssetsPerConn : Nat) : Counted (initial maxAssetsPerConn) where
  numbered := ⟨List.nodup_nil, by simp [initial, Health.initial, Pool.new]⟩
  unspawned := fun _ _ => rfl
  delivered := fun _ => rfl
  counted := rfl

/-- A status that the monitor takes is shown by the gauge or added to the reports
it misses. -/
theorem Counted.consume {watched next : Watched} {clock : Clock} (counted : Counted watched)
    (taken : step watched (.consume clock) = some next) : Counted next := by
  obtain ⟨numbered, unspawned, delivered, missed⟩ := counted
  obtain ⟨system, moved, rfl⟩ := Option.map_eq_some_iff.mp taken
  simp only [Health.step] at moved
  split at moved
  · exact absurd moved (by simp)
  · rename_i connId status rest queue
    obtain ⟨monitor, handled, rfl⟩ := Option.map_eq_some_iff.mp moved
    obtain ⟨stored, gauge⟩ := onStatus_gauge handled
    refine ⟨numbered, unspawned, ?_, ?_⟩
    · intro tested
      rw [queue] at delivered
      simp only [stored]
      exact delivered tested
    · simp only [unseenAfter, queue, stored, gauge]
      by_cases assumed : statusOf watched.system.monitor.connStatus connId = status
      · rw [if_pos assumed, if_neg (not_not_intro assumed)]
        by_cases known : connId ∈ watched.system.monitor.connStatus
        · obtain ⟨last, found⟩ := (Maps.mem_iff_lookup _ connId).mp known
          obtain rfl : last = status := by rw [← assumed, statusOf, found, Option.getD_some]
          rw [if_pos known, missed]
          exact (Maps.countP_insert_same found .disconnected).symm
        · -- an unknown connection is assumed to be down
          obtain rfl : ConnStatus.disconnected = status := by
            rw [← assumed, statusOf, AList.lookup_eq_none.mpr known, Option.getD_none]
          rw [if_neg known, ← Nat.add_assoc, missed]
          exact (Maps.countP_insert_new known .disconnected .disconnected).symm
      · rw [if_neg assumed, if_pos assumed, Nat.add_zero]

/-- Every step keeps the count. -/
theorem counted_step (watched : Watched) (action : Health.Action) (next : Watched)
    (taken : step watched action = some next) (counted : Counted watched) : Counted next := by
  cases action with
  | consume clock => exact counted.consume taken
  | call made =>
    obtain ⟨system, moved, rfl⟩ := Option.map_eq_some_iff.mp taken
    obtain ⟨pool, completed, rfl⟩ := Option.map_eq_some_iff.mp moved
    obtain ⟨numbered, grown⟩ := counted.numbered.step completed
    exact ⟨numbered, fun connId notSpawned => counted.unspawned connId (grown.trans notSpawned),
      counted.delivered, counted.counted⟩
  | publish connId status =>
    obtain ⟨system, moved, rfl⟩ := Option.map_eq_some_iff.mp taken
    obtain ⟨spawned, rfl⟩ := Runs.guarded moved
    refine ⟨counted.numbered, ?_, ?_, counted.counted⟩
    · intro tested notSpawned
      have other : tested ≠ connId := (Nat.lt_of_lt_of_le spawned notSpawned).ne'
      simp only [Function.update_of_ne other]
      exact counted.unspawned tested notSpawned
    · intro tested
      rw [Health.lookup_afterQueue_append, funext counted.delivered]
  | refresh =>
    obtain ⟨system, moved, rfl⟩ := Option.map_eq_some_iff.mp taken
    obtain ⟨-, rfl⟩ := Runs.guarded moved
    exact ⟨counted.numbered, counted.unspawned, counted.delivered, rfl⟩

/-- The pool's connections that published Disconnected last, counted by their ids. -/
theorem Numbered.poolDown_eq {system : Health.System} (numbered : Numbered system.pool) :
    poolDown system = ((Finset.range system.pool.nextConnId).filter fun connId =>
      system.lastPublished connId = some .disconnected ∧
        connId ∈ system.pool.connections.map ConnHandle.connId).card := by
  have downDistinct : ((system.pool.connections.filter fun handle =>
      system.lastPublished handle.connId = some .disconnected).map ConnHandle.connId).Nodup :=
    numbered.distinct.sublist (List.filter_sublist.map ConnHandle.connId)
  rw [poolDown, ← List.length_map ConnHandle.connId, ← List.toFinset_card_of_nodup downDistinct]
  congr 1
  ext connId
  simp only [List.mem_toFinset, List.mem_map, List.mem_filter, decide_eq_true_eq,
    Finset.mem_filter, Finset.mem_range]
  constructor
  · rintro ⟨handle, ⟨member, down⟩, rfl⟩
    exact ⟨numbered.spawned _ (List.mem_map_of_mem member), down, handle, member, rfl⟩
  · rintro ⟨-, down, handle, member, rfl⟩
    exact ⟨handle, ⟨member, down⟩, rfl⟩

/-- Once every status is read, the gauge and the reports it misses make up the
connections that published Disconnected last, in the pool or out of it. -/
theorem Counted.balance {watched : Watched} (counted : Counted watched)
    (consumed : watched.system.statusQueue = []) :
    watched.system.monitor.counters.connsDown + watched.unseen =
      poolDown watched.system + collectedDown watched.system := by
  obtain ⟨numbered, unspawned, delivered, missed⟩ := counted
  rw [consumed] at delivered
  change ∀ connId, watched.system.monitor.connStatus.lookup connId = _ at delivered
  have known : ∀ connId ∈ watched.system.monitor.connStatus,
      connId ∈ Finset.range watched.system.pool.nextConnId := by
    intro connId member
    by_contra beyond
    obtain ⟨status, found⟩ := (Maps.mem_iff_lookup _ connId).mp member
    rw [delivered, unspawned connId (by simpa using beyond)] at found
    exact absurd found (by simp)
  rw [missed, countValues, Maps.countP_entries _ _ known, numbered.poolDown_eq, collectedDown,
    ← Finset.filter_filter, ← Finset.filter_filter, Finset.card_filter_add_card_filter_not]
  simp only [delivered]

/-- In every run, once every published status is read, the gauge is the number of
the pool's connections that published Disconnected last exactly when the first
reports it misses are as many as the collected connections it still counts. -/
theorem gauge_counts_dead_iff (maxAssetsPerConn : Nat) (actions : List Health.Action)
    (final : Watched) (completed : Runs.run step (initial maxAssetsPerConn) actions = some final)
    (consumed : final.system.statusQueue = []) :
    final.system.monitor.counters.connsDown = poolDown final.system ↔
      final.unseen = collectedDown final.system := by
  have counted : Counted final :=
    Runs.invariant counted_step completed (counted_initial maxAssetsPerConn)
  have balance := counted.balance consumed
  omega

/-- Two connections come up, one of them goes down, and both are collected. Of the next two one
comes up and the other fails with its first report: the gauge counts the collected connection
instead of it. -/
def oneDown : List Health.Action :=
  [.call (.subscribe [firstMarket] .unchanged .unchanged), .publish 0 .connected,
    .publish 1 .connected, .publish 0 .disconnected, .consume (Health.instant 1),
    .consume (Health.instant 2), .consume (Health.instant 3), .call (.unsubscribe ["m1"]),
    .call (.subscribe [secondMarket] .unchanged .unchanged), .publish 2 .connected,
    .publish 3 .disconnected, .consume (Health.instant 4), .consume (Health.instant 5)]

theorem one_down_gauge :
    ∃ final, Runs.run step (initial 4) oneDown = some final ∧
      (final.system.monitor.counters.connsDown = poolDown final.system ↔
        final.unseen = collectedDown final.system) ∧
      poolDown final.system = 1 ∧ final.unseen = 1 ∧ collectedDown final.system = 1 :=
  ⟨_, rfl, gauge_counts_dead_iff 4 oneDown _ rfl rfl, by decide, by decide, by decide⟩

/-- A market comes and goes. Its connections close and are collected. -/
def collected : List Health.Action :=
  [.call (.subscribe [firstMarket] .unchanged .unchanged), .publish 0 .connected,
    .publish 1 .connected, .consume (Health.instant 1), .consume (Health.instant 2),
    .call (.unsubscribe ["m1"]), .publish 0 .disconnected, .publish 1 .disconnected,
    .consume (Health.instant 3), .consume (Health.instant 4)]

/-- The pool is empty, and the gauge counts two dead connections. -/
theorem collected_connections_counted :
    ∃ final, Runs.run step (initial 4) collected = some final ∧
      final.system.statusQueue = [] ∧ poolDown final.system = 0 ∧
      final.system.monitor.counters.connsDown = 2 :=
  ⟨_, rfl, rfl, by decide, by decide⟩

/-- Both connections fail to connect at first; the gauge says that none is down. -/
example :
    (Runs.run step (initial 4)
      [.call (.subscribe [firstMarket] .unchanged .unchanged), .publish 0 .disconnected,
        .publish 1 .disconnected, .consume (Health.instant 1),
        .consume (Health.instant 2)]).map (fun final =>
        (poolDown final.system, final.system.monitor.counters.connsDown)) = some (2, 0) := by
  decide

end Collector.Gauges
