import Collector.Monitor
import Collector.Routing

/-!
# Pool, connections and monitor together

Connections publish their status under the id they were created with, the pool
pushes the asset mapping by position, and the monitor reads both as the same
number. The two agree while every connection sits at the position of its id.
That ends with a collection that moves a connection, and with a spawn after any
collection.
-/

namespace Collector.Health

open Monitor Pool

/-- The pool, the status channel, the last status each connection published, the
monitor, and the version of the mapping it has seen. -/
structure System where
  pool : Pool
  statusQueue : List (Nat × ConnStatus)
  lastPublished : Nat → Option ConnStatus
  monitor : Monitor
  seenVersion : Nat

/-- A new pool with its monitor. -/
def initial (maxAssetsPerConn : Nat) : System where
  pool := Pool.new maxAssetsPerConn
  statusQueue := []
  lastPublished := fun _ => none
  monitor := Monitor.new
  seenVersion := 0

/-- A pool call, a status published by a spawned connection, or the monitor
taking the next status or the newest mapping. -/
inductive Action where
  | call (call : Pool.Action)
  | publish (connId : Nat) (status : ConnStatus)
  | consume (clock : Clock)
  | refresh

/-- One step; the parts interleave freely. -/
def step (system : System) : Action → Option System
  | .call call => (Pool.step system.pool call).map fun pool => { system with pool := pool }
  | .publish connId status =>
    if connId < system.pool.nextConnId then some { system with
      statusQueue := system.statusQueue ++ [(connId, status)]
      lastPublished := Function.update system.lastPublished connId (some status) }
    else none
  | .consume clock =>
    match system.statusQueue with
    | [] => none
    | (connId, status) :: rest =>
      (system.monitor.onStatus connId status clock).map fun monitor =>
        { system with statusQueue := rest, monitor := monitor }
  | .refresh =>
    if system.seenVersion ≠ system.pool.assetConnsVersion then some { system with
      monitor := system.monitor.onMapping system.pool.assetConnsTx
      seenVersion := system.pool.assetConnsVersion }
    else none

/-- Both connections that carry the asset published Connected last. -/
def Up (system : System) (asset : String) : Prop :=
  ∀ handle ∈ system.pool.connections, asset ∈ handle.assets →
    system.lastPublished handle.connId = some .connected

/-- None of the connections that carry the asset published Connected last. -/
def Dark (system : System) (asset : String) : Prop :=
  ∀ handle ∈ system.pool.connections, asset ∈ handle.assets →
    system.lastPublished handle.connId ≠ some .connected

/-- The state is the health of the connections that carry the asset. -/
structure HealthOf (system : System) (asset : String) (state : AssetState) : Prop where
  healthy : state = .healthy ↔ Up system asset
  down : state = .down ↔ Dark system asset
  degraded : state = .degraded ↔ ¬ Up system asset ∧ ¬ Dark system asset

/-- Every connection sits at the position of its id. -/
def Aligned (pool : Pool) : Prop :=
  ∀ (idx : Nat) (handle : ConnHandle), pool.connections[idx]? = some handle → handle.connId = idx

/-- Behind an empty connection there are only empty ones. -/
def Trailing (connections : List ConnHandle) : Prop :=
  ∀ idx ∈ toGc connections, ∀ later, idx < later → later < connections.length →
    later ∈ toGc connections

/-- Where no connection is empty nothing is collected. -/
theorem trailing_of_none {connections : List ConnHandle} (none : toGc connections = []) :
    Trailing connections := by
  intro idx member
  rw [none] at member
  cases member

/-- The connections of a pool once the assets of some markets are removed. -/
def emptied (pool : Pool) (marketHashes : List String) : List ConnHandle :=
  dispatchUnsubscribe pool.connections (marketHashes.foldl removeMarket
    ⟨pool.markets, pool.assetToConns, fun _ => [], 0⟩).connUnsubs

/-- A subscription spawns only while ids and positions are in step, and an
unsubscription collects only from the end of the vector. -/
def Straight (pool : Pool) : Pool.Action → Prop
  | .subscribe markets first second =>
    pool.nextConnId = pool.connections.length ∨
      ∀ next, pool.subscribeMarkets markets first second = some next →
        next.nextConnId = pool.nextConnId
  | .unsubscribe marketHashes => Trailing (emptied pool marketHashes)

/-- The condition on a step of the whole system. -/
def StraightStep (system : System) : Action → Prop
  | .call call => Straight system.pool call
  | _ => True

/-- What the callers guarantee about a step of the whole system. -/
def Action.Proper (owner : String → String) : Action → Prop
  | .call made => made.Proper owner
  | _ => True

section Positions

/-- Nothing pending changes no connection. -/
theorem dispatchSubscribe_nothing (connections : List ConnHandle) :
    dispatchSubscribe connections (fun _ => []) = connections := by
  apply List.ext_getElem?
  intro idx
  rw [dispatchSubscribe, List.getElem?_mapIdx]
  simp

/-- A subscription keeps the connections in place and appends new ones with the
next ids; the mapping is pushed or stays as it was. -/
theorem subscribe_shape {pool next : Pool} {markets : List Market} {first second : Shuffle}
    (subscribed : pool.subscribeMarkets markets first second = some next) :
    (∃ added : List ConnHandle,
        (∀ idx handle, added[idx]? = some handle → handle.connId = pool.nextConnId + idx) ∧
        next.nextConnId = pool.nextConnId + added.length ∧
        ∃ pending, next.connections = dispatchSubscribe (pool.connections ++ added) pending) ∧
      (next = pool ∨ next.assetConnsVersion = pool.assetConnsVersion + 1) := by
  rcases subscribeMarkets_some subscribed with ⟨-, rfl⟩ | ⟨count, assignment, rfl⟩
  · refine ⟨⟨[], by simp, by simp, fun _ => [], ?_⟩, Or.inl rfl⟩
    rw [List.append_nil, dispatchSubscribe_nothing]
  · obtain ⟨added, length, -, numbered, spawned⟩ := spawnConnections_spec count
      (pool.register (pool.unregistered markets))
    rw [spawned]
    refine ⟨⟨added, numbered, ?_, assignment.pending, rfl⟩, Or.inr rfl⟩
    rw [length]
    rfl

/-- A subscription that spawns only in step keeps the alignment. -/
theorem Aligned.subscribe {pool next : Pool} (aligned : Aligned pool) {markets : List Market}
    {first second : Shuffle} (straight : Straight pool (.subscribe markets first second))
    (subscribed : pool.subscribeMarkets markets first second = some next) : Aligned next := by
  obtain ⟨⟨added, numbered, counted, pending, shape⟩, -⟩ := subscribe_shape subscribed
  intro idx handle present
  rw [shape] at present
  obtain ⟨before, found, same, -⟩ := getElem?_dispatchSubscribe present
  rw [same]
  rcases Nat.lt_or_ge idx pool.connections.length with isOld | isNew
  · rw [List.getElem?_append_left isOld] at found
    exact aligned idx before found
  · rw [List.getElem?_append_right isNew] at found
    have number := numbered _ before found
    have bounded := (List.getElem?_eq_some_iff.mp found).1
    rcases straight with inStep | spawnsNone
    · omega
    · have unchanged := spawnsNone next subscribed
      omega

/-- What holds while connections at the end of the vector are collected. -/
structure Shrinking (remaining : List Nat) (connections : List ConnHandle) : Prop where
  aligned : ∀ (idx : Nat) (handle : ConnHandle), connections[idx]? = some handle →
    handle.connId = idx
  descending : remaining.Pairwise (· > ·)
  inside : ∀ idx ∈ remaining, idx < connections.length
  trailing : ∀ idx ∈ remaining, ∀ later, idx < later → later < connections.length →
    later ∈ remaining

/-- The connection collected next is the last one, so nothing moves. -/
theorem Shrinking.removeConnection {idx : Nat} {rest : List Nat}
    {state : List ConnHandle × AssetConns} (shrinking : Shrinking (idx :: rest) state.1) :
    Shrinking rest (Pool.removeConnection state idx).1 := by
  obtain ⟨lower, descending⟩ := List.pairwise_cons.mp shrinking.descending
  have inside := shrinking.inside idx List.mem_cons_self
  have length : (Pool.removeConnection state idx).1.length = state.1.length - 1 :=
    SwapRemove.length_swapRemove state.1 idx
  have last : idx = state.1.length - 1 := by
    by_contra notLast
    have behind := shrinking.trailing idx List.mem_cons_self (state.1.length - 1) (by omega)
      (by omega)
    rcases List.mem_cons.mp behind with same | later
    · exact notLast same.symm
    · have before := lower _ later
      omega
  refine ⟨?_, descending, ?_, ?_⟩
  · intro position handle present
    have bounded : position < state.1.length - 1 :=
      length ▸ (List.getElem?_eq_some_iff.mp present).1
    change (SwapRemove.swapRemove state.1 idx)[position]? = some handle at present
    rw [SwapRemove.getElem?_swapRemove inside position bounded, if_neg (by omega)] at present
    exact shrinking.aligned position handle present
  · intro other member
    have before := lower other member
    rw [length]
    omega
  · intro other member later behind bounded
    rw [length] at bounded
    rcases List.mem_cons.mp (shrinking.trailing other (List.mem_cons_of_mem idx member) later behind
      (by omega)) with same | found
    · omega
    · exact found

/-- An unsubscription that collects only from the end keeps the alignment. -/
theorem Aligned.unsubscribe {pool : Pool} (aligned : Aligned pool) {marketHashes : List String}
    (straight : Straight pool (.unsubscribe marketHashes)) :
    Aligned (pool.unsubscribeMarkets marketHashes) := by
  have collected : ∀ (remaining : List Nat) (state : List ConnHandle × AssetConns),
      Shrinking remaining state.1 →
        Shrinking [] (remaining.foldl Pool.removeConnection state).1 := by
    intro remaining
    induction remaining with
    | nil => exact fun _ shrinking => shrinking
    | cons idx rest inductionHypothesis =>
      intro state shrinking
      exact inductionHypothesis _ shrinking.removeConnection
  have initially : Shrinking (toGc (emptied pool marketHashes)) (emptied pool marketHashes) := by
    refine ⟨?_, ?_, ?_, straight⟩
    · intro idx handle present
      obtain ⟨before, found, same, -⟩ := getElem?_dispatchUnsubscribe present
      rw [same]
      exact aligned idx before found
    · rw [toGc, List.pairwise_reverse]
      exact List.Pairwise.filter _ List.pairwise_lt_range
    · intro idx member
      simp only [toGc, List.mem_reverse, List.mem_filter, List.mem_range] at member
      exact member.1
  have finished := (collected _ (emptied pool marketHashes, (marketHashes.foldl removeMarket
    ⟨pool.markets, pool.assetToConns, fun _ => [], 0⟩).assetToConns) initially).aligned
  intro idx handle present
  apply finished idx handle
  unfold unsubscribeMarkets at present
  simp only at present
  split at present
  · exact present
  · exact present

/-- An unsubscription pushes the mapping or leaves it as it was. -/
theorem unsubscribe_version (pool : Pool) (marketHashes : List String) :
    ((pool.unsubscribeMarkets marketHashes).assetConnsVersion = pool.assetConnsVersion ∧
        (pool.unsubscribeMarkets marketHashes).assetConnsTx = pool.assetConnsTx) ∨
      (pool.unsubscribeMarkets marketHashes).assetConnsVersion = pool.assetConnsVersion + 1 := by
  unfold unsubscribeMarkets
  simp only
  split
  · exact Or.inr rfl
  · exact Or.inl ⟨rfl, rfl⟩

end Positions

/-- The statuses the monitor will have once it has consumed a queue. -/
def afterQueue (connStatus : AList (fun _ : Nat => ConnStatus))
    (queue : List (Nat × ConnStatus)) : AList (fun _ : Nat => ConnStatus) :=
  queue.foldl (fun statuses entry => statuses.insert entry.1 entry.2) connStatus

/-- A published status is the last one the monitor will have of its connection. -/
theorem lookup_afterQueue_append (connStatus : AList (fun _ : Nat => ConnStatus))
    (queue : List (Nat × ConnStatus)) (connId : Nat) (status : ConnStatus) (tested : Nat) :
    (afterQueue connStatus (queue ++ [(connId, status)])).lookup tested =
      Function.update (fun conn => (afterQueue connStatus queue).lookup conn) connId (some status)
        tested := by
  simp only [afterQueue, List.foldl_append, List.foldl_cons, List.foldl_nil]
  by_cases same : tested = connId
  · subst same
    rw [AList.lookup_insert, Function.update_self]
  · rw [AList.lookup_insert_ne same, Function.update_of_ne same]

/-- What holds in every state of a straight run. -/
structure Consistent (owner : String → String) (system : System) : Prop where
  routed : Routed owner system.pool
  aligned : Aligned system.pool
  derived : system.monitor.Derived
  delivered : ∀ connId, (afterQueue system.monitor.connStatus system.statusQueue).lookup connId =
    system.lastPublished connId
  seen : system.seenVersion ≤ system.pool.assetConnsVersion
  current : system.seenVersion = system.pool.assetConnsVersion →
    system.monitor.assetConns = system.pool.assetConnsTx

theorem consistent_initial (owner : String → String) {maxAssetsPerConn : Nat}
    (positive : 1 ≤ maxAssetsPerConn) : Consistent owner (initial maxAssetsPerConn) where
  routed := routed_new owner positive
  aligned := by simp [Aligned, initial, Pool.new]
  derived := derived_new
  delivered := by simp [afterQueue, initial, Monitor.new]
  seen := le_rfl
  current := fun _ => rfl

/-- A straight call keeps the system consistent. -/
theorem Consistent.call {owner : String → String} {system : System}
    (consistent : Consistent owner system) {made : Pool.Action} (proper : made.Proper owner)
    (straight : Straight system.pool made) {pool : Pool}
    (completed : Pool.step system.pool made = some pool) :
    Consistent owner { system with pool := pool } := by
  obtain ⟨next, alsoCompleted, routed⟩ := Routed.step system.pool made proper consistent.routed
  obtain rfl : pool = next := Option.some.inj (completed.symm.trans alsoCompleted)
  have pushed : (pool.assetConnsVersion = system.pool.assetConnsVersion ∧
      pool.assetConnsTx = system.pool.assetConnsTx) ∨
        pool.assetConnsVersion = system.pool.assetConnsVersion + 1 := by
    cases made with
    | subscribe markets first second =>
      rcases (subscribe_shape completed).2 with same | newer
      · exact Or.inl ⟨by rw [same], by rw [same]⟩
      · exact Or.inr newer
    | unsubscribe hashes =>
      obtain rfl := Option.some.inj completed
      exact unsubscribe_version system.pool hashes
  have seen := consistent.seen
  refine ⟨routed, ?_, consistent.derived, consistent.delivered, ?_, ?_⟩
  · cases made with
    | subscribe markets first second => exact consistent.aligned.subscribe straight completed
    | unsubscribe hashes =>
      obtain rfl := Option.some.inj completed
      exact consistent.aligned.unsubscribe straight
  · simp only
    rcases pushed with ⟨same, -⟩ | newer <;> omega
  · intro upToDate
    simp only at upToDate ⊢
    rcases pushed with ⟨same, sameMapping⟩ | newer
    · rw [sameMapping]
      exact consistent.current (by omega)
    · omega

/-- Every straight step keeps the system consistent. -/
theorem consistent_step {owner : String → String} (system : System) (action : Action)
    (next : System) (conditions : StraightStep system action ∧ action.Proper owner)
    (taken : step system action = some next) (consistent : Consistent owner system) :
    Consistent owner next := by
  obtain ⟨straight, proper⟩ := conditions
  cases action with
  | call made =>
    obtain ⟨pool, completed, rfl⟩ := Option.map_eq_some_iff.mp taken
    exact consistent.call proper straight completed
  | publish connId status =>
    simp only [step] at taken
    split at taken
    · obtain rfl := Option.some.inj taken
      refine ⟨consistent.routed, consistent.aligned, consistent.derived, ?_, consistent.seen,
        consistent.current⟩
      intro tested
      rw [lookup_afterQueue_append, funext consistent.delivered]
    · exact absurd taken (by simp)
  | consume clock =>
    have delivered := consistent.delivered
    simp only [step] at taken
    split at taken
    · exact absurd taken (by simp)
    · rename_i connId status rest queue
      obtain ⟨monitor, handled, rfl⟩ := Option.map_eq_some_iff.mp taken
      obtain ⟨after, alsoHandled, derived, sameMapping, statuses⟩ :=
        consistent.derived.onStatus connId status clock
      obtain rfl : monitor = after := Option.some.inj (handled.symm.trans alsoHandled)
      refine ⟨consistent.routed, consistent.aligned, derived, ?_, consistent.seen, ?_⟩
      · intro tested
        rw [queue] at delivered
        simp only [statuses]
        exact delivered tested
      · intro upToDate
        rw [sameMapping]
        exact consistent.current upToDate
  | refresh =>
    simp only [step] at taken
    split at taken
    · obtain rfl := Option.some.inj taken
      exact ⟨consistent.routed, consistent.aligned, Derived.onMapping _ _, consistent.delivered,
        le_rfl, fun _ => rfl⟩
    · exact absurd taken (by simp)

/-- The state computed from two statuses is healthy when both are Connected. -/
theorem stateOf_eq_healthy_iff (left right : ConnStatus) :
    stateOf left right = .healthy ↔ left = .connected ∧ right = .connected := by
  cases left <;> cases right <;> simp [stateOf]

theorem stateOf_eq_down_iff (left right : ConnStatus) :
    stateOf left right = .down ↔ left ≠ .connected ∧ right ≠ .connected := by
  cases left <;> cases right <;> simp [stateOf]

theorem stateOf_eq_degraded_iff (left right : ConnStatus) :
    stateOf left right = .degraded ↔ stateOf left right ≠ .healthy ∧ stateOf left right ≠ .down := by
  cases left <;> cases right <;> simp [stateOf]

/-- In a consistent state with nothing left to read, the monitor's states are the
health of the carrying connections. -/
theorem Consistent.health {owner : String → String} {system : System}
    (consistent : Consistent owner system) (consumed : system.statusQueue = [])
    (upToDate : system.seenVersion = system.pool.assetConnsVersion) {asset : String}
    (tracked : asset ∈ system.pool.assetToConns) :
    ∃ state, system.monitor.assetStates.lookup asset = some state ∧
      HealthOf system asset state := by
  obtain ⟨⟨c1, c2⟩, found⟩ := (Maps.mem_iff_lookup _ asset).mp tracked
  obtain ⟨-, first, second⟩ := consistent.routed.wired.valid asset c1 c2 found
  have mapping : system.monitor.assetConns = system.pool.assetToConns :=
    (consistent.current upToDate).trans consistent.routed.published
  have statuses : ∀ conn, statusOf system.monitor.connStatus conn = .connected ↔
      system.lastPublished conn = some .connected := by
    intro conn
    have delivered := consistent.delivered conn
    rw [consumed] at delivered
    rw [← delivered]
    simp only [statusOf, afterQueue, List.foldl_nil]
    cases system.monitor.connStatus.lookup conn with
    | none => simp
    | some status => simp
  -- the carriers are the connections at the two positions, and their ids are the positions
  have carriers : ∀ (property : Nat → Prop), (∀ handle ∈ system.pool.connections,
      asset ∈ handle.assets → property handle.connId) ↔ property c1 ∧ property c2 := by
    intro property
    have carried : ∀ (idx : Nat) (bounded : idx < system.pool.connections.length),
        idx = c1 ∨ idx = c2 → asset ∈ system.pool.connections[idx].assets := by
      intro idx bounded either
      exact (consistent.routed.wired.carries idx _ (List.getElem?_eq_getElem bounded) asset).mpr
        ⟨c1, c2, found, either⟩
    have numbered : ∀ (idx : Nat) (bounded : idx < system.pool.connections.length),
        system.pool.connections[idx].connId = idx :=
      fun idx bounded => consistent.aligned idx _ (List.getElem?_eq_getElem bounded)
    constructor
    · intro all
      have left := all _ (List.getElem_mem first) (carried c1 first (Or.inl rfl))
      have right := all _ (List.getElem_mem second) (carried c2 second (Or.inr rfl))
      rw [numbered c1 first] at left
      rw [numbered c2 second] at right
      exact ⟨left, right⟩
    · rintro ⟨left, right⟩ handle member carries
      obtain ⟨idx, present⟩ := List.mem_iff_getElem?.mp member
      obtain ⟨b1, b2, entry, either⟩ :=
        (consistent.routed.wired.carries idx handle present asset).mp carries
      obtain ⟨rfl, rfl⟩ := Prod.mk.inj (Option.some.inj (found.symm.trans entry))
      rw [consistent.aligned idx handle present]
      rcases either with rfl | rfl
      · exact left
      · exact right
  have up : Up system asset ↔ statusOf system.monitor.connStatus c1 = .connected ∧
      statusOf system.monitor.connStatus c2 = .connected := by
    rw [statuses, statuses]
    exact carriers fun conn => system.lastPublished conn = some .connected
  have dark : Dark system asset ↔ statusOf system.monitor.connStatus c1 ≠ .connected ∧
      statusOf system.monitor.connStatus c2 ≠ .connected := by
    rw [ne_eq, ne_eq, statuses, statuses]
    exact carriers fun conn => system.lastPublished conn ≠ some .connected
  refine ⟨stateOf (statusOf system.monitor.connStatus c1) (statusOf system.monitor.connStatus c2),
    ?_, ?_⟩
  · rw [consistent.derived.states asset, mapping, found]
    rfl
  · constructor
    · rw [up, stateOf_eq_healthy_iff]
    · rw [dark, stateOf_eq_down_iff]
    · rw [up, dark, ← stateOf_eq_healthy_iff, ← stateOf_eq_down_iff]
      exact stateOf_eq_degraded_iff _ _

/-- In every straight run, once the monitor has read everything, the state of
each tracked asset is the health of the two connections that carry it. -/
theorem health_of_carriers (maxAssetsPerConn : Nat) (positive : 1 ≤ maxAssetsPerConn)
    (owner : String → String) (actions : List Action) (final : System)
    (proper : ∀ action ∈ actions, action.Proper owner)
    (straight : Runs.Along step StraightStep (initial maxAssetsPerConn) actions)
    (completed : Runs.run step (initial maxAssetsPerConn) actions = some final)
    (consumed : final.statusQueue = [])
    (upToDate : final.seenVersion = final.pool.assetConnsVersion) :
    ∀ asset ∈ final.pool.assetToConns, ∃ state,
      final.monitor.assetStates.lookup asset = some state ∧ HealthOf final asset state := by
  have along := straight.and
    (Runs.along_of_forall _ actions fun action member _ => proper action member)
  have consistent : Consistent owner final :=
    Runs.invariant_along consistent_step along completed (consistent_initial owner positive)
  intro asset tracked
  exact consistent.health consumed upToDate tracked

/-- All clock readings of a step at one instant. -/
def instant (now : Nat) : Clock := ⟨now, now, fun _ => now⟩

/-- Two markets are subscribed and both their connections come up. One market goes and comes
again, and one of the connections is lost. -/
def oneUp : List Action :=
  [.call (.subscribe [firstMarket, secondMarket] .unchanged .unchanged), .publish 0 .connected,
    .publish 1 .connected, .refresh, .consume (instant 5), .call (.unsubscribe ["m1"]),
    .consume (instant 6), .refresh, .call (.subscribe [firstMarket] .unchanged .unchanged),
    .publish 1 .disconnected, .consume (instant 7), .refresh]

theorem one_up_health :
    ∃ final, Runs.run step (initial 8) oneUp = some final ∧
      final.monitor.assetStates.lookup "y1" = some .degraded ∧
      ∀ asset ∈ final.pool.assetToConns, ∃ state,
        final.monitor.assetStates.lookup asset = some state ∧ HealthOf final asset state := by
  refine ⟨_, rfl, by decide,
    health_of_carriers 8 (by decide) sampleOwner oneUp _ ?_ ?_ rfl rfl rfl⟩
  · intro action member
    cases action with
    | publish | consume | refresh => trivial
    | call call =>
      simp only [oneUp, List.mem_cons, List.not_mem_nil, or_false, reduceCtorEq, false_or,
        Action.call.injEq] at member
      rcases member with rfl | rfl | rfl
      · exact sample_batch
      · trivial
      · exact sample_batch.unregistered ((Pool.new 8).register [secondMarket])
  · exact .cons (Or.inl rfl) rfl <| .cons trivial rfl <| .cons trivial rfl <|
      .cons trivial rfl <| .cons trivial rfl <| .cons (trailing_of_none rfl) rfl <|
      .cons trivial rfl <|
      .cons trivial rfl <| .cons (Or.inl rfl) rfl <| .cons trivial rfl <| .cons trivial rfl <|
      .cons trivial rfl trivial

/-- A market comes and goes, and another one comes. Its two connections get the
ids 2 and 3 at the positions 0 and 1. -/
def respawned : List Action :=
  [.call (.subscribe [firstMarket] .unchanged .unchanged), .publish 0 .connected,
    .publish 1 .connected, .call (.unsubscribe ["m1"]), .publish 0 .disconnected,
    .publish 1 .disconnected, .call (.subscribe [secondMarket] .unchanged .unchanged),
    .publish 2 .connected, .publish 3 .connected, .refresh, .consume (instant 1),
    .consume (instant 2), .consume (instant 3), .consume (instant 4), .consume (instant 5),
    .consume (instant 6)]

/-- Both connections of the second market are up, and the monitor calls its
assets down. -/
theorem respawned_asset_reported_down :
    ∃ final, Runs.run step (initial 4) respawned = some final ∧
      final.statusQueue = [] ∧ final.seenVersion = final.pool.assetConnsVersion ∧
      "y2" ∈ final.pool.assetToConns ∧ Up final "y2" ∧
      final.monitor.assetStates.lookup "y2" = some .down := by
  refine ⟨_, rfl, rfl, rfl, by decide, ?_, by decide⟩
  intro handle member
  revert handle
  decide

end Collector.Health
