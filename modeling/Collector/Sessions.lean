import Collector.Connection
import Collector.Gauges

/-!
# The pool and its connection tasks

The pool's calls put each asset of a registered market on two connections and tell them so by
commands. The tasks take the commands when they can, go through sessions that fail and come
back, and announce to the server what they want. Connections that the pool has let go still have
their last command to take.

A call is one step here, and the sends it waits for are steps of their own; the next call
comes only when they are all done. Once nothing is on its way to a listening task, its session
announces an asset just if the asset is of a registered market and the pool has the connection
for it.
-/

namespace Collector.Sessions

open Pool Replay

/-- The pool, the handles it has let go, and the tasks by connection id. -/
structure Service where
  pool : Pool
  collected : List ConnHandle
  tasks : List Connection.State

/-- A call of the pool; the next command is sent to a connection; a connection that was let go
loses its sender; a step of a connection's own. -/
inductive Action where
  | call (call : Pool.Action)
  | send (connId : Nat)
  | release (connId : Nat)
  | task (connId : Nat) (action : Connection.Action)

/-- The handles that an unsubscription removes: those left without assets. -/
def collectedBy (pool : Pool) : Pool.Action → List ConnHandle
  | .subscribe _ _ _ => []
  | .unsubscribe marketHashes =>
    (dispatchUnsubscribe pool.connections (marketHashes.foldl removeMarket
      ⟨pool.markets, pool.assetToConns, fun _ => [], 0⟩).connUnsubs).filter fun handle =>
        handle.assets = ∅

namespace Service

/-- An empty pool. -/
def start (maxAssetsPerConn : Nat) : Service where
  pool := .new maxAssetsPerConn
  collected := []
  tasks := []

/-- All handles there ever were. -/
def handles (service : Service) : List ConnHandle := service.pool.connections ++ service.collected

/-- A task has been sent all commands of its handle. -/
def told (service : Service) (handle : ConnHandle) : Bool :=
  match service.tasks[handle.connId]? with
  | some task => task.handle.cmdTx = handle.cmdTx ∧ task.waiting = none
  | none => false

/-- No send is left of the last call. -/
def quiet (service : Service) : Bool := service.handles.all service.told

/-- The steps that a task takes by itself or by the channel. -/
def own : Connection.Action → Bool
  | .dispatch _ | .dropSender => false
  | _ => true

/-- A step of one task. -/
def stepTask (service : Service) (connId : Nat) (action : Connection.Action) : Option Service := do
  let task ← service.tasks[connId]?
  let next ← Connection.step task action
  some { service with tasks := service.tasks.set connId next }

def step (service : Service) : Action → Option Service
  | .call call =>
    if service.quiet then
      (Pool.step service.pool call).map fun next => {
        pool := next
        collected := service.collected ++ collectedBy service.pool call
        tasks := service.tasks ++ (List.range' service.pool.nextConnId
          (next.nextConnId - service.pool.nextConnId)).map Connection.initial }
    else none
  | .send connId => do
    let handle ← service.handles.find? fun handle => handle.connId = connId
    let task ← service.tasks[connId]?
    let command ← handle.cmdTx[task.handle.cmdTx.length]?
    service.stepTask connId (.dispatch command)
  | .release connId =>
    if service.collected.any fun handle => handle.connId = connId ∧ service.told handle then
      service.stepTask connId .dropSender
    else none
  | .task connId action => if own action then service.stepTask connId action else none

end Service

/-- A handle after some more commands. -/
def Extends (before after : ConnHandle) : Prop :=
  ∃ commands : List Command, after = commands.foldl ConnHandle.tell before

namespace Extends

theorem refl (handle : ConnHandle) : Extends handle handle := ⟨[], rfl⟩

theorem tell (handle : ConnHandle) (command : Command) : Extends handle (handle.tell command) :=
  ⟨[command], rfl⟩

variable {before after : ConnHandle}

theorem connId (grown : Extends before after) : after.connId = before.connId := by
  obtain ⟨commands, rfl⟩ := grown
  induction commands generalizing before with
  | nil => rfl
  | cons command rest inductionHypothesis =>
    rw [List.foldl_cons, inductionHypothesis, ConnHandle.tell]

theorem cmdTx (grown : Extends before after) : before.cmdTx <+: after.cmdTx := by
  obtain ⟨commands, rfl⟩ := grown
  induction commands generalizing before with
  | nil => exact List.prefix_refl _
  | cons command rest inductionHypothesis =>
    have later : (before.tell command).cmdTx <+:
        (rest.foldl ConnHandle.tell (before.tell command)).cmdTx := inductionHypothesis
    exact (List.prefix_append _ _).trans later

end Extends

/-- A handle records the assets that its commands ask for. -/
def Recorded (handle : ConnHandle) : Prop :=
  handle.assets = replay ∅ (handle.cmdTx.map Command.delta)

theorem Recorded.tell {handle : ConnHandle} (recorded : Recorded handle) (command : Command) :
    Recorded (handle.tell command) := by
  rw [Recorded, ConnHandle.tell, List.map_append, replay_append, ← recorded]
  rfl

theorem Recorded.extend {before after : ConnHandle} (recorded : Recorded before)
    (grown : Extends before after) : Recorded after := by
  obtain ⟨commands, rfl⟩ := grown
  induction commands generalizing before with
  | nil => exact recorded
  | cons command rest inductionHypothesis => exact inductionHypothesis (recorded.tell command)

section Calls

/-- Connections spawned at the end have been told nothing. -/
theorem spawnConnections_eq (count : Nat) (pool : Pool) :
    spawnConnections count pool = { pool with
      connections := pool.connections ++
        (List.range' pool.nextConnId count).map fun connId => ⟨connId, ∅, []⟩
      nextConnId := pool.nextConnId + count } := by
  induction count generalizing pool with
  | zero => simp [spawnConnections]
  | succ count inductionHypothesis =>
    rw [spawnConnections, inductionHypothesis, spawnConnection, List.range'_succ]
    simp [Nat.add_assoc, Nat.add_comm 1 count]

theorem extends_dispatchSubscribe {connections : List ConnHandle} {pending : Pending}
    {handle : ConnHandle} (member : handle ∈ dispatchSubscribe connections pending) :
    ∃ before ∈ connections, Extends before handle := by
  obtain ⟨idx, inside, rfl⟩ := List.mem_mapIdx.mp member
  refine ⟨connections[idx], List.getElem_mem inside, ?_⟩
  split
  · exact Extends.refl _
  · exact Extends.tell _ (.subscribe (pending idx))

theorem extends_dispatchUnsubscribe {connections : List ConnHandle} {connUnsubs : Pending}
    {handle : ConnHandle} (member : handle ∈ dispatchUnsubscribe connections connUnsubs) :
    ∃ before ∈ connections, Extends before handle := by
  obtain ⟨idx, inside, rfl⟩ := List.mem_mapIdx.mp member
  refine ⟨connections[idx], List.getElem_mem inside, ?_⟩
  split
  · exact Extends.refl _
  · exact Extends.tell _ (.unsubscribe (connUnsubs idx))

/-- A connection that is not the removed one stays. -/
theorem mem_swapRemove {α : Type} {values : List α} {idx : Nat} {value removed : α}
    (present : values[idx]? = some removed) (member : value ∈ values) (other : value ≠ removed) :
    value ∈ SwapRemove.swapRemove values idx := by
  obtain ⟨inside, rfl⟩ := List.getElem?_eq_some_iff.mp present
  obtain ⟨position, before, rfl⟩ := List.mem_iff_getElem.mp member
  have stays : position ≠ idx := by
    rintro rfl
    exact other rfl
  have found := SwapRemove.getElem?_moved inside before stays
  rw [List.getElem?_eq_getElem before] at found
  exact List.mem_of_getElem? found

/-- Collecting takes away no connection with assets. -/
theorem mem_collect {old : AssetConns} {remaining : List Nat}
    {state : List ConnHandle × AssetConns} (collecting : Collecting old remaining state)
    {handle : ConnHandle} (member : handle ∈ state.1) (holds : handle.assets ≠ ∅) :
    handle ∈ (remaining.foldl removeConnection state).1 := by
  induction remaining generalizing state with
  | nil => exact member
  | cons idx rest inductionHypothesis =>
    have inside := collecting.inside idx List.mem_cons_self
    have present := List.getElem?_eq_getElem inside
    have empty := (collecting.empty_iff idx _ present).mpr List.mem_cons_self
    refine inductionHypothesis collecting.removeConnection ?_
    exact mem_swapRemove present member fun same => holds (same ▸ empty)

/-- What a call does to the handles: each old one has been told something or nothing, new ones
have the next ids, and those let go have no assets. -/
structure Called (pool next : Pool) (gone : List ConnHandle) : Prop where
  grown : pool.nextConnId ≤ next.nextConnId
  origin : ∀ handle ∈ next.connections ++ gone,
    (∃ before ∈ pool.connections, Extends before handle) ∨
      pool.nextConnId ≤ handle.connId ∧ handle.connId < next.nextConnId ∧
        Extends ⟨handle.connId, ∅, []⟩ handle
  distinct : ((next.connections ++ gone).map ConnHandle.connId).Nodup
  complete : ∀ connId, connId ∈ pool.connections.map ConnHandle.connId ∨
      pool.nextConnId ≤ connId ∧ connId < next.nextConnId →
    connId ∈ (next.connections ++ gone).map ConnHandle.connId
  empty : ∀ handle ∈ gone, handle.assets = ∅

theorem called_subscribe {pool next : Pool} {markets : List Market} {first second : Shuffle}
    (numbered : Gauges.Numbered pool)
    (taken : pool.subscribeMarkets markets first second = some next) : Called pool next [] := by
  have stepped : Pool.step pool (.subscribe markets first second) = some next := taken
  obtain ⟨distinct, grown⟩ := numbered.step stepped
  obtain ⟨_, rfl⟩ | ⟨count, assignment, rfl⟩ := subscribeMarkets_some taken
  · refine ⟨grown, ?_, ?_, ?_, nofun⟩
    · intro handle member
      rw [List.append_nil] at member
      exact .inl ⟨handle, member, Extends.refl handle⟩
    · rw [List.append_nil]
      exact distinct.distinct
    · intro connId either
      rw [List.append_nil]
      exact either.resolve_right (by omega)
  · have spawned := spawnConnections_eq count (pool.register (pool.unregistered markets))
    rw [spawned] at distinct ⊢
    refine ⟨Nat.le_add_right _ _, ?_, ?_, ?_, nofun⟩
    · intro handle member
      rw [List.append_nil] at member
      obtain ⟨before, present, extended⟩ := extends_dispatchSubscribe member
      obtain old | new := List.mem_append.mp present
      · exact .inl ⟨before, old, extended⟩
      · obtain ⟨connId, inRange, rfl⟩ := List.mem_map.mp new
        obtain ⟨lower, upper⟩ := List.mem_range'_1.mp inRange
        have same : handle.connId = connId := extended.connId
        rw [same]
        exact .inr ⟨lower, upper, extended⟩
    · rw [List.append_nil]
      exact distinct.distinct
    · intro connId either
      rw [List.append_nil, updateMonitorMappings, Gauges.connIds_dispatchSubscribe,
        List.map_append, List.mem_append]
      obtain old | new := either
      · exact .inl old
      · refine .inr (List.mem_map.mpr ⟨⟨connId, ∅, []⟩, ?_, rfl⟩)
        exact List.mem_map.mpr ⟨connId, List.mem_range'_1.mpr new, rfl⟩

theorem called_unsubscribe {owner : String → String} {pool : Pool}
    (numbered : Gauges.Numbered pool) (routed : Routed owner pool) (marketHashes : List String) :
    Called pool (pool.unsubscribeMarkets marketHashes)
      (collectedBy pool (.unsubscribe marketHashes)) := by
  have stepped : Pool.step pool (.unsubscribe marketHashes) =
      some (pool.unsubscribeMarkets marketHashes) := rfl
  obtain ⟨distinct, grown⟩ := numbered.step stepped
  have nonempty := (routed.unsubscribe marketHashes).nonempty
  have removing := routed.removing marketHashes
  let removal := marketHashes.foldl removeMarket ⟨pool.markets, pool.assetToConns, fun _ => [], 0⟩
  let told := dispatchUnsubscribe pool.connections removal.connUnsubs
  have ids : told.map ConnHandle.connId = pool.connections.map ConnHandle.connId :=
    Gauges.connIds_dispatchUnsubscribe _ _
  have toldDistinct : (told.map ConnHandle.connId).Nodup := ids ▸ numbered.distinct
  have collecting := collecting_toGc (routed.wired.unsubscribe removing.noted)
  have connections : (pool.unsubscribeMarkets marketHashes).connections =
      ((toGc told).foldl removeConnection (told, removal.assetToConns)).1 := by
    unfold unsubscribeMarkets
    simp only
    split <;> rfl
  have nextConnId : (pool.unsubscribeMarkets marketHashes).nextConnId = pool.nextConnId := by
    unfold unsubscribeMarkets
    simp only
    split <;> rfl
  have stays : ∀ handle ∈ (pool.unsubscribeMarkets marketHashes).connections, handle ∈ told := by
    rw [connections]
    exact (Gauges.connIds_collect toldDistinct _ _).2
  have gone : ∀ handle ∈ collectedBy pool (.unsubscribe marketHashes),
      handle ∈ told ∧ handle.assets = ∅ := by
    intro handle member
    obtain ⟨inTold, empty⟩ := List.mem_filter.mp member
    exact ⟨inTold, of_decide_eq_true empty⟩
  refine ⟨grown, ?_, ?_, ?_, fun handle member => (gone handle member).2⟩
  · intro handle member
    have inTold : handle ∈ told := by
      obtain left | right := List.mem_append.mp member
      · exact stays handle left
      · exact (gone handle right).1
    exact .inl (extends_dispatchUnsubscribe inTold)
  · rw [List.map_append, List.nodup_append]
    refine ⟨distinct.distinct, toldDistinct.sublist (List.filter_sublist.map _), ?_⟩
    intro left isLeft right isRight same
    obtain ⟨kept, inNext, rfl⟩ := List.mem_map.mp isLeft
    obtain ⟨lost, inGone, rfl⟩ := List.mem_map.mp isRight
    obtain ⟨inTold, empty⟩ := gone lost inGone
    obtain rfl := List.inj_on_of_nodup_map toldDistinct (stays kept inNext) inTold same
    exact (nonempty kept inNext).ne_empty empty
  · intro connId either
    rw [nextConnId] at either
    have old : connId ∈ told.map ConnHandle.connId := by
      rw [ids]
      exact either.resolve_right (by omega)
    obtain ⟨handle, inTold, rfl⟩ := List.mem_map.mp old
    refine List.mem_map_of_mem (List.mem_append.mpr ?_)
    by_cases empty : handle.assets = ∅
    · exact .inr (List.mem_filter.mpr ⟨inTold, decide_eq_true empty⟩)
    · rw [connections]
      exact .inl (mem_collect collecting inTold empty)

/-- Every call of a routed pool. -/
theorem called {owner : String → String} {pool next : Pool} {call : Pool.Action}
    (numbered : Gauges.Numbered pool) (routed : Routed owner pool)
    (taken : Pool.step pool call = some next) : Called pool next (collectedBy pool call) := by
  cases call with
  | subscribe markets first second => exact called_subscribe numbered taken
  | unsubscribe marketHashes =>
    obtain rfl := Option.some.inj taken
    exact called_unsubscribe numbered routed marketHashes

end Calls

/-- What holds between any two steps: every connection ever spawned has one handle and one task,
the task has been sent a first part of what the handle was told, and what was let go is empty. -/
structure Serves (owner : String → String) (service : Service) : Prop where
  routed : Routed owner service.pool
  numbered : Gauges.Numbered service.pool
  spawned : service.tasks.length = service.pool.nextConnId
  distinct : (service.handles.map ConnHandle.connId).Nodup
  complete : ∀ connId : Nat,
    connId ∈ service.handles.map ConnHandle.connId ↔ connId < service.tasks.length
  recorded : ∀ handle ∈ service.handles, Recorded handle
  empty : ∀ handle ∈ service.collected, handle.assets = ∅
  sent : ∀ handle ∈ service.handles, ∀ task, service.tasks[handle.connId]? = some task →
    task.handle.cmdTx <+: handle.cmdTx
  synced : ∀ (connId : Nat) task, service.tasks[connId]? = some task → Connection.Synced task

theorem serves_start (owner : String → String) {maxAssetsPerConn : Nat}
    (positive : 1 ≤ maxAssetsPerConn) : Serves owner (.start maxAssetsPerConn) where
  routed := routed_new owner positive
  numbered := ⟨List.nodup_nil, nofun⟩
  spawned := rfl
  distinct := List.nodup_nil
  complete := by simp [Service.handles, Service.start, Pool.new]
  recorded := nofun
  empty := nofun
  sent := nofun
  synced := nofun

section Steps

variable {owner : String → String} {service : Service}

/-- A handle is the only one with its id. -/
theorem Serves.unique (serves : Serves owner service) {left right : ConnHandle}
    (isLeft : left ∈ service.handles) (isRight : right ∈ service.handles)
    (same : left.connId = right.connId) : left = right :=
  List.inj_on_of_nodup_map serves.distinct isLeft isRight same

/-- The handles after a call: those let go before, and those of the call. -/
theorem mem_handles_call {next : Pool} {gone : List ConnHandle} {tasks : List Connection.State}
    {handle : ConnHandle} :
    handle ∈ Service.handles ⟨next, service.collected ++ gone, tasks⟩ ↔
      handle ∈ service.collected ∨ handle ∈ next.connections ++ gone := by
  simp only [Service.handles, List.mem_append]
  tauto

/-- The tasks after a call: the old ones, and new ones with the next ids. -/
theorem getElem?_tasks_call {tasks : List Connection.State} {next count connId : Nat}
    {task : Connection.State} (spawned : tasks.length = next)
    (present : (tasks ++ (List.range' next count).map Connection.initial)[connId]? = some task) :
    tasks[connId]? = some task ∨ next ≤ connId ∧ task = Connection.initial connId := by
  by_cases old : connId < tasks.length
  · rw [List.getElem?_append_left old] at present
    exact .inl present
  · rw [List.getElem?_append_right (Nat.le_of_not_lt old), List.getElem?_map] at present
    obtain ⟨found, inRange, rfl⟩ := Option.map_eq_some_iff.mp present
    obtain ⟨_, rfl⟩ := List.getElem?_eq_some_iff.mp inRange
    rw [List.getElem_range', Nat.one_mul, ← spawned, Nat.add_sub_cancel' (Nat.le_of_not_lt old)]
    exact .inr ⟨Nat.le_of_not_lt old, rfl⟩

/-- Where the handles come from that there are after a call. -/
theorem Called.source {next : Pool} {gone : List ConnHandle} {tasks : List Connection.State}
    (made : Called service.pool next gone) {handle : ConnHandle}
    (member : handle ∈ Service.handles ⟨next, service.collected ++ gone, tasks⟩) :
    (∃ before ∈ service.handles, Extends before handle) ∨
      service.pool.nextConnId ≤ handle.connId ∧ handle.connId < next.nextConnId ∧
        Extends ⟨handle.connId, ∅, []⟩ handle := by
  cases mem_handles_call.mp member with
  | inl before =>
    exact .inl ⟨handle, List.mem_append_right _ before, Extends.refl handle⟩
  | inr after =>
    cases made.origin handle after with
    | inl grown =>
      obtain ⟨before, inPool, extended⟩ := grown
      exact .inl ⟨before, List.mem_append_left _ inPool, extended⟩
    | inr new => exact .inr new

/-- An id of a handle was given out. -/
theorem Serves.given (serves : Serves owner service) {handle : ConnHandle}
    (member : handle ∈ service.handles) : handle.connId < service.pool.nextConnId := by
  rw [← serves.spawned]
  exact (serves.complete _).mp (List.mem_map_of_mem member)

/-- No two handles have an id in common after a call. -/
theorem Serves.distinct_call (serves : Serves owner service) {next : Pool}
    {gone : List ConnHandle} {tasks : List Connection.State}
    (made : Called service.pool next gone) :
    ((Service.handles ⟨next, service.collected ++ gone, tasks⟩).map ConnHandle.connId).Nodup := by
  have before := serves.distinct
  rw [Service.handles, List.map_append, List.nodup_append] at before
  obtain ⟨-, collected, apart⟩ := before
  have order := (List.perm_append_comm_assoc next.connections service.collected gone).map
    ConnHandle.connId
  rw [Service.handles, order.nodup_iff, List.map_append, List.nodup_append]
  refine ⟨collected, made.distinct, ?_⟩
  intro left isLeft right isRight same
  obtain ⟨lost, wasLost, rfl⟩ := List.mem_map.mp isLeft
  obtain ⟨handle, member, rfl⟩ := List.mem_map.mp isRight
  cases made.origin handle member with
  | inl grown =>
    obtain ⟨kept, inPool, extended⟩ := grown
    have sameId : kept.connId = lost.connId := extended.connId.symm.trans same.symm
    exact apart _ (List.mem_map_of_mem inPool) _ (List.mem_map_of_mem wasLost) sameId
  | inr new =>
    have given := serves.given (List.mem_append_right _ wasLost)
    omega

/-- Every call keeps it. -/
theorem Serves.call (serves : Serves owner service) {call : Pool.Action} {next : Pool}
    (proper : call.Proper owner) (taken : Pool.step service.pool call = some next) :
    Serves owner {
      pool := next
      collected := service.collected ++ collectedBy service.pool call
      tasks := service.tasks ++ (List.range' service.pool.nextConnId
        (next.nextConnId - service.pool.nextConnId)).map Connection.initial } := by
  have made := called serves.numbered serves.routed taken
  have grown := made.grown
  have spawned := serves.spawned
  have length : (service.tasks ++ (List.range' service.pool.nextConnId
      (next.nextConnId - service.pool.nextConnId)).map Connection.initial).length =
        next.nextConnId := by
    rw [List.length_append, List.length_map, List.length_range']
    omega
  constructor
  · obtain ⟨other, alsoTaken, routed⟩ := Routed.step service.pool call proper serves.routed
    obtain rfl := Option.some.inj (alsoTaken.symm.trans taken)
    exact routed
  · exact (serves.numbered.step taken).1
  · exact length
  · exact serves.distinct_call made
  · intro connId
    rw [length]
    constructor
    · intro isId
      obtain ⟨handle, member, rfl⟩ := List.mem_map.mp isId
      cases made.source member with
      | inl before =>
        obtain ⟨kept, wasHandle, extended⟩ := before
        rw [extended.connId]
        exact (serves.given wasHandle).trans_le grown
      | inr new => exact new.2.1
    · intro given
      have either : connId ∈ service.handles.map ConnHandle.connId ∨
          service.pool.nextConnId ≤ connId ∧ connId < next.nextConnId := by
        rw [serves.complete]
        omega
      rw [Service.handles, List.map_append, List.mem_append] at either
      have inCall (isId : connId ∈ (next.connections ++ collectedBy service.pool call).map
          ConnHandle.connId) : connId ∈ (Service.handles ⟨next, service.collected ++
            collectedBy service.pool call, service.tasks ++ (List.range' service.pool.nextConnId
              (next.nextConnId - service.pool.nextConnId)).map Connection.initial⟩).map
                ConnHandle.connId := by
        obtain ⟨handle, member, rfl⟩ := List.mem_map.mp isId
        exact List.mem_map_of_mem (mem_handles_call.mpr (.inr member))
      obtain (inPool | wasLost) | new := either
      · exact inCall (made.complete connId (.inl inPool))
      · obtain ⟨handle, member, rfl⟩ := List.mem_map.mp wasLost
        exact List.mem_map_of_mem (mem_handles_call.mpr (.inl member))
      · exact inCall (made.complete connId (.inr new))
  · intro handle member
    cases made.source member with
    | inl before =>
      obtain ⟨kept, wasHandle, extended⟩ := before
      exact (serves.recorded kept wasHandle).extend extended
    | inr new =>
      have blank : Recorded ⟨handle.connId, ∅, []⟩ := rfl
      exact blank.extend new.2.2
  · intro handle member
    cases List.mem_append.mp member with
    | inl before => exact serves.empty handle before
    | inr gone => exact made.empty handle gone
  · intro handle member task present
    cases getElem?_tasks_call spawned present with
    | inl old =>
      obtain ⟨inside, -⟩ := List.getElem?_eq_some_iff.mp old
      cases made.source member with
      | inl before =>
        obtain ⟨kept, wasHandle, extended⟩ := before
        rw [extended.connId] at old
        exact (serves.sent kept wasHandle task old).trans extended.cmdTx
      | inr new => omega
    | inr fresh =>
      rw [fresh.2]
      exact List.nil_prefix
  · intro connId task present
    cases getElem?_tasks_call spawned present with
    | inl old => exact serves.synced connId task old
    | inr fresh =>
      rw [fresh.2]
      exact Connection.synced_initial connId

/-- What a task was sent changes by a send only. -/
theorem handle_step {state next : Connection.State} {action : Connection.Action}
    (taken : Connection.step state action = some next) :
    next.handle = match action with
      | .dispatch command => state.handle.tell command
      | _ => state.handle := by
  cases action with
  | dispatch command =>
    obtain ⟨_, rfl⟩ := Runs.guarded taken
    rfl
  | enqueue =>
    obtain ⟨command, _, taken⟩ := Option.bind_eq_some_iff.mp taken
    obtain ⟨_, rfl⟩ := Runs.guarded taken
    rfl
  | dropSender =>
    obtain ⟨_, rfl⟩ := Runs.guarded taken
    rfl
  | attempt =>
    obtain ⟨_, rfl⟩ := Runs.guarded taken
    rfl
  | connect outcome =>
    cases outcome with
    | none =>
      obtain ⟨_, rfl⟩ := Runs.guarded taken
      rfl
    | some assets =>
      obtain ⟨_, rfl⟩ := Runs.guarded taken
      unfold Connection.State.startSession
      simp only
      split <;> rfl
  | recv =>
    obtain ⟨_, received⟩ := Option.ite_none_right_eq_some.mp taken
    split at received
    · obtain rfl := Option.some.inj received
      rfl
    · obtain ⟨_, rfl⟩ := Runs.guarded received
      rfl
  | written sent =>
    simp only [Connection.step] at taken
    split at taken
    · obtain rfl := Option.some.inj taken
      cases sent <;> rfl
    · obtain rfl := Option.some.inj taken
      cases sent <;> rfl
    · exact absurd taken (by simp)
  | endSession outcome =>
    obtain ⟨_, rfl⟩ := Runs.guarded taken
    rfl

/-- A step of a task keeps it as long as no more is sent than the handle was told. -/
theorem Serves.stepTask (serves : Serves owner service) {next : Service} {connId : Nat}
    {action : Connection.Action} (taken : service.stepTask connId action = some next)
    (within : ∀ handle ∈ service.handles, handle.connId = connId → ∀ task after,
      service.tasks[connId]? = some task → Connection.step task action = some after →
      after.handle.cmdTx <+: handle.cmdTx) : Serves owner next := by
  obtain ⟨task, present, taken⟩ := Option.bind_eq_some_iff.mp taken
  obtain ⟨after, stepped, same⟩ := Option.bind_eq_some_iff.mp taken
  obtain rfl := Option.some.inj same
  obtain ⟨inside, -⟩ := List.getElem?_eq_some_iff.mp present
  constructor
  · exact serves.routed
  · exact serves.numbered
  · rw [List.length_set]
    exact serves.spawned
  · exact serves.distinct
  · intro other
    rw [List.length_set]
    exact serves.complete other
  · exact serves.recorded
  · exact serves.empty
  · intro handle member other found
    by_cases same : connId = handle.connId
    · rw [← same, List.getElem?_set_self inside] at found
      obtain rfl := Option.some.inj found
      exact within handle member same.symm task after present stepped
    · rw [List.getElem?_set_ne same] at found
      exact serves.sent handle member other found
  · intro idx other found
    by_cases same : connId = idx
    · rw [← same, List.getElem?_set_self inside] at found
      obtain rfl := Option.some.inj found
      exact (serves.synced connId task present).step stepped
    · rw [List.getElem?_set_ne same] at found
      exact serves.synced idx other found

/-- A step without a send sends no more than before. -/
theorem Serves.stepTask_silent (serves : Serves owner service) {next : Service} {connId : Nat}
    {action : Connection.Action} (taken : service.stepTask connId action = some next)
    (silent : ∀ command, action ≠ .dispatch command) : Serves owner next := by
  apply serves.stepTask taken
  intro handle member same task after present stepped
  have handles := handle_step stepped
  have before := serves.sent handle member task (same ▸ present)
  split at handles
  · exact absurd rfl (silent _)
  · rw [handles]
    exact before

/-- The next command of a handle is the next one to send. -/
theorem Serves.send (serves : Serves owner service) {next : Service} {connId : Nat}
    (taken : service.step (.send connId) = some next) : Serves owner next := by
  obtain ⟨handle, found, taken⟩ := Option.bind_eq_some_iff.mp taken
  obtain ⟨task, present, taken⟩ := Option.bind_eq_some_iff.mp taken
  obtain ⟨command, following, taken⟩ := Option.bind_eq_some_iff.mp taken
  have member := List.mem_of_find?_eq_some found
  have isIt : handle.connId = connId := by simpa using List.find?_some found
  apply serves.stepTask taken
  intro other isHandle same again after alsoPresent stepped
  obtain rfl := Option.some.inj (present.symm.trans alsoPresent)
  obtain rfl := serves.unique member isHandle (isIt.trans same.symm)
  have before := serves.sent handle member task (isIt ▸ present)
  rw [handle_step stepped]
  change task.handle.cmdTx ++ [command] <+: handle.cmdTx
  obtain ⟨rest, told⟩ := before
  rw [← told, List.getElem?_append_right le_rfl, Nat.sub_self] at following
  cases rest with
  | nil => exact absurd following nofun
  | cons first later =>
    obtain rfl := Option.some.inj following
    rw [← told]
    exact ⟨later, by rw [List.append_assoc, List.singleton_append]⟩

end Steps

/-- What the callers guarantee about the calls among the actions. -/
def Action.Proper (owner : String → String) : Action → Prop
  | .call made => made.Proper owner
  | _ => True

/-- Every step keeps it. -/
theorem Serves.step {owner : String → String} {service next : Service} {action : Action}
    (proper : action.Proper owner) (taken : service.step action = some next)
    (serves : Serves owner service) : Serves owner next := by
  cases action with
  | call call =>
    obtain ⟨_, taken⟩ := Option.ite_none_right_eq_some.mp taken
    obtain ⟨pool, called, rfl⟩ := Option.map_eq_some_iff.mp taken
    exact serves.call proper called
  | send connId => exact serves.send taken
  | release connId =>
    obtain ⟨_, taken⟩ := Option.ite_none_right_eq_some.mp taken
    exact serves.stepTask_silent taken nofun
  | task connId action =>
    obtain ⟨isOwn, taken⟩ := Option.ite_none_right_eq_some.mp taken
    apply serves.stepTask_silent taken
    rintro command rfl
    exact absurd isOwn nofun

section Quiet

variable {owner : String → String} {service : Service}

/-- With no command on its way, a session announces what the handle of its task records. -/
theorem Serves.announced (serves : Serves owner service) (quiet : service.quiet = true)
    {handle : ConnHandle} (member : handle ∈ service.handles) {task : Connection.State}
    (present : service.tasks[handle.connId]? = some task) (listening : task.phase = .listening)
    (taken : task.commands = []) :
    replay ∅ (task.frames.map Connection.Frame.delta) = handle.assets := by
  have told : service.told handle = true := List.all_eq_true.mp quiet handle member
  have sent : task.handle.cmdTx = handle.cmdTx ∧ task.waiting = none := by
    simpa [Service.told, present] using told
  have synced := serves.synced handle.connId task present
  have session := synced.session
  rw [listening] at session
  have delivered := synced.delivered (by simp [listening])
  rw [taken, sent.2, Option.toList_none, List.append_nil, List.append_nil, sent.1] at delivered
  calc replay ∅ (task.frames.map Connection.Frame.delta)
      = task.sub.desired := session.2.replayed
    _ = replay ∅ (task.processed.map Command.delta) := synced.applied
    _ = replay ∅ (handle.cmdTx.map Command.delta) := by rw [delivered]
    _ = handle.assets := (serves.recorded handle member).symm

/-- Every task has a handle. -/
theorem Serves.carried (serves : Serves owner service) {connId : Nat} {task : Connection.State}
    (present : service.tasks[connId]? = some task) :
    ∃ handle ∈ service.handles, handle.connId = connId := by
  obtain ⟨inside, -⟩ := List.getElem?_eq_some_iff.mp present
  exact List.mem_map.mp ((serves.complete connId).mpr inside)

end Quiet

/-- A market of the pool has the asset. -/
def Registered (pool : Pool) (asset : String) : Prop :=
  ∃ hash market, pool.markets.lookup hash = some market ∧ asset ∈ market.assets

/-- The ids of the connections that the pool has for an asset. -/
def carriers (pool : Pool) (asset : String) : Finset Nat :=
  ((pool.connections.filter fun handle => asset ∈ handle.assets).map ConnHandle.connId).toFinset

section Carriers

variable {owner : String → String} {pool : Pool} {asset : String}

theorem mem_carriers {connId : Nat} : connId ∈ carriers pool asset ↔
    ∃ handle ∈ pool.connections, asset ∈ handle.assets ∧ handle.connId = connId := by
  simp [carriers, and_assoc]

/-- The pool has nothing for an asset that no market has. -/
theorem carriers_unregistered (routed : Routed owner pool) (unknown : ¬ Registered pool asset) :
    carriers pool asset = ∅ := by
  apply Finset.eq_empty_of_forall_notMem
  intro connId member
  obtain ⟨handle, inPool, holds, rfl⟩ := mem_carriers.mp member
  obtain ⟨idx, inside, rfl⟩ := List.mem_iff_getElem.mp inPool
  have present := List.getElem?_eq_getElem inside
  obtain ⟨c1, c2, found, -⟩ := (routed.wired.carries idx _ present asset).mp holds
  apply unknown
  apply (routed.tracked asset).mp
  rw [← AList.lookup_isSome, found]
  rfl

/-- The pool has two connections for an asset of a registered market. -/
theorem carriers_registered (routed : Routed owner pool) (numbered : Gauges.Numbered pool)
    (known : Registered pool asset) : (carriers pool asset).card = 2 := by
  have tracked := (routed.tracked asset).mpr known
  obtain ⟨⟨c1, c2⟩, found⟩ := (Maps.mem_iff_lookup _ asset).mp tracked
  obtain ⟨different, first, second⟩ := routed.wired.valid asset c1 c2 found
  have carries (idx : Nat) (inside : idx < pool.connections.length) :
      asset ∈ pool.connections[idx].assets ↔ idx = c1 ∨ idx = c2 := by
    rw [routed.wired.carries idx _ (List.getElem?_eq_getElem inside) asset, found]
    simp
  have pair : carriers pool asset =
      {pool.connections[c1].connId, pool.connections[c2].connId} := by
    ext connId
    rw [mem_carriers, Finset.mem_insert, Finset.mem_singleton]
    constructor
    · rintro ⟨handle, inPool, holds, rfl⟩
      obtain ⟨idx, inside, rfl⟩ := List.mem_iff_getElem.mp inPool
      cases (carries idx inside).mp holds with
      | inl isFirst =>
        subst isFirst
        exact .inl rfl
      | inr isSecond =>
        subst isSecond
        exact .inr rfl
    · intro either
      cases either with
      | inl isFirst =>
        exact ⟨_, List.getElem_mem first, (carries c1 first).mpr (.inl rfl), isFirst.symm⟩
      | inr isSecond =>
        exact ⟨_, List.getElem_mem second, (carries c2 second).mpr (.inr rfl), isSecond.symm⟩
  rw [pair]
  apply Finset.card_pair
  intro same
  have sameHandle := List.inj_on_of_nodup_map numbered.distinct (List.getElem_mem first)
    (List.getElem_mem second) same
  exact different ((numbered.distinct.of_map _).getElem_inj_iff.mp sameHandle)

end Carriers

/-- Two markets share two connections. The first session of one of them fails before the first
market is dropped, and its second session announces what is left. -/
def sampleActions : List Action :=
  [.call (.subscribe [firstMarket, secondMarket] .unchanged .unchanged),
    .send 0, .task 0 .enqueue, .send 1, .task 1 .enqueue,
    .task 0 .attempt, .task 0 (.connect (some [])), .task 0 .recv, .task 0 (.written true),
    .task 0 (.endSession .closed),
    .call (.unsubscribe ["m1"]), .send 0, .task 0 .enqueue, .send 1, .task 1 .enqueue,
    .task 0 .attempt, .task 0 (.connect (some ["y1", "n1", "y2", "n2"])), .task 0 (.written true),
    .task 0 .recv, .task 0 (.written true)]

end Collector.Sessions
