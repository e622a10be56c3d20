import Collector.Pool

/-!
# The health monitor

The monitor keeps the last status of every connection it heard of and the last
asset mapping, and derives from them a reverse index and a state for every
asset. A status event recomputes the assets of one connection, a new mapping
recomputes everything. `Derived` says that the derived data is what the two
sources determine; both kinds of event keep it.

Instants are nanoseconds. A status event carries the clock readings its handling
makes. Log lines are left out; the startup flag that mutes them is kept.
-/

namespace Collector

/-- A socket is open, or it is not. -/
inductive ConnStatus where
  | connected
  | disconnected
deriving DecidableEq

/-- The health of an asset. -/
inductive AssetState where
  | healthy
  | degraded
  | down
deriving DecidableEq

/-- Counters and gauges shared with the stats loop. -/
structure HealthCounters where
  assetDownEvents : Nat
  assetDownTotalMs : Nat
  assetDegradedEvents : Nat
  assetDegradedTotalMs : Nat
  connDownEvents : Nat
  connDownTotalMs : Nat
  connsDown : Nat
  assetsDown : Nat
  assetsDegraded : Nat

/-- The state of the monitor task. -/
structure Monitor where
  assetConns : AssetConns
  connToAssets : AList (fun _ : Nat => List String)
  connStatus : AList (fun _ : Nat => ConnStatus)
  assetStates : AList (fun _ : String => AssetState)
  assetTransitionTime : AList (fun _ : String => Nat)
  connDownSince : AList (fun _ : Nat => Option Nat)
  startup : Bool
  counters : HealthCounters

namespace Monitor

/-- The monitor before its first event. -/
def new : Monitor where
  assetConns := ∅
  connToAssets := ∅
  connStatus := ∅
  assetStates := ∅
  assetTransitionTime := ∅
  connDownSince := ∅
  startup := true
  counters := ⟨0, 0, 0, 0, 0, 0, 0, 0, 0⟩

/-- A connection that never reported counts as disconnected. -/
def statusOf (connStatus : AList (fun _ : Nat => ConnStatus)) (conn : Nat) : ConnStatus :=
  (connStatus.lookup conn).getD .disconnected

/-- The state of an asset with the given statuses of its two connections. -/
def stateOf : ConnStatus → ConnStatus → AssetState
  | .connected, .connected => .healthy
  | .disconnected, .disconnected => .down
  | _, _ => .degraded

/-- The state of an asset; healthy when the mapping does not know it. -/
def computeAssetState (asset : String) (connStatus : AList (fun _ : Nat => ConnStatus))
    (assetConns : AssetConns) : AssetState :=
  match assetConns.lookup asset with
  | none => .healthy
  | some (c1, c2) => stateOf (statusOf connStatus c1) (statusOf connStatus c2)

/-- How many entries of a map have a value. -/
def countValues {κ ν : Type} [DecidableEq ν] (value : ν) (entries : AList (fun _ : κ => ν)) : Nat :=
  entries.entries.countP fun entry => entry.2 = value

/-- Set the three gauges. -/
def updateAggregateGauges (monitor : Monitor) : Monitor :=
  { monitor with counters := { monitor.counters with
      assetsDown := countValues AssetState.down monitor.assetStates
      assetsDegraded := countValues AssetState.degraded monitor.assetStates
      connsDown := countValues ConnStatus.disconnected monitor.connStatus } }

/-- Append an asset to the list of a connection. -/
def pushAsset (connToAssets : AList (fun _ : Nat => List String)) (conn : Nat) (asset : String) :
    AList (fun _ : Nat => List String) :=
  connToAssets.insert conn ((connToAssets.lookup conn).getD [] ++ [asset])

/-- The reverse index of a mapping. -/
def reverseIndex (assetConns : AssetConns) : AList (fun _ : Nat => List String) :=
  assetConns.entries.foldl
    (fun index entry => pushAsset (pushAsset index entry.2.1 entry.1) entry.2.2 entry.1) ∅

/-- The states of all assets of a mapping. Assets that left the mapping are
gone and the others are recomputed, so nothing of the old states remains. -/
def recomputeStates (assetConns : AssetConns) (connStatus : AList (fun _ : Nat => ConnStatus)) :
    AList (fun _ : String => AssetState) :=
  Maps.mapValues (fun conns => stateOf (statusOf connStatus conns.1) (statusOf connStatus conns.2))
    assetConns

/-- `rebuild_derived` with a new mapping. -/
def onMapping (monitor : Monitor) (assetConns : AssetConns) : Monitor :=
  { monitor with
    assetConns := assetConns
    connToAssets := reverseIndex assetConns
    assetStates := recomputeStates assetConns monitor.connStatus }.updateAggregateGauges

/-- The clock readings made while a status event is handled. -/
structure Clock where
  now : Nat
  connReading : Nat
  assetReading : String → Nat

/-- Whole milliseconds between two instants. -/
def elapsedMs (since reading : Nat) : Nat := (reading - since) / 1000000

/-- The bookkeeping of a connection that went down or came back. -/
def connTransition (monitor : Monitor) (changedIdx : Nat) (oldStatus newStatus : ConnStatus)
    (clock : Clock) : Monitor :=
  match oldStatus, newStatus with
  | .connected, .disconnected => { monitor with
      connDownSince := monitor.connDownSince.insert changedIdx (some clock.now)
      counters := { monitor.counters with
        connDownEvents := monitor.counters.connDownEvents + 1 } }
  | .disconnected, .connected => { monitor with
      connDownSince := monitor.connDownSince.erase changedIdx
      counters := match monitor.connDownSince.lookup changedIdx with
        | some (some since) => { monitor.counters with
            connDownTotalMs :=
              monitor.counters.connDownTotalMs + elapsedMs since clock.connReading }
        | _ => monitor.counters }
  | _, _ => monitor

/-- Leaving a state: the transition time is taken out and the duration counted. -/
def exitState (monitor : Monitor) (asset : String) (oldState : AssetState) (clock : Clock) :
    Monitor :=
  let elapsed := (monitor.assetTransitionTime.lookup asset).map fun since =>
    elapsedMs since (clock.assetReading asset)
  match oldState with
  | .healthy => monitor
  | .down => { monitor with
      assetTransitionTime := monitor.assetTransitionTime.erase asset
      counters := { monitor.counters with
        assetDownTotalMs := monitor.counters.assetDownTotalMs + elapsed.getD 0 } }
  | .degraded => { monitor with
      assetTransitionTime := monitor.assetTransitionTime.erase asset
      counters := { monitor.counters with
        assetDegradedTotalMs := monitor.counters.assetDegradedTotalMs + elapsed.getD 0 } }

/-- Entering a state: the transition time is noted and the event counted. -/
def enterState (monitor : Monitor) (asset : String) (newState : AssetState) (clock : Clock) :
    Monitor :=
  match newState with
  | .healthy => monitor
  | .down => { monitor with
      assetTransitionTime := monitor.assetTransitionTime.insert asset clock.now
      counters := { monitor.counters with
        assetDownEvents := monitor.counters.assetDownEvents + 1 } }
  | .degraded => { monitor with
      assetTransitionTime := monitor.assetTransitionTime.insert asset clock.now
      counters := { monitor.counters with
        assetDegradedEvents := monitor.counters.assetDegradedEvents + 1 } }

/-- Recompute one affected asset. `none` is the index panic on an asset that the
mapping does not have. -/
def assetTransition (clock : Clock) (monitor : Monitor) (asset : String) : Option Monitor :=
  let newState := computeAssetState asset monitor.connStatus monitor.assetConns
  let oldState := (monitor.assetStates.lookup asset).getD .down
  let monitor := { monitor with assetStates := monitor.assetStates.insert asset newState }
  if oldState = newState then some monitor
  else do
    let _ ← monitor.assetConns.lookup asset
    some ((monitor.exitState asset oldState clock).enterState asset newState clock)

/-- The startup phase ends once every connection of the mapping is up. -/
def finishStartup (monitor : Monitor) : Monitor :=
  if monitor.startup ∧ monitor.connToAssets.keys ≠ [] ∧
      monitor.connToAssets.keys.all fun conn =>
        monitor.connStatus.lookup conn = some ConnStatus.connected then
    { monitor with startup := false }
  else monitor

/-- One status event. -/
def onStatus (monitor : Monitor) (changedIdx : Nat) (newStatus : ConnStatus) (clock : Clock) :
    Option Monitor := do
  let oldStatus := statusOf monitor.connStatus changedIdx
  let monitor := { monitor with connStatus := monitor.connStatus.insert changedIdx newStatus }
  if oldStatus = newStatus then some monitor
  else
    let affected := (monitor.connToAssets.lookup changedIdx).getD []
    let monitor ← Runs.run (assetTransition clock)
      (monitor.connTransition changedIdx oldStatus newStatus clock) affected
    some monitor.updateAggregateGauges.finishStartup

/-- The derived data is determined by the mapping and the statuses. -/
structure Derived (monitor : Monitor) : Prop where
  reverse : ∀ conn asset, asset ∈ (monitor.connToAssets.lookup conn).getD [] ↔
    ∃ c1 c2, monitor.assetConns.lookup asset = some (c1, c2) ∧ (conn = c1 ∨ conn = c2)
  states : ∀ asset, monitor.assetStates.lookup asset =
    (monitor.assetConns.lookup asset).map fun conns =>
      stateOf (statusOf monitor.connStatus conns.1) (statusOf monitor.connStatus conns.2)

theorem derived_new : Derived new where
  reverse := by simp [new]
  states := by simp [new]

/-- The lists of an index after one asset more. -/
theorem mem_pushAsset (index : AList (fun _ : Nat => List String)) (conn tested : Nat)
    (asset other : String) :
    other ∈ ((pushAsset index conn asset).lookup tested).getD [] ↔
      other ∈ (index.lookup tested).getD [] ∨ (tested = conn ∧ other = asset) := by
  unfold pushAsset
  by_cases same : tested = conn
  · subst same
    simp [AList.lookup_insert]
  · simp [AList.lookup_insert_ne same, same]

/-- The reverse index lists an asset at the connections of its entry. -/
theorem mem_reverseIndex (assetConns : AssetConns) (conn : Nat) (asset : String) :
    asset ∈ ((reverseIndex assetConns).lookup conn).getD [] ↔
      ∃ c1 c2, assetConns.lookup asset = some (c1, c2) ∧ (conn = c1 ∨ conn = c2) := by
  have folded : ∀ (entries : List (Sigma fun _ : String => Nat × Nat))
      (index : AList (fun _ : Nat => List String)),
      asset ∈ ((entries.foldl (fun index entry =>
          pushAsset (pushAsset index entry.2.1 entry.1) entry.2.2 entry.1) index).lookup
            conn).getD [] ↔
        asset ∈ (index.lookup conn).getD [] ∨
          ∃ c1 c2, ⟨asset, (c1, c2)⟩ ∈ entries ∧ (conn = c1 ∨ conn = c2) := by
    intro entries
    induction entries with
    | nil => simp
    | cons entry rest inductionHypothesis =>
      intro index
      rw [List.foldl_cons, inductionHypothesis, mem_pushAsset, mem_pushAsset]
      obtain ⟨key, first, second⟩ := entry
      simp only [List.mem_cons, Sigma.mk.injEq, heq_eq_eq, Prod.mk.injEq]
      constructor
      · rintro (((before | ⟨isFirst, same⟩) | ⟨isSecond, same⟩) | ⟨c1, c2, later, either⟩)
        · exact Or.inl before
        · exact Or.inr ⟨first, second, Or.inl ⟨same, rfl, rfl⟩, Or.inl isFirst⟩
        · exact Or.inr ⟨first, second, Or.inl ⟨same, rfl, rfl⟩, Or.inr isSecond⟩
        · exact Or.inr ⟨c1, c2, Or.inr later, either⟩
      · rintro (before | ⟨c1, c2, ⟨same, rfl, rfl⟩ | later, either⟩)
        · exact Or.inl (Or.inl (Or.inl before))
        · rcases either with isFirst | isSecond
          · exact Or.inl (Or.inl (Or.inr ⟨isFirst, same⟩))
          · exact Or.inl (Or.inr ⟨isSecond, same⟩)
        · exact Or.inr ⟨c1, c2, later, either⟩
  have listed := folded assetConns.entries ∅
  rw [reverseIndex, listed]
  simp only [AList.lookup_empty, Option.getD_none, List.not_mem_nil, false_or,
    ← AList.mem_lookup_iff, Option.mem_def]

/-- A new mapping determines everything afresh. -/
theorem Derived.onMapping (monitor : Monitor) (assetConns : AssetConns) :
    Derived (monitor.onMapping assetConns) where
  reverse := mem_reverseIndex assetConns
  states := Maps.lookup_mapValues _ assetConns

/-- The statuses after an insertion. -/
theorem statusOf_insert (connStatus : AList (fun _ : Nat => ConnStatus)) (conn tested : Nat)
    (status : ConnStatus) :
    statusOf (connStatus.insert conn status) tested =
      if tested = conn then status else statusOf connStatus tested := by
  unfold statusOf
  by_cases same : tested = conn
  · subst same
    rw [if_pos rfl, AList.lookup_insert, Option.getD_some]
  · rw [if_neg same, AList.lookup_insert_ne same]

/-- The bookkeeping of connections leaves the derived data alone. -/
theorem connTransition_frame (monitor : Monitor) (changedIdx : Nat)
    (oldStatus newStatus : ConnStatus) (clock : Clock) :
    ∃ since counters, monitor.connTransition changedIdx oldStatus newStatus clock =
      { monitor with connDownSince := since, counters := counters } := by
  cases oldStatus <;> cases newStatus <;> exact ⟨_, _, rfl⟩

theorem exitState_frame (monitor : Monitor) (asset : String) (oldState : AssetState)
    (clock : Clock) :
    ∃ times counters, monitor.exitState asset oldState clock =
      { monitor with assetTransitionTime := times, counters := counters } := by
  cases oldState <;> exact ⟨_, _, rfl⟩

theorem enterState_frame (monitor : Monitor) (asset : String) (newState : AssetState)
    (clock : Clock) :
    ∃ times counters, monitor.enterState asset newState clock =
      { monitor with assetTransitionTime := times, counters := counters } := by
  cases newState <;> exact ⟨_, _, rfl⟩

/-- A transition of a mapped asset completes and sets its state; besides that
only transition times and counters change. -/
theorem assetTransition_spec (clock : Clock) (monitor : Monitor) {asset : String}
    (mapped : asset ∈ monitor.assetConns) :
    ∃ times counters, assetTransition clock monitor asset = some { monitor with
      assetStates := monitor.assetStates.insert asset
        (computeAssetState asset monitor.connStatus monitor.assetConns)
      assetTransitionTime := times
      counters := counters } := by
  obtain ⟨conns, found⟩ := (Maps.mem_iff_lookup monitor.assetConns asset).mp mapped
  unfold assetTransition
  simp only
  split
  · exact ⟨monitor.assetTransitionTime, monitor.counters, rfl⟩
  · rw [found]
    simp only [Option.bind_eq_bind, Option.bind_some, Option.some.injEq]
    obtain ⟨_, _, exited⟩ := exitState_frame { monitor with
      assetStates := monitor.assetStates.insert asset
        (computeAssetState asset monitor.connStatus monitor.assetConns) } asset
      ((monitor.assetStates.lookup asset).getD .down) clock
    rw [exited]
    obtain ⟨times, counters, entered⟩ := enterState_frame _ asset
      (computeAssetState asset monitor.connStatus monitor.assetConns) clock
    exact ⟨times, counters, entered⟩

/-- What holds while some affected assets are still to be recomputed. -/
structure Recomputing (source : Monitor) (remaining : List String) (monitor : Monitor) : Prop where
  assetConns : monitor.assetConns = source.assetConns
  connToAssets : monitor.connToAssets = source.connToAssets
  connStatus : monitor.connStatus = source.connStatus
  mapped : ∀ asset ∈ remaining, asset ∈ source.assetConns
  states : ∀ asset, asset ∉ remaining → monitor.assetStates.lookup asset =
    (source.assetConns.lookup asset).map fun conns =>
      stateOf (statusOf source.connStatus conns.1) (statusOf source.connStatus conns.2)

theorem Recomputing.goes {source monitor : Monitor} {asset : String} {rest : List String}
    (clock : Clock) (holds : Recomputing source (asset :: rest) monitor) :
    ∃ next, assetTransition clock monitor asset = some next ∧ Recomputing source rest next := by
  have mapped := holds.mapped asset List.mem_cons_self
  obtain ⟨times, counters, taken⟩ := assetTransition_spec clock monitor
    (holds.assetConns ▸ mapped)
  refine ⟨_, taken, holds.assetConns, holds.connToAssets, holds.connStatus,
    fun other member => holds.mapped other (List.mem_cons_of_mem asset member), ?_⟩
  intro other notLater
  by_cases same : other = asset
  · subst same
    obtain ⟨conns, found⟩ := (Maps.mem_iff_lookup source.assetConns other).mp mapped
    simp only [AList.lookup_insert, computeAssetState, holds.assetConns, holds.connStatus, found,
      Option.map_some]
  · simp only [AList.lookup_insert_ne same]
    exact holds.states other (by simp [same, notLater])

/-- Recomputing all affected assets completes. -/
theorem Recomputing.run {source monitor : Monitor} {affected : List String} (clock : Clock)
    (initially : Recomputing source affected monitor) :
    ∃ final, Runs.run (assetTransition clock) monitor affected = some final ∧
      Recomputing source [] final :=
  Runs.completes (fun _ _ _ (holds : Recomputing source _ _) => holds.goes clock) initially

/-- A status event completes and keeps the derived data determined. -/
theorem Derived.onStatus {monitor : Monitor} (derived : Derived monitor) (changedIdx : Nat)
    (newStatus : ConnStatus) (clock : Clock) :
    ∃ next, monitor.onStatus changedIdx newStatus clock = some next ∧ Derived next ∧
      next.assetConns = monitor.assetConns ∧
      next.connStatus = monitor.connStatus.insert changedIdx newStatus := by
  unfold Monitor.onStatus
  simp only
  split
  · rename_i same
    refine ⟨_, rfl, ⟨derived.reverse, ?_⟩, rfl, rfl⟩
    intro asset
    have unchanged : ∀ conn, statusOf (monitor.connStatus.insert changedIdx newStatus) conn =
        statusOf monitor.connStatus conn := by
      intro conn
      rw [statusOf_insert]
      split
      · rename_i isChanged
        rw [isChanged, same]
      · rfl
    simp only [unchanged]
    exact derived.states asset
  · obtain ⟨since, counters, booked⟩ := connTransition_frame { monitor with
      connStatus := monitor.connStatus.insert changedIdx newStatus } changedIdx
      (statusOf monitor.connStatus changedIdx) newStatus clock
    rw [booked]
    have initially : Recomputing { monitor with
        connStatus := monitor.connStatus.insert changedIdx newStatus }
        ((monitor.connToAssets.lookup changedIdx).getD []) { monitor with
          connStatus := monitor.connStatus.insert changedIdx newStatus
          connDownSince := since
          counters := counters } := by
      refine ⟨rfl, rfl, rfl, ?_, ?_⟩
      · intro asset member
        obtain ⟨c1, c2, found, -⟩ := (derived.reverse changedIdx asset).mp member
        exact (Maps.mem_iff_lookup _ asset).mpr ⟨_, found⟩
      · intro asset unaffected
        simp only [derived.states asset]
        cases found : monitor.assetConns.lookup asset with
        | none => rfl
        | some conns =>
          obtain ⟨c1, c2⟩ := conns
          have notHere : c1 ≠ changedIdx ∧ c2 ≠ changedIdx := by
            rw [derived.reverse] at unaffected
            exact ⟨fun same => unaffected ⟨c1, c2, found, Or.inl same.symm⟩,
              fun same => unaffected ⟨c1, c2, found, Or.inr same.symm⟩⟩
          simp only [Option.map_some, statusOf_insert, notHere.1, notHere.2, if_false]
    obtain ⟨final, completed, settled⟩ := initially.run clock
    refine ⟨final.updateAggregateGauges.finishStartup, ?_, ?_, ?_⟩
    · simp only [Option.bind_eq_bind]
      rw [completed]
      rfl
    all_goals unfold finishStartup updateAggregateGauges
    · split
      all_goals
        constructor
        · simpa only [settled.connToAssets, settled.assetConns] using derived.reverse
        · intro asset
          simp only [settled.states asset List.not_mem_nil, settled.assetConns, settled.connStatus]
    · split <;> exact ⟨settled.assetConns, settled.connStatus⟩

end Monitor

end Collector
