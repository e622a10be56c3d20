import Collector.Durations

/-!
# The monitor does not depend on the order of its channels

Statuses arrive on one channel and mappings on another, and the monitor takes from
either as they come. A status event touches only the assets of its connection, and
none when it repeats what the monitor holds; a mapping replaces everything that is
derived. Whichever came last, the derived data is what the statuses and the last
mapping determine, so only the order within the status channel matters. The watch
channel may pass over mappings that a newer one replaced.
-/

namespace Collector.Convergence

open Monitor
open Durations (monitorStep)

/-- The derived data and the two gauges of a monitor follow from its mapping and
its statuses. -/
structure Consistent (monitor : Monitor) : Prop where
  derived : Derived monitor
  indexed : ∀ conn, conn ∈ monitor.connToAssets ↔
    ∃ asset c1 c2, monitor.assetConns.lookup asset = some (c1, c2) ∧ (conn = c1 ∨ conn = c2)
  tracked : ∀ asset, asset ∈ monitor.assetStates ↔ asset ∈ monitor.assetConns
  assetsDown : monitor.counters.assetsDown = countValues .down monitor.assetStates
  assetsDegraded : monitor.counters.assetsDegraded = countValues .degraded monitor.assetStates

/-- The status events of a run, without their clock readings. -/
def statuses (events : List Durations.Event) : List (Nat × ConnStatus) :=
  events.filterMap fun
    | .status changedIdx newStatus _ => some (changedIdx, newStatus)
    | .mapping _ _ => none

/-- The mappings that were taken in a run. -/
def mappings (events : List Durations.Event) : List AssetConns :=
  events.filterMap fun
    | .status _ _ _ => none
    | .mapping assetConns _ => some assetConns

section Keys

/-- The states are those of the mapped assets. -/
theorem tracked_of_derived {monitor : Monitor} (derived : Derived monitor) (asset : String) :
    asset ∈ monitor.assetStates ↔ asset ∈ monitor.assetConns := by
  rw [← AList.lookup_isSome, ← AList.lookup_isSome, derived.states asset, Option.isSome_map]

theorem mem_pushAsset_keys (index : AList (fun _ : Nat => List String)) (conn tested : Nat)
    (asset : String) :
    tested ∈ pushAsset index conn asset ↔ tested = conn ∨ tested ∈ index :=
  AList.mem_insert index

/-- The reverse index has a list for the connections of the mapping and no others. -/
theorem mem_reverseIndex_keys (assetConns : AssetConns) (conn : Nat) :
    conn ∈ reverseIndex assetConns ↔
      ∃ asset c1 c2, assetConns.lookup asset = some (c1, c2) ∧ (conn = c1 ∨ conn = c2) := by
  have folded : ∀ (entries : List (Sigma fun _ : String => Nat × Nat))
      (index : AList (fun _ : Nat => List String)),
      conn ∈ entries.foldl (fun index entry =>
          pushAsset (pushAsset index entry.2.1 entry.1) entry.2.2 entry.1) index ↔
        conn ∈ index ∨ ∃ entry ∈ entries, conn = entry.2.1 ∨ conn = entry.2.2 := by
    intro entries
    induction entries with
    | nil => simp
    | cons entry rest inductionHypothesis =>
      intro index
      rw [List.foldl_cons, inductionHypothesis, mem_pushAsset_keys, mem_pushAsset_keys]
      constructor
      · rintro ((isSecond | isFirst | before) | ⟨later, member, either⟩)
        · exact Or.inr ⟨entry, List.mem_cons_self, Or.inr isSecond⟩
        · exact Or.inr ⟨entry, List.mem_cons_self, Or.inl isFirst⟩
        · exact Or.inl before
        · exact Or.inr ⟨later, List.mem_cons_of_mem entry member, either⟩
      · rintro (before | ⟨other, member, either⟩)
        · exact Or.inl (Or.inr (Or.inr before))
        · rcases List.mem_cons.mp member with rfl | later
          · rcases either with isFirst | isSecond
            · exact Or.inl (Or.inr (Or.inl isFirst))
            · exact Or.inl (Or.inl isSecond)
          · exact Or.inr ⟨other, later, either⟩
  rw [reverseIndex, folded]
  constructor
  · rintro (impossible | ⟨⟨asset, c1, c2⟩, member, either⟩)
    · exact absurd impossible (AList.notMem_empty conn)
    · exact ⟨asset, c1, c2, AList.mem_lookup_iff.mpr member, either⟩
  · rintro ⟨asset, c1, c2, found, either⟩
    exact Or.inr ⟨⟨asset, c1, c2⟩, AList.mem_lookup_iff.mp found, either⟩

end Keys

section Steps

/-- Recomputing an asset leaves the mapping and its index alone. -/
theorem assetTransition_sources {clock : Clock} {monitor next : Monitor} {asset : String}
    (taken : assetTransition clock monitor asset = some next) :
    next.connToAssets = monitor.connToAssets := by
  rcases Durations.assetTransition_cases taken with ⟨-, rfl⟩ | ⟨-, mapped, -⟩
  · rfl
  · obtain ⟨times, counters, spec⟩ := assetTransition_spec clock monitor mapped
    obtain rfl := Option.some.inj (taken.symm.trans spec)
    rfl

/-- A status event that repeats what the monitor holds only stores the status; any
other one ends with setting the gauges and leaves the index alone. -/
theorem onStatus_cases {monitor next : Monitor} {changedIdx : Nat} {newStatus : ConnStatus}
    {clock : Clock} (handled : monitor.onStatus changedIdx newStatus clock = some next) :
    next = { monitor with connStatus := monitor.connStatus.insert changedIdx newStatus } ∨
      ∃ settled : Monitor, settled.connToAssets = monitor.connToAssets ∧
        next = settled.updateAggregateGauges.finishStartup := by
  simp only [Monitor.onStatus] at handled
  split at handled
  · exact Or.inl (Option.some.inj handled).symm
  · obtain ⟨settled, completed, isNext⟩ := Option.bind_eq_some_iff.mp handled
    refine Or.inr ⟨settled, ?_, (Option.some.inj isNext).symm⟩
    have kept : ∀ state asset after, assetTransition clock state asset = some after →
        state.connToAssets = monitor.connToAssets →
          after.connToAssets = monitor.connToAssets :=
      fun state asset after taken same => (assetTransition_sources taken).trans same
    apply Runs.invariant kept completed
    obtain ⟨since, counters, booked⟩ := connTransition_frame { monitor with
      connStatus := monitor.connStatus.insert changedIdx newStatus } changedIdx
      (statusOf monitor.connStatus changedIdx) newStatus clock
    rw [booked]

theorem consistent_new : Consistent new where
  derived := derived_new
  indexed := by simp [new]
  tracked := by simp [new]
  assetsDown := rfl
  assetsDegraded := rfl

/-- Every status event completes and keeps the monitor consistent. -/
theorem Consistent.onStatus {monitor : Monitor} (consistent : Consistent monitor)
    (changedIdx : Nat) (newStatus : ConnStatus) (clock : Clock) :
    ∃ next, monitor.onStatus changedIdx newStatus clock = some next ∧ Consistent next ∧
      next.assetConns = monitor.assetConns ∧
      next.connStatus = monitor.connStatus.insert changedIdx newStatus := by
  obtain ⟨next, handled, derived, assetConns, connStatus⟩ :=
    consistent.derived.onStatus changedIdx newStatus clock
  refine ⟨next, handled, ?_, assetConns, connStatus⟩
  have indexed : next.connToAssets = monitor.connToAssets ∧
      next.counters.assetsDown = countValues .down next.assetStates ∧
      next.counters.assetsDegraded = countValues .degraded next.assetStates := by
    rcases onStatus_cases handled with rfl | ⟨settled, same, rfl⟩
    · exact ⟨rfl, consistent.assetsDown, consistent.assetsDegraded⟩
    · unfold finishStartup
      split <;> exact ⟨same, rfl, rfl⟩
  refine ⟨derived, ?_, tracked_of_derived derived, indexed.2.1, indexed.2.2⟩
  rw [indexed.1, assetConns]
  exact consistent.indexed

/-- A new mapping determines everything afresh. -/
theorem consistent_onMapping (monitor : Monitor) (assetConns : AssetConns) :
    Consistent (monitor.onMapping assetConns) where
  derived := Derived.onMapping monitor assetConns
  indexed := mem_reverseIndex_keys assetConns
  tracked := tracked_of_derived (Derived.onMapping monitor assetConns)
  assetsDown := rfl
  assetsDegraded := rfl

end Steps

section Runs

/-- The statuses a monitor holds once it has taken some more. -/
def held (connStatus : AList (fun _ : Nat => ConnStatus)) (taken : List (Nat × ConnStatus)) :
    AList (fun _ : Nat => ConnStatus) :=
  taken.foldl (fun connStatus status => connStatus.insert status.1 status.2) connStatus

/-- Where a monitor comes to that takes some events. -/
structure Reaches (monitor : Monitor) (events : List Durations.Event) (final : Monitor) : Prop where
  completed : Runs.run monitorStep monitor events = some final
  consistent : Consistent final
  assetConns : final.assetConns = (mappings events).getLast?.getD monitor.assetConns
  connStatus : final.connStatus = held monitor.connStatus (statuses events)

/-- The monitor takes every sequence of events. -/
theorem Consistent.reaches {monitor : Monitor} (consistent : Consistent monitor)
    (events : List Durations.Event) : ∃ final, Reaches monitor events final := by
  induction events generalizing monitor with
  | nil => exact ⟨monitor, rfl, consistent, rfl, rfl⟩
  | cons event rest inductionHypothesis =>
    cases event with
    | status changedIdx newStatus clock =>
      obtain ⟨next, handled, after, assetConns, connStatus⟩ :=
        consistent.onStatus changedIdx newStatus clock
      obtain ⟨final, reached⟩ := inductionHypothesis after
      refine ⟨final, ?_, reached.consistent, ?_, ?_⟩
      · rw [Runs.run_cons, monitorStep, handled]
        exact reached.completed
      · rw [reached.assetConns, assetConns]
        rfl
      · rw [reached.connStatus, connStatus]
        rfl
    | mapping assetConns now =>
      obtain ⟨final, reached⟩ :=
        inductionHypothesis (consistent_onMapping monitor assetConns)
      refine ⟨final, reached.completed, reached.consistent, ?_, reached.connStatus⟩
      rw [reached.assetConns]
      change _ = (assetConns :: mappings rest).getLast?.getD _
      rw [List.getLast?_cons]
      rfl

/-- Consistent monitors with the same mapping and the same statuses have the same
states. -/
theorem Consistent.states_eq {left right : Monitor} (consistentLeft : Consistent left)
    (consistentRight : Consistent right) (sameConns : left.assetConns = right.assetConns)
    (sameStatus : left.connStatus = right.connStatus) (asset : String) :
    left.assetStates.lookup asset = right.assetStates.lookup asset := by
  rw [consistentLeft.derived.states, consistentRight.derived.states, sameConns, sameStatus]

/-- States that agree are counted alike. -/
theorem countValues_congr {left right : AList (fun _ : String => AssetState)}
    (same : ∀ asset, left.lookup asset = right.lookup asset) (state : AssetState) :
    countValues state left = countValues state right := by
  have all : ∀ asset ∈ right, asset ∈ right.keys.toFinset :=
    fun asset member => List.mem_toFinset.mpr (AList.mem_keys.mp member)
  have allLeft : ∀ asset ∈ left, asset ∈ right.keys.toFinset := by
    intro asset member
    apply all
    rw [← AList.lookup_isSome] at member ⊢
    rw [← same]
    exact member
  unfold countValues
  rw [Maps.countP_entries left state allLeft, Maps.countP_entries right state all]
  simp only [same]

end Runs

/-- The monitor takes every interleaving of statuses and mappings, and is consistent
after it; it has the last mapping it took and of each connection the last status.
Any other interleaving of the same statuses that ends with the same mapping leads
to the same states and the same two gauges. -/
theorem monitor_consistent (events : List Durations.Event) :
    ∃ monitor, Runs.run monitorStep Monitor.new events = some monitor ∧ Consistent monitor ∧
      monitor.assetConns = (mappings events).getLast?.getD ∅ ∧
      monitor.connStatus = held ∅ (statuses events) ∧
      ∀ others other, statuses others = statuses events →
        (mappings others).getLast? = (mappings events).getLast? →
        Runs.run monitorStep Monitor.new others = some other →
        (∀ asset, other.assetStates.lookup asset = monitor.assetStates.lookup asset) ∧
          other.counters.assetsDown = monitor.counters.assetsDown ∧
          other.counters.assetsDegraded = monitor.counters.assetsDegraded := by
  obtain ⟨monitor, reached⟩ := consistent_new.reaches events
  refine ⟨monitor, reached.completed, reached.consistent, reached.assetConns, reached.connStatus,
    ?_⟩
  intro others other sameStatuses sameMapping completed
  obtain ⟨final, otherReached⟩ := consistent_new.reaches others
  obtain rfl : final = other := Option.some.inj (otherReached.completed.symm.trans completed)
  have states : ∀ asset,
      final.assetStates.lookup asset = monitor.assetStates.lookup asset := by
    apply otherReached.consistent.states_eq reached.consistent
    · rw [otherReached.assetConns, reached.assetConns, sameMapping]
    · rw [otherReached.connStatus, reached.connStatus, sameStatuses]
  refine ⟨states, ?_, ?_⟩
  · rw [otherReached.consistent.assetsDown, reached.consistent.assetsDown]
    exact countValues_congr states .down
  · rw [otherReached.consistent.assetsDegraded, reached.consistent.assetsDegraded]
    exact countValues_congr states .degraded

/-- A connection comes up before or after the monitor learns that it carries an
asset. -/
def upThenMapped : List Durations.Event :=
  [.status 0 .connected ⟨1, 1, fun _ => 1⟩, .mapping ((∅ : AssetConns).insert "yes" (0, 1)) 2]

def mappedThenUp : List Durations.Event :=
  [.mapping ((∅ : AssetConns).insert "yes" (0, 1)) 1, .status 0 .connected ⟨2, 2, fun _ => 2⟩]

theorem drained_in_either_order :
    ∃ monitor other, Runs.run monitorStep Monitor.new upThenMapped = some monitor ∧
      Runs.run monitorStep Monitor.new mappedThenUp = some other ∧
      other.assetStates.lookup "yes" = monitor.assetStates.lookup "yes" ∧
      other.counters.assetsDegraded = monitor.counters.assetsDegraded := by
  obtain ⟨monitor, completed, -, -, -, agrees⟩ := monitor_consistent upThenMapped
  obtain ⟨other, alsoCompleted, -⟩ := monitor_consistent mappedThenUp
  obtain ⟨states, -, degraded⟩ := agrees mappedThenUp other rfl rfl alsoCompleted
  exact ⟨monitor, other, completed, alsoCompleted, states "yes", degraded⟩

end Collector.Convergence
