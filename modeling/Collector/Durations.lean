import Collector.Monitor

/-!
# How long assets were down

The monitor notes when an asset enters a state other than healthy, and counts the
time since then when the asset leaves that state. Both happen where a status event
changes the state. A new mapping changes states too, and lets assets come and go,
but touches no noted time.

Beside the monitor stands what it should have noted: the instant at which each
asset entered its present state, and for every duration that was counted the stay
it was counted for. A mapping carries the instant at which it is taken.
-/

namespace Collector.Durations

open Monitor

/-- A duration that was counted when an asset left a state. -/
structure Amount where
  asset : String
  state : AssetState
  entered : Nat
  reading : Nat
  counted : Nat
deriving DecidableEq

/-- The monitor, the instant at which each asset entered its present state, and the
durations counted so far. -/
structure Observed where
  monitor : Monitor
  entered : String → Nat
  amounts : List Amount

/-- A status event, or a new mapping at an instant. -/
inductive Event where
  | status (changedIdx : Nat) (newStatus : ConnStatus) (clock : Clock)
  | mapping (assetConns : AssetConns) (now : Nat)

/-- The monitor as it starts. -/
def initial : Observed where
  monitor := Monitor.new
  entered := fun _ => 0
  amounts := []

/-- The counter of the time spent in a state. -/
def total : AssetState → HealthCounters → Nat
  | .healthy, _ => 0
  | .degraded, counters => counters.assetDegradedTotalMs
  | .down, counters => counters.assetDownTotalMs

/-- The duration counted by a transition, if a time was noted for the asset. -/
def amountOf (observed : Observed) (next : Monitor) (asset : String) (oldState : AssetState)
    (clock : Clock) : List Amount :=
  if oldState ≠ .healthy ∧ (observed.monitor.assetTransitionTime.lookup asset).isSome then
    [{ asset := asset
       state := oldState
       entered := observed.entered asset
       reading := clock.assetReading asset
       counted := total oldState next.counters - total oldState observed.monitor.counters }]
  else []

/-- Recompute one affected asset and observe whether its state changes. -/
def transition (clock : Clock) (observed : Observed) (asset : String) : Option Observed :=
  let newState := computeAssetState asset observed.monitor.connStatus observed.monitor.assetConns
  let oldState := (observed.monitor.assetStates.lookup asset).getD .down
  (assetTransition clock observed.monitor asset).map fun next =>
    if oldState = newState then { observed with monitor := next }
    else {
      monitor := next
      entered := Function.update observed.entered asset clock.now
      amounts := observed.amounts ++ amountOf observed next asset oldState clock }

/-- One status event. -/
def onStatus (observed : Observed) (changedIdx : Nat) (newStatus : ConnStatus) (clock : Clock) :
    Option Observed := do
  let oldStatus := statusOf observed.monitor.connStatus changedIdx
  let monitor := { observed.monitor with
    connStatus := observed.monitor.connStatus.insert changedIdx newStatus }
  if oldStatus = newStatus then some { observed with monitor := monitor }
  else
    let affected := (monitor.connToAssets.lookup changedIdx).getD []
    let observed ← Runs.run (transition clock)
      { observed with monitor := monitor.connTransition changedIdx oldStatus newStatus clock }
      affected
    some { observed with monitor := observed.monitor.updateAggregateGauges.finishStartup }

/-- A new mapping. An asset whose state it changes enters the new state now. -/
def onMapping (observed : Observed) (assetConns : AssetConns) (now : Nat) : Observed :=
  let next := observed.monitor.onMapping assetConns
  { observed with
    monitor := next
    entered := fun asset =>
      if observed.monitor.assetStates.lookup asset = next.assetStates.lookup asset then
        observed.entered asset
      else now }

/-- One step of the monitor. -/
def step (observed : Observed) : Event → Option Observed
  | .status changedIdx newStatus clock => onStatus observed changedIdx newStatus clock
  | .mapping assetConns now => some (onMapping observed assetConns now)

/-- The step of the monitor that is observed. -/
def monitorStep (monitor : Monitor) : Event → Option Monitor
  | .status changedIdx newStatus clock => monitor.onStatus changedIdx newStatus clock
  | .mapping assetConns _ => some (monitor.onMapping assetConns)

/-- A time is noted only for a tracked asset that is not healthy, and it is the
instant at which the asset entered its present state. -/
def Timed (observed : Observed) : Prop :=
  ∀ asset since, observed.monitor.assetTransitionTime.lookup asset = some since →
    asset ∈ observed.monitor.assetConns ∧
      ∃ state, observed.monitor.assetStates.lookup asset = some state ∧ state ≠ .healthy ∧
        since = observed.entered asset

/-- Every duration counted so far is the length of one stay. -/
def Measured (observed : Observed) : Prop :=
  ∀ amount ∈ observed.amounts, amount.counted = elapsedMs amount.entered amount.reading

/-- A new mapping keeps every asset with a noted time, in a state that is not
healthy. The state is the one before, unless the time was noted at this instant. -/
def Undisturbed (observed : Observed) : Event → Prop
  | .status _ _ _ => True
  | .mapping assetConns now =>
    ∀ asset since, observed.monitor.assetTransitionTime.lookup asset = some since →
      ∃ state, (recomputeStates assetConns observed.monitor.connStatus).lookup asset = some state ∧
        state ≠ .healthy ∧
        (observed.monitor.assetStates.lookup asset = some state ∨ since = now)

section Monitoring

/-- Observing a transition leaves the monitor's own transition as it is. -/
theorem transition_monitor (clock : Clock) (observed : Observed) (asset : String) :
    (transition clock observed asset).map Observed.monitor =
      assetTransition clock observed.monitor asset := by
  unfold transition
  cases assetTransition clock observed.monitor asset with
  | none => rfl
  | some next =>
    simp only [Option.map_some, Option.some.injEq]
    split <;> rfl

theorem run_transition_monitor (clock : Clock) (observed : Observed) (affected : List String) :
    (Runs.run (transition clock) observed affected).map Observed.monitor =
      Runs.run (assetTransition clock) observed.monitor affected := by
  induction affected generalizing observed with
  | nil => rfl
  | cons asset rest inductionHypothesis =>
    rw [Runs.run_cons, Runs.run_cons, ← transition_monitor]
    cases transition clock observed asset with
    | none => rfl
    | some next => exact inductionHypothesis next

/-- What is observed is the monitor itself. -/
theorem step_monitor (observed : Observed) (event : Event) :
    (step observed event).map Observed.monitor = monitorStep observed.monitor event := by
  cases event with
  | mapping assetConns now => rfl
  | status changedIdx newStatus clock =>
    simp only [step, onStatus, monitorStep, Monitor.onStatus]
    split
    · rfl
    · simp only [Option.bind_eq_bind, ← run_transition_monitor clock { observed with
        monitor := connTransition { observed.monitor with
          connStatus := observed.monitor.connStatus.insert changedIdx newStatus } changedIdx
          (statusOf observed.monitor.connStatus changedIdx) newStatus clock }]
      cases Runs.run (transition clock) _ _ with
      | none => rfl
      | some next => rfl

end Monitoring

section Transitions

variable {clock : Clock} {monitor next : Monitor} {asset : String}

/-- A transition that was taken: the state stays, or it is left and another one entered. -/
theorem assetTransition_cases (taken : assetTransition clock monitor asset = some next) :
    let newState := computeAssetState asset monitor.connStatus monitor.assetConns
    let oldState := (monitor.assetStates.lookup asset).getD .down
    let updated := { monitor with assetStates := monitor.assetStates.insert asset newState }
    (oldState = newState ∧ next = updated) ∨
      (oldState ≠ newState ∧ asset ∈ monitor.assetConns ∧
        next = (updated.exitState asset oldState clock).enterState asset newState clock) := by
  simp only [assetTransition] at taken
  split at taken
  · rename_i same
    exact Or.inl ⟨same, (Option.some.inj taken).symm⟩
  · rename_i changed
    obtain ⟨conns, found, entered⟩ := Option.bind_eq_some_iff.mp taken
    exact Or.inr ⟨changed, (Maps.mem_iff_lookup _ asset).mpr ⟨conns, found⟩,
      (Option.some.inj entered).symm⟩

/-- The time noted for an asset is taken out when it leaves a state. -/
theorem exitState_times (monitor : Monitor) (asset tested : String) (oldState : AssetState)
    (clock : Clock) :
    (monitor.exitState asset oldState clock).assetTransitionTime.lookup tested =
      if tested = asset ∧ oldState ≠ .healthy then none
      else monitor.assetTransitionTime.lookup tested := by
  by_cases same : tested = asset
  · subst same
    cases oldState <;> simp [exitState]
  · cases oldState <;> simp [exitState, same, AList.lookup_erase_ne same]

/-- And the present time is noted when it enters one. -/
theorem enterState_times (monitor : Monitor) (asset tested : String) (newState : AssetState)
    (clock : Clock) :
    (monitor.enterState asset newState clock).assetTransitionTime.lookup tested =
      if tested = asset ∧ newState ≠ .healthy then some clock.now
      else monitor.assetTransitionTime.lookup tested := by
  by_cases same : tested = asset
  · subst same
    cases newState <;> simp [enterState]
  · cases newState <;> simp [enterState, same, AList.lookup_insert_ne same]

/-- The duration counted when a state is left. -/
theorem total_exitState (monitor : Monitor) (asset : String) {oldState : AssetState}
    (clock : Clock) {since : Nat} (noted : monitor.assetTransitionTime.lookup asset = some since)
    (left : oldState ≠ .healthy) :
    total oldState (monitor.exitState asset oldState clock).counters =
      total oldState monitor.counters + elapsedMs since (clock.assetReading asset) := by
  cases oldState with
  | healthy => exact absurd rfl left
  | degraded => simp [exitState, total, noted]
  | down => simp [exitState, total, noted]

/-- Entering a state counts no duration. -/
theorem total_enterState (monitor : Monitor) (asset : String) (state newState : AssetState)
    (clock : Clock) :
    total state (monitor.enterState asset newState clock).counters =
      total state monitor.counters := by
  cases newState <;> cases state <;> rfl

/-- Neither changes the states or the mapping. -/
theorem exit_enter_frame (monitor : Monitor) (asset : String) (oldState newState : AssetState)
    (clock : Clock) :
    ((monitor.exitState asset oldState clock).enterState asset newState clock).assetStates =
        monitor.assetStates ∧
      ((monitor.exitState asset oldState clock).enterState asset newState clock).assetConns =
        monitor.assetConns := by
  cases oldState <;> cases newState <;> exact ⟨rfl, rfl⟩

end Transitions

/-- The times noted are right and so is what was counted. -/
structure Sound (observed : Observed) : Prop where
  timed : Timed observed
  measured : Measured observed

theorem sound_initial : Sound initial where
  timed := by simp [Timed, initial, Monitor.new]
  measured := by simp [Measured, initial]

/-- A transition keeps the times right: the asset enters its new state at the time
that is noted for it. -/
theorem Sound.transition {clock : Clock} {observed next : Observed} {asset : String}
    (sound : Sound observed) (taken : Durations.transition clock observed asset = some next) :
    Sound next := by
  obtain ⟨monitor, moved, rfl⟩ := Option.map_eq_some_iff.mp taken
  rcases assetTransition_cases moved with ⟨same, rfl⟩ | ⟨changed, tracked, isNext⟩
  · rw [if_pos same]
    refine ⟨?_, sound.measured⟩
    intro tested since noted
    obtain ⟨tracked, state, stored, unhealthy, entered⟩ := sound.timed tested since noted
    refine ⟨tracked, state, ?_, unhealthy, entered⟩
    by_cases isAsset : tested = asset
    · subst isAsset
      rw [stored, Option.getD_some] at same
      simp only [AList.lookup_insert, same]
    · simp only [AList.lookup_insert_ne isAsset]
      exact stored
  · rw [if_neg changed]
    constructor
    · intro tested since noted
      rw [isNext, enterState_times, exitState_times] at noted
      simp only [isNext, (exit_enter_frame _ asset _ _ clock).1,
        (exit_enter_frame _ asset _ _ clock).2]
      by_cases isAsset : tested = asset
      · subst isAsset
        simp only [true_and, AList.lookup_insert, Function.update_self] at noted ⊢
        refine ⟨tracked, _, rfl, ?_⟩
        split at noted
        · rename_i unhealthy
          exact ⟨unhealthy, (Option.some.inj noted).symm⟩
        · rename_i healthy
          rw [not_not] at healthy
          rw [healthy] at changed
          rw [if_pos changed] at noted
          exact absurd noted nofun
      · simp only [isAsset, false_and, if_false] at noted
        simp only [AList.lookup_insert_ne isAsset, Function.update_of_ne isAsset]
        exact sound.timed tested since noted
    · intro amount member
      rcases List.mem_append.mp member with before | added
      · exact sound.measured amount before
      · unfold amountOf at added
        split at added
        · rename_i counts
          obtain rfl := List.mem_singleton.mp added
          obtain ⟨since, noted⟩ := Option.isSome_iff_exists.mp counts.2
          obtain ⟨-, state, stored, -, entered⟩ := sound.timed asset since noted
          have left := total_exitState { observed.monitor with
            assetStates := observed.monitor.assetStates.insert asset
              (computeAssetState asset observed.monitor.connStatus observed.monitor.assetConns) }
            asset clock noted counts.1
          simp only [isNext, total_enterState, left, entered, Nat.add_sub_cancel_left]
        · exact absurd added (List.not_mem_nil)

/-- A status event keeps the times right. -/
theorem Sound.onStatus {observed next : Observed} (sound : Sound observed) {changedIdx : Nat}
    {newStatus : ConnStatus} {clock : Clock}
    (taken : Durations.onStatus observed changedIdx newStatus clock = some next) : Sound next := by
  simp only [Durations.onStatus] at taken
  split at taken
  · obtain rfl := Option.some.inj taken
    exact ⟨sound.timed, sound.measured⟩
  · obtain ⟨middle, completed, last⟩ := Option.bind_eq_some_iff.mp taken
    obtain rfl := Option.some.inj last
    have initially : Sound { observed with
        monitor := connTransition { observed.monitor with
          connStatus := observed.monitor.connStatus.insert changedIdx newStatus } changedIdx
          (statusOf observed.monitor.connStatus changedIdx) newStatus clock } := by
      obtain ⟨since, counters, booked⟩ := connTransition_frame { observed.monitor with
        connStatus := observed.monitor.connStatus.insert changedIdx newStatus } changedIdx
        (statusOf observed.monitor.connStatus changedIdx) newStatus clock
      rw [booked]
      exact ⟨sound.timed, sound.measured⟩
    have settled : Sound middle := Runs.invariant
      (fun _ _ _ moved before => Sound.transition before moved) completed initially
    refine ⟨?_, settled.measured⟩
    unfold Timed finishStartup updateAggregateGauges
    split <;> exact settled.timed

/-- A new mapping keeps the times right just when it is undisturbed. -/
theorem timed_onMapping_iff {observed : Observed} (timed : Timed observed)
    (assetConns : AssetConns) (now : Nat) :
    Timed (onMapping observed assetConns now) ↔ Undisturbed observed (.mapping assetConns now) := by
  refine forall₂_congr fun asset since => ?_
  refine forall_congr' fun noted => ?_
  obtain ⟨-, before, stored, -, entered⟩ := timed asset since noted
  have tracked : asset ∈ assetConns ↔
      ∃ state, (recomputeStates assetConns observed.monitor.connStatus).lookup asset =
        some state := by
    rw [recomputeStates, Maps.lookup_mapValues, Maps.mem_iff_lookup]
    simp [Option.map_eq_some_iff]
  simp only [onMapping, Monitor.onMapping, updateAggregateGauges, stored]
  constructor
  · rintro ⟨-, state, found, unhealthy, instant⟩
    refine ⟨state, found, unhealthy, ?_⟩
    rw [found] at instant
    split at instant
    · rename_i same
      exact Or.inl same
    · exact Or.inr instant
  · rintro ⟨state, found, unhealthy, either⟩
    refine ⟨tracked.mpr ⟨state, found⟩, state, found, unhealthy, ?_⟩
    rw [found]
    split
    · exact entered
    · rename_i different
      exact either.resolve_left different

/-- An undisturbed step keeps the times right and what was counted. -/
theorem sound_step (observed : Observed) (event : Event) (next : Observed)
    (undisturbed : Undisturbed observed event) (taken : step observed event = some next)
    (sound : Sound observed) : Sound next := by
  cases event with
  | status changedIdx newStatus clock => exact sound.onStatus taken
  | mapping assetConns now =>
    obtain rfl := Option.some.inj taken
    exact ⟨(timed_onMapping_iff sound.timed assetConns now).mpr undisturbed, sound.measured⟩

/-- In every state of a run the noted times are those at which assets entered their
present states, and every counted duration is that of one stay, just when no
mapping of the run disturbs an asset with a noted time. -/
theorem durations_measure_stays_iff (events : List Event) :
    (∀ before after middle, events = before ++ after →
        Runs.run step initial before = some middle → Timed middle ∧ Measured middle) ↔
      Runs.Along step Undisturbed initial events := by
  constructor
  · intro always
    apply Runs.along_iff.mpr
    intro before event after middle split reached
    cases event with
    | status changedIdx newStatus clock => trivial
    | mapping assetConns now =>
      obtain ⟨timed, -⟩ := always before (.mapping assetConns now :: after) middle split reached
      apply (timed_onMapping_iff timed assetConns now).mp
      refine (always (before ++ [.mapping assetConns now]) after _ ?_ ?_).1
      · rw [split, List.append_assoc]
        rfl
      · rw [Runs.run_append reached]
        rfl
  · intro along before after middle split reached
    rw [split] at along
    have sound : Sound middle :=
      Runs.invariant_along sound_step along.left reached sound_initial
    exact ⟨sound.timed, sound.measured⟩

/-- One asset on the first two connections. -/
def oneAsset : AssetConns := (∅ : AssetConns).insert "y1" (0, 1)

/-- One connection of an asset comes up. The asset is unsubscribed for a while and
subscribed again, and then its other connection comes up. -/
def resubscribed : List Event :=
  [.mapping oneAsset 0, .status 0 .connected ⟨1000000, 1000000, fun _ => 1000000⟩,
    .mapping ∅ 2000000, .mapping oneAsset 10000000,
    .status 1 .connected ⟨12000000, 12000000, fun _ => 12000000⟩]

/-- Its time stays noted while it is not tracked, and counts from before it left. -/
theorem resubscribed_duration_spans_the_gap :
    ∃ unsubscribed final, Runs.run step initial (resubscribed.take 3) = some unsubscribed ∧
      ¬ Timed unsubscribed ∧ Runs.run step initial resubscribed = some final ∧
      final.amounts = [⟨"y1", .degraded, 10000000, 12000000, 11⟩] ∧ ¬ Measured final := by
  refine ⟨_, _, rfl, ?_, rfl, by decide, ?_⟩
  · intro timed
    obtain ⟨tracked, -⟩ := timed "y1" 1000000 (by decide)
    exact absurd tracked (by decide)
  · intro measured
    exact absurd (measured ⟨"y1", .degraded, 10000000, 12000000, 11⟩ (by decide)) (by decide)

end Collector.Durations
