import Collector.Agreement

/-!
# Restarts of the tracker

The tracker keeps the active markets in memory only. When it starts again it
takes what Gamma lists by then and publishes nothing about the difference, so a
consumer that kept running stays with what the stream announced. The two sets
are equal just when every market that opened or closed in between has been
published since.
-/

namespace Collector.Agreement

open Replay (Delta replay)

/-- A start puts the tracker in step with its listing. -/
theorem tracks_start {maxAssetsPerConn : Nat} {listed : List RawMarket}
    {stopped started : State}
    (taken : step maxAssetsPerConn stopped (.start listed) = some started) :
    Tracks (listedMarkets listed) stopped.stream started := by
  obtain ⟨-, rfl⟩ := Runs.guarded taken
  refine ⟨[], (List.append_nil _).symm, ?_⟩
  exact Tracker.tracked_start (listing listed)

/-- After the last start of the tracker, a consumer that has kept running since the
cache agreed and has processed the whole stream has subscribed to what the stream
announced. This is what the tracker tracks just when every market without an entry
since the start was announced before it if and only if it is listed now. -/
theorem restart_agrees_iff {maxAssetsPerConn : Nat} {origin listed : List RawMarket}
    {before life after : List Action} {first second : Shuffle} {loading stopped state : State}
    (reached : Runs.run (step maxAssetsPerConn) (initial origin) before = some loading)
    (stops : Runs.run (step maxAssetsPerConn) loading
      (.consumer (.preload first second) :: life) = some stopped)
    (completed : Runs.run (step maxAssetsPerConn) stopped (.start listed :: after) =
      some state)
    (keepsRunning : ∀ action ∈ life ++ after, action.SameLife)
    (uninterrupted : ∀ action ∈ after, action.Uninterrupted)
    (orderly : Runs.Along (step maxAssetsPerConn) Orderly stopped (.start listed :: after))
    (agrees : CacheAgrees (listedMarkets origin) loading state)
    (settled : state.tracker.Settled) {pool : Pool} {listener : Listener}
    (reading : state.consumer = .listening pool listener)
    (drained : state.group.Drained state.stream) :
    (∀ market, market ∈ pool.markets ↔
      market ∈ replay (listedMarkets origin) (state.stream.map Entry.delta)) ∧
    ((∀ market, market ∈ pool.markets ↔ market ∈ state.tracker.active) ↔
      ∀ market, (∀ entry ∈ state.stream.drop stopped.stream.length,
          market ∉ entry.delta.elements) →
        (market ∈ replay (listedMarkets origin) (stopped.stream.map Entry.delta) ↔
          market ∈ listedMarkets listed)) := by
  -- for the consumer the start of the tracker is a step like any other
  have whole : Runs.run (step maxAssetsPerConn) loading
      (.consumer (.preload first second) :: (life ++ .start listed :: after)) = some state :=
    (Runs.run_append stops (.start listed :: after)).trans completed
  have sameLife : ∀ action ∈ life ++ .start listed :: after, action.SameLife := by
    intro action member
    rcases List.mem_append.mp member with inLife | inAfter
    · exact keepsRunning action (List.mem_append_left _ inLife)
    · rcases List.mem_cons.mp inAfter with rfl | later
      · exact nofun
      · exact keepsRunning action (List.mem_append_right _ later)
  have announced : ∀ market, market ∈ pool.markets ↔
      market ∈ replay (listedMarkets origin) (state.stream.map Entry.delta) :=
    (processed_iff _ reached whole sameLife reading drained).mpr agrees
  refine ⟨announced, ?_⟩
  obtain ⟨started, starting, continued⟩ := Runs.run_cons_some completed
  have tracks : Tracks (listedMarkets listed) stopped.stream state :=
    (tracks_start starting).run uninterrupted (orderly.2 started starting) continued
  obtain ⟨published, split, tracked⟩ := tracks
  have since : state.stream.drop stopped.stream.length = published := by
    rw [split, List.drop_left]
  have agree := Replay.replay_agree_iff
    (replay (listedMarkets origin) (stopped.stream.map Entry.delta))
    (listedMarkets listed) (published.map Entry.delta)
  rw [← Replay.replay_append, ← List.map_append, ← split] at agree
  simp only [announced, tracked.settled settled, since]
  simpa only [List.forall_mem_map] using agree

section Sample

/-- A consumer gets ready, and the tracker stops. -/
def untilStop : List Action := [.consumer .read, .stop true]

/-- Nothing has changed at Gamma; later a market appears and is published. -/
def afterRestart : List Action :=
  [.startUp, .tracker (.fetchNew [sampleRecord "b"]), .tracker .landNewMarkets,
    .tracker .resumeNewMarkets, .tracker .landNewMarkets, .tracker .resumeNewMarkets,
    .consumer .read, .consumer (.dispatch .unchanged .unchanged), .consumer .ack]

/-- The tracker is down. -/
def stoppedState : State :=
  (Runs.run (step 4) (initial [sampleRecord "a"])
    (.consumer (.preload .unchanged .unchanged) :: untilStop)).get (by decide)

theorem orderly_afterRestart :
    Runs.Along (step 4) Orderly stoppedState (.start [sampleRecord "a"] :: afterRestart) := by
  refine .cons trivial rfl (.cons trivial rfl ?_)
  refine .cons (consistent_singleton _) rfl ?_
  refine .cons trivial rfl (.cons trivial rfl (.cons trivial rfl (.cons trivial rfl ?_)))
  exact .cons trivial rfl (.cons trivial rfl (.cons trivial rfl trivial))

/-- A listing that is the same as before keeps the consumer with the tracker. -/
theorem unchanged_restart_agrees :
    ∃ state pool listener,
      Runs.run (step 4) stoppedState (.start [sampleRecord "a"] :: afterRestart) = some state ∧
      state.consumer = .listening pool listener ∧
      ∀ market, market ∈ pool.markets ↔ market ∈ state.tracker.active := by
  have reached : Runs.run (step 4) (initial [sampleRecord "a"]) [] =
      some (initial [sampleRecord "a"]) := rfl
  have stops : Runs.run (step 4) (initial [sampleRecord "a"])
      (.consumer (.preload .unchanged .unchanged) :: untilStop) = some stoppedState := rfl
  refine ⟨_, _, _, rfl, rfl, ?_⟩
  apply (restart_agrees_iff reached stops rfl _ _ orderly_afterRestart
    (agrees_of_hashes (by decide) _) ⟨rfl, rfl, rfl⟩ rfl (by decide)).2.mpr
  · exact fun _ _ => Iff.rfl
  · simp [untilStop, afterRestart, Action.SameLife]
  · simp [afterRestart, Action.Uninterrupted]

/-- One market closes and another opens while the tracker is down. Its start is
complete and the stream is processed, and the consumer has the one and misses the
other. -/
theorem restart_misses_changes :
    ∃ state pool listener,
      Runs.run (step 4) (initial [sampleRecord "a"])
        (.consumer (.preload .unchanged .unchanged) :: untilStop ++
          [.start [sampleRecord "b"], .startUp]) = some state ∧
      state.life = .up ∧ state.cache = Tracker.cacheData state.tracker.active ∧
      state.consumer = .listening pool listener ∧ state.group.Drained state.stream ∧
      "a" ∈ pool.markets ∧ "a" ∉ state.tracker.active ∧
      "b" ∉ pool.markets ∧ "b" ∈ state.tracker.active := by
  refine ⟨_, _, _, rfl, rfl, ?_, rfl, ?_, ?_, ?_, ?_, ?_⟩
  all_goals decide

end Sample

end Collector.Agreement
