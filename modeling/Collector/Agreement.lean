import Collector.Consumer
import Collector.Tracker

/-!
# Tracker and consumer

The tracker writes the cache and the stream, and a consumer reads both. Their
steps interleave freely, the consumer may crash and start over at any time, and
the tracker may stop between two publishes and start again with what Gamma lists
by then. Every publish, save and acknowledgement succeeds and no entry is
trimmed.

A consumer that starts with a stale cache misses what it acknowledged in an
earlier life, and one that sees a resolution before the entry that adds the
market keeps the market. As long as the tracker runs without interruption and
resolutions arrive in order, a consumer that has processed the stream has
subscribed to exactly the active markets just when the cache agreed that it
started with.
-/

namespace Collector.Agreement

open Replay (Delta replay)
open StreamGroup (Group)

/-- Whether the tracker runs; a start is not complete before its first save. -/
inductive Life where
  | down
  | starting
  | up
deriving DecidableEq

/-- The tracker, what is at the server, and the consumer. -/
structure State where
  life : Life
  tracker : Tracker
  cache : List Market
  stream : List Entry
  group : Group
  consumer : Consumer

/-- The steps of both processes. A start carries what Gamma lists. -/
inductive Action where
  | stop (graceful : Bool)
  | start (listed : List RawMarket)
  | startUp
  | tracker (action : Tracker.Action)
  | consumer (action : Consumer.Action)

/-- The active markets of a listing. -/
def listing (listed : List RawMarket) : ActiveMarkets :=
  Tracker.activeMarkets (parseMarkets listed)

/-- The hashes of a listing. -/
def listedMarkets (listed : List RawMarket) : Finset String :=
  (listing listed).keys.toFinset

/-- A tracker that has started and saved the cache, before any entry. -/
def initial (listed : List RawMarket) : State where
  life := .up
  tracker := Tracker.start (listing listed)
  cache := Tracker.cacheData (listing listed)
  stream := []
  group := ⟨0, []⟩
  consumer := .down

/-- One step. A publish that is sent succeeds, so the tracker stops only while
none is on its way; a graceful stop saves the cache once more. -/
def step (maxAssetsPerConn : Nat) (state : State) : Action → Option State
  | .stop graceful =>
    if state.life = .up ∧ state.tracker.resolution.inFlight = none ∧
        state.tracker.newMarkets.inFlight = none then
      some { state with
        life := .down
        tracker := Tracker.start ∅
        cache := if graceful then Tracker.cacheData state.tracker.active else state.cache }
    else none
  | .start listed =>
    if state.life = .down then
      some { state with
        life := .starting
        tracker := Tracker.start (listing listed) }
    else none
  | .startUp =>
    if state.life = .starting then
      some { state with
        life := .up
        cache := Tracker.cacheData state.tracker.active }
    else none
  | .tracker action =>
    if state.life = .up then
      (Tracker.step state.tracker action).map fun (tracker, write) => { state with
        tracker := tracker
        cache := write.saved state.cache
        stream := state.stream ++ write.published }
    else none
  | .consumer action =>
    (Consumer.step maxAssetsPerConn state.cache state.stream state.group state.consumer action).map
      fun (group, consumer) => { state with
        group := group
        consumer := consumer }

/-- A step that leaves the tracker running as it was. -/
def Action.Uninterrupted : Action → Prop
  | .stop _ => False
  | .start _ => False
  | .startUp => True
  | .tracker _ => True
  | .consumer _ => True

/-- A step that does not start the consumer. -/
def Action.SameLife (action : Action) : Prop :=
  ∀ first second, action ≠ .consumer (.preload first second)

/-- A resolution arrives after the entry that adds its market, and Gamma does not
contradict itself. -/
def Orderly (state : State) : Action → Prop
  | .tracker action => Tracker.Orderly state.tracker action
  | _ => True

/-- No entry mentions the market that was still to be acknowledged when the
consumer started or has been published since. -/
def Silent (loading state : State) (market : String) : Prop :=
  ∀ entry id, (entry, id) ∈ StreamGroup.entries state.stream → loading.group.Unacked id →
    market ∉ entry.delta.elements

/-- The cache that a start of the consumer reads agrees with what was published
by then about every market of which no entry comes afterwards. -/
def CacheAgrees (origin : Finset String) (loading state : State) : Prop :=
  ∀ market, Silent loading state market →
    (market ∈ loading.cache.map Market.hash ↔
      market ∈ replay origin (loading.stream.map Entry.delta))

/-- The tracker is in step with what was published since it started from a base. -/
def Tracks (base : Finset String) (earlier : List Entry) (state : State) : Prop :=
  ∃ published, state.stream = earlier ++ published ∧
    Tracker.Tracked base published state.tracker

/-- The consumer is in step with the stream from where it started. -/
def Reads (loaded : Finset String) (start : Nat) (state : State) : Prop :=
  ∃ acked, state.group.Contiguous state.stream acked ∧
    Consumer.Follows loaded start state.stream state.group acked state.consumer

section Steps

variable {maxAssetsPerConn : Nat} {base loaded : Finset String}
  {earlier : List Entry} {start : Nat} {state next : State} {action : Action}

theorem tracks_initial (listed : List RawMarket) :
    Tracks (listedMarkets listed) [] (initial listed) :=
  ⟨[], rfl, Tracker.tracked_start (listing listed)⟩

theorem reads_initial (listed : List RawMarket) : Reads ∅ 0 (initial listed) := by
  refine ⟨0, ⟨?_, le_rfl, le_rfl⟩, trivial⟩
  intro id
  simp only [initial, List.not_mem_nil, false_iff]
  omega

/-- A step of the tracker publishes what it tracks. -/
theorem Tracks.step (tracks : Tracks base earlier state)
    (uninterrupted : action.Uninterrupted) (orderly : Orderly state action)
    (taken : Agreement.step maxAssetsPerConn state action = some next) :
    Tracks base earlier next := by
  obtain ⟨published, split, tracked⟩ := tracks
  cases action with
  | stop graceful => exact uninterrupted.elim
  | start listed => exact uninterrupted.elim
  | startUp =>
    obtain ⟨-, rfl⟩ := Runs.guarded taken
    exact ⟨published, split, tracked⟩
  | tracker action =>
    obtain ⟨-, moved⟩ := Option.ite_none_right_eq_some.mp taken
    obtain ⟨⟨tracker, write⟩, stepped, rfl⟩ := Option.map_eq_some_iff.mp moved
    refine ⟨published ++ write.published, ?_, tracked.step orderly stepped⟩
    simp only
    rw [split, List.append_assoc]
  | consumer action =>
    obtain ⟨_, _, rfl⟩ := Option.map_eq_some_iff.mp taken
    exact ⟨published, split, tracked⟩

/-- An uninterrupted tracker publishes what it tracks. -/
theorem Tracks.run {actions : List Action} {final : State}
    (tracks : Tracks base earlier state)
    (uninterrupted : ∀ action ∈ actions, action.Uninterrupted)
    (orderly : Runs.Along (Agreement.step maxAssetsPerConn) Orderly state actions)
    (completed : Runs.run (Agreement.step maxAssetsPerConn) state actions = some final) :
    Tracks base earlier final := by
  have along : Runs.Along (Agreement.step maxAssetsPerConn)
      (fun _ action => action.Uninterrupted) state actions :=
    Runs.along_of_forall state actions fun action member _ => uninterrupted action member
  apply Runs.invariant_along _ (orderly.and along) completed tracks
  intro previous action following met taken tracks
  exact tracks.step met.2 met.1 taken

/-- The tracker appends to the stream at most, and only the consumer takes its own
steps, against the stream as it stands. -/
theorem consumer_or_tracker (taken : Agreement.step maxAssetsPerConn state action = some next) :
    (∃ published, next.stream = state.stream ++ published ∧ next.group = state.group ∧
      next.consumer = state.consumer) ∨
    ∃ move, action = .consumer move ∧ next.stream = state.stream ∧
      Consumer.step maxAssetsPerConn state.cache state.stream state.group state.consumer move =
        some (next.group, next.consumer) := by
  cases action with
  | stop graceful =>
    obtain ⟨-, rfl⟩ := Runs.guarded taken
    exact Or.inl ⟨[], (List.append_nil _).symm, rfl, rfl⟩
  | start listed =>
    obtain ⟨-, rfl⟩ := Runs.guarded taken
    exact Or.inl ⟨[], (List.append_nil _).symm, rfl, rfl⟩
  | startUp =>
    obtain ⟨-, rfl⟩ := Runs.guarded taken
    exact Or.inl ⟨[], (List.append_nil _).symm, rfl, rfl⟩
  | tracker action =>
    obtain ⟨-, moved⟩ := Option.ite_none_right_eq_some.mp taken
    obtain ⟨⟨tracker, write⟩, -, rfl⟩ := Option.map_eq_some_iff.mp moved
    exact Or.inl ⟨write.published, rfl, rfl, rfl⟩
  | consumer move =>
    obtain ⟨⟨group, consumer⟩, stepped, rfl⟩ := Option.map_eq_some_iff.mp taken
    exact Or.inr ⟨move, rfl, rfl, stepped⟩

/-- A step that does not start the consumer keeps it with the stream. -/
theorem Reads.step (reads : Reads loaded start state) (sameLife : action.SameLife)
    (taken : Agreement.step maxAssetsPerConn state action = some next) :
    Reads loaded start next := by
  obtain ⟨acked, contiguous, follows⟩ := reads
  rcases consumer_or_tracker taken with
    ⟨published, grown, group, consumer⟩ | ⟨move, rfl, same, stepped⟩
  · refine ⟨acked, ?_, ?_⟩
    · rw [grown, group]
      exact contiguous.append published
    · rw [grown, group, consumer]
      exact follows.append contiguous published
  · rw [Reads, same]
    apply follows.step contiguous _ stepped
    intro first second loading
    exact sameLife first second (congrArg Action.consumer loading)

/-- A start of the consumer begins where the group stands. -/
theorem Reads.preload {first second : Shuffle} (reads : Reads loaded start state)
    (taken : Agreement.step maxAssetsPerConn state (.consumer (.preload first second)) =
      some next) :
    ∃ acked, state.group.Contiguous state.stream acked ∧ next.stream = state.stream ∧
      Reads (state.cache.map Market.hash).toFinset acked next := by
  obtain ⟨acked, contiguous, -⟩ := reads
  obtain ⟨⟨group, consumer⟩, stepped, rfl⟩ := Option.map_eq_some_iff.mp taken
  refine ⟨acked, contiguous, rfl, acked, ?_⟩
  cases down : state.consumer with
  | down =>
    rw [down] at stepped
    obtain ⟨rfl, rfl⟩ := Prod.mk.inj (Option.some.inj stepped)
    exact ⟨contiguous, Consumer.follows_preload contiguous⟩
  | listening pool listener =>
    rw [down] at stepped
    exact absurd stepped (by simp [Consumer.step])
  | panicked pool =>
    rw [down] at stepped
    exact absurd stepped (by simp [Consumer.step])

/-- Every step keeps the consumer with the stream from some start. -/
theorem exists_reads_step
    (taken : step maxAssetsPerConn state action = some next)
    (reads : ∃ loaded start, Reads loaded start state) :
    ∃ loaded start, Reads loaded start next := by
  obtain ⟨loaded, start, reads⟩ := reads
  by_cases loading : ∃ first second, action = .consumer (.preload first second)
  · obtain ⟨first, second, rfl⟩ := loading
    obtain ⟨acked, -, -, started⟩ := reads.preload taken
    exact ⟨_, acked, started⟩
  · refine ⟨loaded, start, reads.step ?_ taken⟩
    intro first second same
    exact loading ⟨first, second, same⟩

/-- Only a start brings the consumer up. -/
theorem stays_down (sameLife : action.SameLife)
    (taken : step maxAssetsPerConn state action = some next)
    (down : state.consumer = .down) : next.consumer = .down := by
  rcases consumer_or_tracker taken with ⟨_, -, -, consumer⟩ | ⟨move, rfl, -, stepped⟩
  · exact consumer.trans down
  · rw [down] at stepped
    cases move with
    | preload first second => exact absurd rfl (sameLife first second)
    | _ => exact absurd stepped (by simp [Consumer.step])

/-- The stream only grows. -/
theorem stream_grows (taken : step maxAssetsPerConn state action = some next) :
    state.stream <+: next.stream := by
  rcases consumer_or_tracker taken with ⟨published, grown, -, -⟩ | ⟨_, -, same, -⟩
  · exact ⟨published, grown.symm⟩
  · rw [same]

end Steps

section Life

variable {maxAssetsPerConn : Nat} {listed : List RawMarket}
  {before life : List Action} {first second : Shuffle} {loading state : State}

/-- A life of the consumer: it reads on from where it started. -/
theorem reads_life
    (reached : Runs.run (step maxAssetsPerConn) (initial listed) before = some loading)
    (completed : Runs.run (step maxAssetsPerConn) loading
      (.consumer (.preload first second) :: life) = some state)
    (sameLife : ∀ action ∈ life, action.SameLife) :
    ∃ acked, loading.group.Contiguous loading.stream acked ∧ loading.stream <+: state.stream ∧
      Reads (loading.cache.map Market.hash).toFinset acked state := by
  have reads : ∃ loaded start, Reads loaded start loading :=
    Runs.invariant (fun _ _ _ taken reads => exists_reads_step taken reads) reached
      ⟨∅, 0, reads_initial listed⟩
  obtain ⟨loaded, start, reads⟩ := reads
  obtain ⟨started, starting, continued⟩ := Runs.run_cons_some completed
  obtain ⟨acked, contiguous, same, begun⟩ := reads.preload starting
  refine ⟨acked, contiguous, ?_, ?_⟩
  · have grows : ∀ state action next, step maxAssetsPerConn state action = some next →
        started.stream <+: state.stream → started.stream <+: next.stream :=
      fun _ _ _ taken grown => grown.trans (stream_grows taken)
    rw [← same]
    exact Runs.invariant grows continued (List.prefix_refl started.stream)
  · exact Runs.invariant_along (fun _ _ _ sameLife taken reads => reads.step sameLife taken)
      (Runs.along_of_forall started life fun action member _ => sameLife action member) continued
      begun

/-- A consumer that has processed the whole stream has subscribed to what was ever
published just when the cache it started with agreed. -/
theorem processed_iff (origin : Finset String)
    (reached : Runs.run (step maxAssetsPerConn) (initial listed) before = some loading)
    (completed : Runs.run (step maxAssetsPerConn) loading
      (.consumer (.preload first second) :: life) = some state)
    (sameLife : ∀ action ∈ life, action.SameLife) {pool : Pool} {listener : Listener}
    (reading : state.consumer = .listening pool listener)
    (drained : state.group.Drained state.stream) :
    (∀ market, market ∈ pool.markets ↔ market ∈ replay origin (state.stream.map Entry.delta)) ↔
      CacheAgrees origin loading state := by
  obtain ⟨acked, started, ⟨more, grown⟩, later, contiguous, follows⟩ :=
    reads_life reached completed sameLife
  rw [reading] at follows
  have inside : acked ≤ loading.stream.length := started.acked_le.trans started.delivered_le
  -- the part of the stream the consumer has dispatched in this life
  have rest : state.stream.drop acked = loading.stream.drop acked ++ more := by
    rw [← grown, List.drop_append_of_le_length inside]
  have whole : replay origin (state.stream.map Entry.delta) =
      replay (replay origin ((loading.stream.take acked).map Entry.delta))
        ((state.stream.drop acked).map Entry.delta) := by
    rw [rest, ← Replay.replay_append, ← List.map_append, ← List.append_assoc,
      List.take_append_drop, grown]
  have silent_iff : ∀ market, Silent loading state market ↔
      ∀ delta ∈ (state.stream.drop acked).map Entry.delta, market ∉ delta.elements := by
    intro market
    rw [List.forall_mem_map, ← grown]
    constructor
    · intro silent entry member
      obtain ⟨id, numbered, unacked⟩ := ((started.append more).mem_drop entry).mp member
      exact silent entry id (grown ▸ numbered) unacked
    · intro silent entry id numbered unacked
      exact silent entry (((started.append more).mem_drop entry).mpr
        ⟨id, grown.symm ▸ numbered, unacked⟩)
  simp only [← Pool.mem_subscribed, follows.drained contiguous drained, whole]
  rw [Replay.replay_agree_iff]
  apply forall_congr'
  intro market
  rw [silent_iff, List.mem_toFinset]
  apply imp_congr_right
  intro silent
  -- what is silent to the end is silent from the start of the consumer on
  have known : market ∈ replay origin (loading.stream.map Entry.delta) ↔
      market ∈ replay origin ((loading.stream.take acked).map Entry.delta) := by
    conv_lhs => rw [← List.take_append_drop acked loading.stream]
    rw [List.map_append, Replay.replay_append]
    apply Replay.mem_replay_of_silent
    intro delta member
    apply silent
    rw [rest, List.map_append]
    exact List.mem_append_left _ member
  rw [known]

/-- A consumer that runs was started. -/
theorem exists_last_preload {actions : List Action}
    (completed : Runs.run (step maxAssetsPerConn) (initial listed) actions = some state)
    {pool : Pool} {listener : Listener} (reading : state.consumer = .listening pool listener) :
    ∃ before first second life loading,
      actions = before ++ .consumer (.preload first second) :: life ∧
      (∀ action ∈ life, action.SameLife) ∧
      Runs.run (step maxAssetsPerConn) (initial listed) before = some loading ∧
      Runs.run (step maxAssetsPerConn) loading
        (.consumer (.preload first second) :: life) = some state := by
  have sameLife_of : ∀ {action : Action},
      ¬ (∃ first second, action = .consumer (.preload first second)) → action.SameLife :=
    fun other first second same => other ⟨first, second, same⟩
  rcases Runs.exists_last (fun action => ∃ first second, action = .consumer (.preload first second))
    completed with
    none | ⟨before, _, life, loading, rfl, ⟨first, second, rfl⟩, last, reached, later⟩
  · have down : state.consumer = .down :=
      Runs.invariant_along (fun _ _ _ sameLife taken down => stays_down sameLife taken down)
        (Runs.along_of_forall _ _ fun action member _ => sameLife_of (none action member))
        completed rfl
    exact absurd (down.symm.trans reading) (by simp)
  · exact ⟨before, first, second, life, loading, rfl,
      fun action member => sameLife_of (last action member), reached, later⟩

/-- In every run of an uninterrupted tracker in which resolutions arrive in order:
when the tracker is between publishes and the consumer has processed the whole
stream, the consumer has subscribed to exactly the active markets just when the
cache agreed that it read at its last start. -/
theorem consumer_agrees_iff {actions : List Action}
    (uninterrupted : ∀ action ∈ actions, action.Uninterrupted)
    (orderly : Runs.Along (step maxAssetsPerConn) Orderly (initial listed) actions)
    (completed : Runs.run (step maxAssetsPerConn) (initial listed) actions = some state)
    (settled : state.tracker.Settled)
    {pool : Pool} {listener : Listener} (reading : state.consumer = .listening pool listener)
    (drained : state.group.Drained state.stream) :
    ∃ before first second life loading,
      actions = before ++ .consumer (.preload first second) :: life ∧
      (∀ action ∈ life, action.SameLife) ∧
      Runs.run (step maxAssetsPerConn) (initial listed) before = some loading ∧
      ((∀ market, market ∈ pool.markets ↔ market ∈ state.tracker.active) ↔
        CacheAgrees (listedMarkets listed) loading state) := by
  obtain ⟨before, first, second, life, loading, split, sameLife, reached, later⟩ :=
    exists_last_preload completed reading
  refine ⟨before, first, second, life, loading, split, sameLife, reached, ?_⟩
  have tracks : Tracks (listedMarkets listed) [] state :=
    (tracks_initial listed).run uninterrupted orderly completed
  obtain ⟨published, whole, tracked⟩ := tracks
  rw [List.nil_append] at whole
  rw [← processed_iff (listedMarkets listed) reached later sameLife reading drained]
  simp only [tracked.settled settled, whole]

end Life

section Sample

/-- A market with a yes and a no token. -/
def sampleRecord (conditionId : String) : RawMarket where
  conditionId := conditionId
  outcomes := ["Yes", "No"]
  clobTokenIds := [conditionId ++ "y", conditionId ++ "n"]

/-- An answer with one record is consistent. -/
theorem consistent_singleton (raw : RawMarket) : Tracker.Consistent [raw] := by
  intro first inFirst second inSecond _ binary
  rw [List.mem_singleton.mp inSecond]
  rwa [List.mem_singleton.mp inFirst] at binary

/-- A cache with the markets of the replayed stream agrees. -/
theorem agrees_of_hashes {origin : Finset String} {loading : State}
    (same : (loading.cache.map Market.hash).toFinset =
      replay origin (loading.stream.map Entry.delta)) (state : State) :
    CacheAgrees origin loading state := by
  intro market _
  rw [← same, List.mem_toFinset]

/-- A new market is published and consumed, and the consumer restarts after the
cache is saved. -/
def freshRestart : List Action :=
  [.consumer (.preload .unchanged .unchanged), .consumer .read,
    .tracker (.fetchNew [sampleRecord "b"]), .tracker .landNewMarkets, .tracker .resumeNewMarkets,
    .tracker .landNewMarkets, .tracker .resumeNewMarkets, .consumer .read,
    .consumer (.dispatch .unchanged .unchanged), .consumer .ack, .consumer .crash,
    .consumer (.preload .unchanged .unchanged), .consumer .read]

theorem orderly_freshRestart :
    Runs.Along (step 4) Orderly (initial [sampleRecord "a"]) freshRestart := by
  refine .cons trivial rfl (.cons trivial rfl ?_)
  refine .cons (consistent_singleton _) rfl ?_
  refine .cons trivial rfl (.cons trivial rfl (.cons trivial rfl (.cons trivial rfl ?_)))
  refine .cons trivial rfl (.cons trivial rfl (.cons trivial rfl (.cons trivial rfl ?_)))
  exact .cons trivial rfl (.cons trivial rfl trivial)

/-- The last start is the one after the crash. -/
theorem last_start_freshRestart {before life : List Action} {first second : Shuffle}
    (split : freshRestart = before ++ .consumer (.preload first second) :: life)
    (sameLife : ∀ action ∈ life, action.SameLife) : before = freshRestart.take 11 := by
  have here : freshRestart[before.length]? = some (.consumer (.preload first second)) := by
    rw [split, List.getElem?_append_right le_rfl, Nat.sub_self]
    rfl
  have notBefore : ¬ before.length < 11 := by
    intro early
    have restart : freshRestart[11]? = some (.consumer (.preload .unchanged .unchanged)) := rfl
    rw [split, List.getElem?_append_right early.le,
      ← Nat.succ_pred_eq_of_pos (Nat.sub_pos_of_lt early), List.getElem?_cons_succ] at restart
    exact sameLife _ (List.mem_of_getElem? restart) _ _ rfl
  have notAfter : ¬ 11 < before.length := by
    intro late
    have total := congrArg List.length split
    rw [List.length_append, List.length_cons] at total
    have size : freshRestart.length = 13 := rfl
    obtain same : before.length = 12 := by omega
    rw [same] at here
    exact absurd here (by simp [freshRestart])
  have eleven : before.length = 11 := by omega
  rw [split, ← eleven, List.take_left]

/-- The state in which the consumer starts again. -/
def crashedState : State :=
  (Runs.run (step 4) (initial [sampleRecord "a"]) (freshRestart.take 11)).get (by decide)

/-- The saved cache has the published market, so the restarted consumer has it too. -/
theorem fresh_restart_agrees :
    ∃ state pool listener,
      Runs.run (step 4) (initial [sampleRecord "a"]) freshRestart = some state ∧
      state.consumer = .listening pool listener ∧
      ∀ market, market ∈ pool.markets ↔ market ∈ state.tracker.active := by
  have uninterrupted : ∀ action ∈ freshRestart, action.Uninterrupted := by
    simp [freshRestart, Action.Uninterrupted]
  have crashed : Runs.run (step 4) (initial [sampleRecord "a"]) (freshRestart.take 11) =
      some crashedState := rfl
  obtain ⟨before, first, second, life, loading, split, sameLife, reached, agrees⟩ :=
    consumer_agrees_iff uninterrupted orderly_freshRestart rfl ⟨rfl, rfl, rfl⟩ rfl (by decide)
  refine ⟨_, _, _, rfl, rfl, agrees.mpr ?_⟩
  rw [last_start_freshRestart split sameLife, crashed] at reached
  rw [← Option.some.inj reached]
  exact agrees_of_hashes (by decide) _

/-- A new market is consumed and acknowledged, and the consumer restarts before
the cache is saved. -/
def staleRestart : List Action :=
  [.consumer (.preload .unchanged .unchanged), .consumer .read,
    .tracker (.fetchNew [sampleRecord "b"]), .tracker .landNewMarkets, .consumer .read,
    .consumer (.dispatch .unchanged .unchanged), .consumer .ack, .consumer .crash,
    .consumer (.preload .unchanged .unchanged), .tracker .resumeNewMarkets,
    .tracker .landNewMarkets, .tracker .resumeNewMarkets, .consumer .read]

/-- Both pollers are between cycles, the cache is saved and the stream is
processed, and the consumer misses a market. -/
theorem stale_restart_misses_market :
    ∃ state pool listener,
      Runs.run (step 4) (initial [sampleRecord "a"]) staleRestart = some state ∧
      state.tracker.resolution = .idle ∧ state.tracker.newMarkets = .idle ∧
      state.cache = Tracker.cacheData state.tracker.active ∧
      state.consumer = .listening pool listener ∧ state.group.Drained state.stream ∧
      "b" ∈ state.tracker.active ∧ "b" ∉ pool.markets := by
  refine ⟨_, _, _, rfl, rfl, rfl, ?_, rfl, ?_, ?_, ?_⟩
  all_goals decide

/-- A market is closed while its entry is on its way, and its resolution arrives
first. -/
def overtakenEntry : List Action :=
  [.consumer (.preload .unchanged .unchanged), .consumer .read,
    .tracker (.fetchNew [sampleRecord "b"]), .tracker (.fetchClosed ["b"]),
    .tracker .landResolution, .tracker .landNewMarkets, .tracker .resumeResolution,
    .tracker .resumeNewMarkets, .tracker .landNewMarkets, .tracker .resumeNewMarkets,
    .tracker .landResolution, .tracker .resumeResolution,
    .consumer .read, .consumer (.dispatch .unchanged .unchanged), .consumer .ack,
    .consumer (.dispatch .unchanged .unchanged), .consumer .ack]

/-- Without any restart the consumer keeps a market that is not tracked. -/
theorem overtaken_entry_keeps_market :
    ∃ state pool listener,
      Runs.run (step 4) (initial [sampleRecord "a"]) overtakenEntry = some state ∧
      state.tracker.resolution = .idle ∧ state.tracker.newMarkets = .idle ∧
      state.cache = Tracker.cacheData state.tracker.active ∧
      state.consumer = .listening pool listener ∧ state.group.Drained state.stream ∧
      "b" ∉ state.tracker.active ∧ "b" ∈ pool.markets := by
  refine ⟨_, _, _, rfl, rfl, rfl, ?_, rfl, ?_, ?_, ?_⟩
  all_goals decide

end Sample

end Collector.Agreement
