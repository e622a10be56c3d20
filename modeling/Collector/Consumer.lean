import Collector.Library.StreamGroup
import Collector.Markets
import Collector.Routing

/-!
# The consumer of lifecycle entries

A consumer fills a new pool with the markets of the cache and then reads the
stream through its group: first the entries delivered to it in an earlier life
and never acknowledged, then new ones. It dispatches each entry to the pool and
acknowledges it afterwards. It can crash between any two steps, and starts over
with the cache.

A group is created before the first entry, and creating it again changes
nothing, so it is there from the beginning. A panic of the pool while the cache
is loaded ends the process. Later it ends only the task that reads the stream.
-/

namespace Collector

open Replay (Delta replay)
open StreamGroup (Group entries)

namespace Pool

/-- The hashes of the registered markets. -/
def subscribed (pool : Pool) : Finset String := pool.markets.keys.toFinset

theorem mem_subscribed (pool : Pool) (hash : String) :
    hash ∈ pool.subscribed ↔ hash ∈ pool.markets := by
  rw [subscribed, List.mem_toFinset, AList.mem_keys]

@[simp]
theorem spawnConnections_markets (count : Nat) (pool : Pool) :
    (spawnConnections count pool).markets = pool.markets := by
  induction count generalizing pool with
  | zero => rfl
  | succ count inductionHypothesis => exact inductionHypothesis pool.spawnConnection

/-- A subscription that completes registers every market of its batch. -/
theorem subscribed_subscribeMarkets {pool next : Pool} {markets : List Market}
    {first second : Shuffle} (completed : pool.subscribeMarkets markets first second = some next) :
    next.subscribed = pool.subscribed ∪ (markets.map Market.hash).toFinset := by
  have registered : next.markets = (pool.register (pool.unregistered markets)).markets := by
    rcases subscribeMarkets_some completed with ⟨nothing, rfl⟩ | ⟨count, assignment, rfl⟩
    · -- every market has two assets, so there was no new market
      have none : next.unregistered markets = [] := by
        cases unregistered : next.unregistered markets with
        | nil => rfl
        | cons market rest =>
          rw [unregistered] at nothing
          exact absurd nothing (by simp [Market.assets])
      rw [none]
      rfl
    · exact spawnConnections_markets count _
  ext hash
  rw [Finset.mem_union, mem_subscribed, mem_subscribed, registered, register,
    Maps.mem_foldl_insert, List.mem_toFinset, or_comm]
  by_cases known : hash ∈ pool.markets
  · simp only [known, true_or]
  · simp only [known, false_or, unregistered, List.mem_map, List.mem_filter, decide_eq_true_eq]
    constructor
    · rintro ⟨market, ⟨member, -⟩, same⟩
      exact ⟨market, member, same⟩
    · rintro ⟨market, member, rfl⟩
      exact ⟨market, ⟨member, known⟩, rfl⟩

/-- An unsubscription takes out the markets it names. -/
theorem subscribed_unsubscribeMarkets (pool : Pool) (hash : String) :
    (pool.unsubscribeMarkets [hash]).subscribed = pool.subscribed \ {hash} := by
  ext other
  rw [mem_subscribed, mem_unsubscribeMarkets, Finset.mem_sdiff, Finset.mem_singleton,
    mem_subscribed, List.mem_singleton]

end Pool

/-- The state of the task that reads the stream: whether the entries of an
earlier life are done, the last entry seen, the entries read but not dispatched,
and the entry dispatched but not acknowledged. -/
structure Listener where
  pendingDone : Bool
  lastPendingId : Nat
  batch : List (Entry × Nat)
  unacked : Option Nat

/-- A consumer process. -/
inductive Consumer where
  | down
  | listening (pool : Pool) (listener : Listener)
  | panicked (pool : Pool)

namespace Consumer

/-- How many entries one read returns at most. -/
def readCount : Nat := 10

/-- Start a process with the markets of the cache. -/
def preload (maxAssetsPerConn : Nat) (cache : List Market) (first second : Shuffle) : Consumer :=
  let pool :=
    if cache.isEmpty then some (Pool.new maxAssetsPerConn)
    else (Pool.new maxAssetsPerConn).subscribeMarkets cache first second
  match pool with
  | some pool => .listening pool ⟨false, 0, [], none⟩
  | none => .down

/-- Read entries of an earlier life, and new ones once there are none. -/
def read (listener : Listener) (log : List Entry) (group : Group) : Group × Listener :=
  if listener.pendingDone then
    let (batch, group) := group.readNew log readCount
    (group, { listener with batch := batch })
  else
    let batch := group.readPending log listener.lastPendingId readCount
    (group, { listener with
      batch := batch
      pendingDone := batch.isEmpty })

/-- Dispatch an entry to the pool; a panic has no outcome. -/
def dispatch (pool : Pool) (entry : Entry) (first second : Shuffle) : Option Pool :=
  match entry with
  | .newMarket payload =>
    match binaryMarketFromOutcomes payload.market payload.outcomes payload.assetsIds with
    | some market => pool.subscribeMarkets [market] first second
    | none => some pool
  | .marketResolved payload =>
    if payload.market = "" then some pool else some (pool.unsubscribeMarkets [payload.market])

/-- The steps of a consumer. -/
inductive Action where
  | preload (first second : Shuffle)
  | read
  | dispatch (first second : Shuffle)
  | ack
  | crash

/-- One step against the cache, the stream and the group. -/
def step (maxAssetsPerConn : Nat) (cache : List Market) (log : List Entry) (group : Group) :
    Consumer → Action → Option (Group × Consumer)
  | .down, .preload first second => some (group, preload maxAssetsPerConn cache first second)
  | .listening pool listener, .read =>
    if listener.batch.isEmpty ∧ listener.unacked = none then
      let (group, listener) := read listener log group
      some (group, .listening pool listener)
    else none
  | .listening pool listener, .dispatch first second =>
    match listener.batch, listener.unacked with
    | (entry, id) :: rest, none =>
      match dispatch pool entry first second with
      | some pool => some (group, .listening pool { listener with
          lastPendingId := id
          batch := rest
          unacked := some id })
      | none => some (group, .panicked pool)
    | _, _ => none
  | .listening pool listener, .ack =>
    listener.unacked.map fun id => (group.ack id, .listening pool { listener with unacked := none })
  | .listening _ _, .crash => some (group, .down)
  | .panicked _, .crash => some (group, .down)
  | _, _ => none

/-- A dispatched entry does to the subscribed markets what it says. -/
theorem subscribed_dispatch {pool next : Pool} {entry : Entry} {first second : Shuffle}
    (dispatched : dispatch pool entry first second = some next) :
    next.subscribed = entry.delta.apply pool.subscribed := by
  cases entry with
  | newMarket payload =>
    simp only [dispatch] at dispatched
    simp only [Entry.delta]
    cases parsed : binaryMarketFromOutcomes payload.market payload.outcomes payload.assetsIds with
    | some market =>
      rw [parsed] at dispatched
      exact Pool.subscribed_subscribeMarkets dispatched
    | none =>
      rw [parsed] at dispatched
      obtain rfl := Option.some.inj dispatched
      exact (Finset.union_empty _).symm
  | marketResolved payload =>
    simp only [dispatch] at dispatched
    simp only [Entry.delta]
    by_cases unnamed : payload.market = ""
    · rw [if_pos unnamed] at dispatched ⊢
      obtain rfl := Option.some.inj dispatched
      exact Finset.sdiff_empty.symm
    · rw [if_neg unnamed] at dispatched ⊢
      obtain rfl := Option.some.inj dispatched
      exact Pool.subscribed_unsubscribeMarkets pool payload.market

/-- A loaded process has subscribed to the markets of the cache. -/
theorem preload_listening {maxAssetsPerConn : Nat} {cache : List Market} {first second : Shuffle}
    {pool : Pool} {listener : Listener}
    (loaded : preload maxAssetsPerConn cache first second = .listening pool listener) :
    pool.subscribed = (cache.map Market.hash).toFinset ∧ listener = ⟨false, 0, [], none⟩ := by
  simp only [preload] at loaded
  split at loaded
  · rename_i filled completed
    obtain ⟨rfl, rfl⟩ := Consumer.listening.inj loaded
    refine ⟨?_, rfl⟩
    split at completed
    · rename_i isEmpty
      obtain rfl := Option.some.inj completed
      rw [List.isEmpty_iff.mp isEmpty]
      rfl
    · rw [Pool.subscribed_subscribeMarkets completed]
      exact Finset.empty_union _
  · exact absurd loaded (by simp)

/-- Where a task stands in the log: it has dispatched everything before the
position, and what it dispatches next begins there. -/
structure Position (log : List Entry) (group : Group) (acked : Nat) (listener : Listener)
    (position : Nat) : Prop where
  dispatched : (listener.unacked = none ∧ position = acked) ∨
    (listener.unacked = some position ∧ position = acked + 1)
  batch : listener.batch <+: (entries log).drop position
  inside : position + listener.batch.length ≤ group.delivered
  caughtUp : listener.pendingDone = true → position + listener.batch.length = group.delivered
  behind : listener.lastPendingId ≤ position

/-- What holds of a consumer that was started with some markets when the group had
acknowledged the log up to the start: with the rest of the log it ends up with
what the log from the start on makes of those markets. -/
def Follows (loaded : Finset String) (start : Nat) (log : List Entry) (group : Group)
    (acked : Nat) : Consumer → Prop
  | .down => True
  | .listening pool listener =>
    ∃ position, Position log group acked listener position ∧ start ≤ position ∧
      replay pool.subscribed ((log.drop position).map Entry.delta) =
        replay loaded ((log.drop start).map Entry.delta)
  | .panicked _ => True

section Steps

variable {loaded : Finset String} {start : Nat} {log : List Entry} {group : Group} {acked : Nat}

/-- A process starts with the markets of the cache where the group stands. -/
theorem follows_preload {maxAssetsPerConn : Nat} {cache : List Market} {first second : Shuffle}
    (contiguous : group.Contiguous log acked) :
    Follows (cache.map Market.hash).toFinset acked log group acked
      (preload maxAssetsPerConn cache first second) := by
  cases started : preload maxAssetsPerConn cache first second with
  | down => trivial
  | panicked pool => trivial
  | listening pool listener =>
    obtain ⟨subscribed, rfl⟩ := preload_listening started
    refine ⟨acked, ⟨Or.inl ⟨rfl, rfl⟩, List.nil_prefix, contiguous.acked_le, ?_, Nat.zero_le _⟩,
      le_rfl, by rw [subscribed]⟩
    intro impossible
    exact absurd impossible (by simp)

/-- Reading moves no position. -/
theorem Position.read {listener : Listener} {position : Nat}
    (contiguous : group.Contiguous log acked) (standing : Position log group acked listener position)
    (empty : listener.batch = []) (idle : listener.unacked = none) :
    (Consumer.read listener log group).1.Contiguous log acked ∧
      Position log (Consumer.read listener log group).1 acked
        (Consumer.read listener log group).2 position := by
  have here : position = acked := by
    rcases standing.dispatched with ⟨-, same⟩ | ⟨unacked, -⟩
    · exact same
    · exact absurd (idle.symm.trans unacked) (by simp)
  have caughtUp := standing.caughtUp
  rw [empty, List.length_nil, Nat.add_zero] at caughtUp
  unfold Consumer.read
  split
  · rename_i done
    refine ⟨contiguous.readNew readCount, standing.dispatched, ?_, ?_, ?_, standing.behind⟩
    · simp only [Group.readNew]
      rw [caughtUp done]
      exact List.take_prefix _ _
    · simp only [Group.readNew]
      rw [caughtUp done]
    · intro _
      simp only [Group.readNew]
      rw [caughtUp done]
  · have reread := contiguous.readPending (here ▸ standing.behind) readCount
    have available : group.delivered - acked ≤ ((entries log).drop acked).length := by
      have bounded := contiguous.delivered_le
      rw [List.length_drop, StreamGroup.length_entries]
      omega
    have ordered := contiguous.acked_le
    refine ⟨contiguous, standing.dispatched, ?_, ?_, ?_, standing.behind⟩
    · simp only
      rw [reread, here]
      exact (List.take_prefix _ _).trans (List.take_prefix _ _)
    · simp only
      rw [reread, List.length_take, List.length_take]
      omega
    · -- an empty answer means that nothing is left of the earlier life
      simp only
      intro none
      rw [List.isEmpty_iff.mp none, List.length_nil]
      have nothing := congrArg List.length (reread.symm.trans (List.isEmpty_iff.mp none))
      rw [List.length_take, List.length_take, List.length_nil, readCount] at nothing
      omega

/-- Dispatching the next entry moves the position past it. -/
theorem Position.dispatch {listener : Listener} {position : Nat} {entry : Entry} {id : Nat}
    {rest : List (Entry × Nat)} (standing : Position log group acked listener position)
    (batch : listener.batch = (entry, id) :: rest) (idle : listener.unacked = none) :
    log.drop position = entry :: log.drop (position + 1) ∧
      Position log group acked { listener with
        lastPendingId := id
        batch := rest
        unacked := some id } (position + 1) := by
  have isBatch := standing.batch
  rw [batch] at isBatch
  obtain ⟨rfl, here, later⟩ := StreamGroup.prefix_cons isBatch
  have acknowledged : position = acked := by
    rcases standing.dispatched with ⟨-, same⟩ | ⟨unacked, -⟩
    · exact same
    · exact absurd (idle.symm.trans unacked) (by simp)
  have inside := standing.inside
  have caughtUp := standing.caughtUp
  rw [batch, List.length_cons] at inside caughtUp
  refine ⟨here, Or.inr ⟨rfl, by rw [acknowledged]⟩, later, ?_, ?_, le_rfl⟩
  · simp only
    omega
  · intro done
    have total := caughtUp done
    simp only
    omega

/-- Acknowledging the dispatched entry moves the group up to the task. -/
theorem Position.ack {listener : Listener} {position id : Nat}
    (contiguous : group.Contiguous log acked) (standing : Position log group acked listener position)
    (unacked : listener.unacked = some id) :
    (group.ack id).Contiguous log (acked + 1) ∧
      Position log (group.ack id) (acked + 1) { listener with unacked := none } position := by
  rcases standing.dispatched with ⟨idle, -⟩ | ⟨waiting, next⟩
  · exact absurd (idle.symm.trans unacked) (by simp)
  · obtain rfl : position = id := Option.some.inj (waiting.symm.trans unacked)
    have inside := standing.inside
    refine ⟨?_, Or.inl ⟨rfl, next⟩, standing.batch, inside, standing.caughtUp, standing.behind⟩
    rw [next]
    exact contiguous.ack (by omega)

/-- Every step of a consumer but a start keeps it with the log. -/
theorem Follows.step {maxAssetsPerConn : Nat} {cache : List Market} {consumer next : Consumer}
    {after : Group} {action : Action} (contiguous : group.Contiguous log acked)
    (follows : Follows loaded start log group acked consumer)
    (sameLife : ∀ first second, action ≠ .preload first second)
    (taken : Consumer.step maxAssetsPerConn cache log group consumer action = some (after, next)) :
    ∃ later, after.Contiguous log later ∧ Follows loaded start log after later next := by
  cases consumer with
  | down =>
    cases action with
    | preload first second => exact absurd rfl (sameLife first second)
    | _ => exact absurd taken (by simp [Consumer.step])
  | panicked pool =>
    cases action with
    | crash =>
      obtain ⟨rfl, rfl⟩ := Prod.mk.inj (Option.some.inj taken)
      exact ⟨acked, contiguous, trivial⟩
    | _ => exact absurd taken (by simp [Consumer.step])
  | listening pool listener =>
    obtain ⟨position, standing, begun, replayed⟩ := follows
    cases action with
    | preload first second => exact absurd rfl (sameLife first second)
    | read =>
      obtain ⟨⟨empty, idle⟩, same⟩ := Runs.guarded taken
      obtain ⟨rfl, rfl⟩ := Prod.mk.inj same
      obtain ⟨reading, stays⟩ := standing.read contiguous (List.isEmpty_iff.mp empty) idle
      exact ⟨acked, reading, position, stays, begun, replayed⟩
    | dispatch first second =>
      simp only [Consumer.step] at taken
      split at taken
      · rename_i entry id rest batch idle
        cases dispatched : dispatch pool entry first second with
        | some dispatchedPool =>
          rw [dispatched] at taken
          obtain ⟨rfl, rfl⟩ := Prod.mk.inj (Option.some.inj taken)
          obtain ⟨here, moved⟩ := standing.dispatch batch idle
          rw [here, List.map_cons, Replay.replay_cons, ← subscribed_dispatch dispatched]
            at replayed
          exact ⟨acked, contiguous, position + 1, moved, Nat.le_succ_of_le begun, replayed⟩
        | none =>
          rw [dispatched] at taken
          obtain ⟨rfl, rfl⟩ := Prod.mk.inj (Option.some.inj taken)
          exact ⟨acked, contiguous, trivial⟩
      · exact absurd taken (by simp)
    | ack =>
      obtain ⟨id, unacked, same⟩ := Option.map_eq_some_iff.mp taken
      obtain ⟨rfl, rfl⟩ := Prod.mk.inj same
      obtain ⟨acknowledged, stays⟩ := standing.ack contiguous unacked
      exact ⟨acked + 1, acknowledged, position, stays, begun, replayed⟩
    | crash =>
      obtain ⟨rfl, rfl⟩ := Prod.mk.inj (Option.some.inj taken)
      exact ⟨acked, contiguous, trivial⟩

/-- A growing log keeps a consumer with it. -/
theorem Follows.append {consumer : Consumer} (contiguous : group.Contiguous log acked)
    (follows : Follows loaded start log group acked consumer) (more : List Entry) :
    Follows loaded start (log ++ more) group acked consumer := by
  cases consumer with
  | down => trivial
  | panicked pool => trivial
  | listening pool listener =>
    obtain ⟨position, standing, begun, replayed⟩ := follows
    have inside : position ≤ log.length := by
      have delivered := contiguous.delivered_le
      have before := standing.inside
      omega
    refine ⟨position, ⟨standing.dispatched, StreamGroup.prefix_append inside standing.batch more,
      standing.inside, standing.caughtUp, standing.behind⟩, begun, ?_⟩
    rw [List.drop_append_of_le_length inside, List.drop_append_of_le_length (begun.trans inside),
      List.map_append, List.map_append, Replay.replay_append, Replay.replay_append, replayed]

/-- A task that has processed the whole log has subscribed to what the log makes
of the markets it started with. -/
theorem Follows.drained {pool : Pool} {listener : Listener}
    (contiguous : group.Contiguous log acked)
    (follows : Follows loaded start log group acked (.listening pool listener))
    (drained : group.Drained log) :
    pool.subscribed = replay loaded ((log.drop start).map Entry.delta) := by
  obtain ⟨position, standing, -, replayed⟩ := follows
  have all := contiguous.drained drained
  have past : log.length ≤ position := by
    rcases standing.dispatched with ⟨-, same⟩ | ⟨-, same⟩ <;> omega
  rw [List.drop_eq_nil_of_le past] at replayed
  exact replayed

end Steps

end Consumer

end Collector
