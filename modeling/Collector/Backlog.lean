import Collector.StreamRun

/-!
# Starting without the backlog

The service reads the cache, then creates the group at the end of the stream or,
where it exists, moves its cursor there, and then reads the stream. The flag
skips what was not delivered. It leaves what was delivered and not acknowledged,
which the task reads first, and the cursor passes over what was appended after
the cache was read.
-/

namespace Collector.Backlog

open StreamGroup (Group Handled Reader entries)
open StreamRun (StreamId)

/-- The stream and the group that a start-up finds. An entry is pending only if it
is in the stream. -/
structure Prior where
  log : List StreamId
  group : Option Group
  inside : ∀ found ∈ group, ∀ id ∈ found.pending, 1 ≤ id ∧ id ≤ log.length

/-- The entries that a start-up finds pending. -/
def Prior.pending (prior : Prior) : List Nat := (prior.group.map Group.pending).getD []

/-- The stages of a start-up: nothing done, the pool loaded from the cache, the
answer that the group exists, and the task reading. The lengths of the stream
when the cache was read and when the cursor was placed are kept as a record. -/
inductive Service where
  | starting (log : List StreamId) (group : Option Group)
  | loaded (log : List StreamId) (group : Option Group) (pool : Pool) (snapshotAt : Nat)
  | busyGroup (log : List StreamId) (group : Group) (pool : Pool) (snapshotAt : Nat)
  | reading (snapshotAt resetAt : Nat) (reader : Reader StreamId Pool)

/-- A publisher appending an entry before the task reads, the steps of the
start-up, and those of the task. -/
inductive Action where
  | publish (entry : StreamId)
  | preload (cache : List Market) (first second : Shuffle)
  | createGroup
  | setId
  | work (action : Reader.Action StreamId (Shuffle × Shuffle))

/-- The id `$` of `--skip-backlog`, or `0`. -/
def startId (skipBacklog : Bool) (log : List StreamId) : Nat :=
  if skipBacklog then log.length else 0

/-- One step. `createGroup` and `setId` are the commands of `ensure_consumer_group`. -/
def step (read : String → Option Json) (skipBacklog : Bool) (maxAssetsPerConn : Nat) :
    Service → Action → Option Service
  | .starting log group, .publish entry => some (.starting (log ++ [entry]) group)
  | .starting log group, .preload cache first second =>
    let pool :=
      if cache.isEmpty then some (Pool.new maxAssetsPerConn)
      else (Pool.new maxAssetsPerConn).subscribeMarkets cache first second
    pool.map fun pool => .loaded log group pool log.length
  | .loaded log group pool snapshotAt, .publish entry =>
    some (.loaded (log ++ [entry]) group pool snapshotAt)
  | .loaded log none pool snapshotAt, .createGroup =>
    some (.reading snapshotAt log.length (Reader.start log ⟨startId skipBacklog log, []⟩ pool))
  | .loaded log (some group) pool snapshotAt, .createGroup =>
    if skipBacklog then some (.busyGroup log group pool snapshotAt)
    else some (.reading snapshotAt log.length (Reader.start log group pool))
  | .busyGroup log group pool snapshotAt, .publish entry =>
    some (.busyGroup (log ++ [entry]) group pool snapshotAt)
  | .busyGroup log group pool snapshotAt, .setId =>
    some (.reading snapshotAt log.length
      (Reader.start log ⟨startId skipBacklog log, group.pending⟩ pool))
  | .reading snapshotAt resetAt reader, .work action =>
    (Reader.step (StreamRun.run read) reader action).map (.reading snapshotAt resetAt)
  | _, _ => none

/-- The task has dispatched entries appended after the cache was read, in order and
with no gap, and all of them once it has caught up. -/
def ExactlyNew (snapshotAt : Nat) (reader : Reader StreamId Pool) : Prop :=
  reader.dispatched.map Handled.source <+: (entries reader.log).drop snapshotAt ∧
    (reader.CaughtUp →
      reader.dispatched.map Handled.source = (entries reader.log).drop snapshotAt)

/-- Nothing was pending, and nothing was appended between the reading of the cache
and the placing of the cursor. -/
def Clean (prior : Prior) (snapshotAt resetAt : Nat) : Prop :=
  prior.pending = [] ∧ snapshotAt = resetAt

/-- What holds of a start-up that skips the backlog. -/
def Started (prior : Prior) : Service → Prop
  | .starting log group => group = prior.group ∧ prior.log.length ≤ log.length
  | .loaded log group _ snapshotAt =>
    group = prior.group ∧ prior.log.length ≤ snapshotAt ∧ snapshotAt ≤ log.length
  | .busyGroup log group _ snapshotAt =>
    prior.group = some group ∧ prior.log.length ≤ snapshotAt ∧ snapshotAt ≤ log.length
  | .reading snapshotAt resetAt reader =>
    prior.log.length ≤ snapshotAt ∧ snapshotAt ≤ resetAt ∧
      ∃ log : List StreamId, log.length = resetAt ∧
        Reader.Ordered log ⟨resetAt, prior.pending⟩ reader

section Start

variable {prior : Prior}

theorem Prior.pending_bounds (prior : Prior) :
    ∀ id ∈ prior.pending, 1 ≤ id ∧ id ≤ prior.log.length := by
  intro id member
  unfold Prior.pending at member
  cases found : prior.group with
  | none =>
    rw [found] at member
    exact absurd member List.not_mem_nil
  | some group =>
    rw [found] at member
    exact prior.inside group found id member

/-- Every step of a start-up that skips the backlog keeps its record true. -/
theorem started_step {read : String → Option Json} {maxAssetsPerConn : Nat} (service : Service)
    (action : Action) (next : Service)
    (taken : step read true maxAssetsPerConn service action = some next)
    (started : Started prior service) : Started prior next := by
  cases service with
  | starting log group =>
    obtain ⟨same, longer⟩ := started
    cases action with
    | publish entry =>
      obtain rfl := Option.some.inj taken
      exact ⟨same, by simp only [List.length_append]; omega⟩
    | preload cache first second =>
      obtain ⟨pool, -, rfl⟩ := Option.map_eq_some_iff.mp taken
      exact ⟨same, longer, le_rfl⟩
    | createGroup => exact absurd taken (by simp [step])
    | setId => exact absurd taken (by simp [step])
    | work action => exact absurd taken (by simp [step])
  | loaded log group pool snapshotAt =>
    obtain ⟨same, longer, before⟩ := started
    cases action with
    | publish entry =>
      obtain rfl := Option.some.inj taken
      exact ⟨same, longer, by simp only [List.length_append]; omega⟩
    | createGroup =>
      cases group with
      | none =>
        obtain rfl := Option.some.inj taken
        have nothing : prior.pending = [] := by rw [Prior.pending, ← same]; rfl
        refine ⟨longer, before, log, rfl, ?_⟩
        rw [nothing]
        exact Reader.ordered_start pool
      | some group =>
        obtain rfl := Option.some.inj taken
        exact ⟨same.symm, longer, before⟩
    | preload cache first second => exact absurd taken (by simp [step])
    | setId => exact absurd taken (by simp [step])
    | work action => exact absurd taken (by simp [step])
  | busyGroup log group pool snapshotAt =>
    obtain ⟨same, longer, before⟩ := started
    cases action with
    | publish entry =>
      obtain rfl := Option.some.inj taken
      exact ⟨same, longer, by simp only [List.length_append]; omega⟩
    | setId =>
      obtain rfl := Option.some.inj taken
      have found : prior.pending = group.pending := by rw [Prior.pending, same]; rfl
      refine ⟨longer, before, log, rfl, ?_⟩
      rw [found]
      exact Reader.ordered_start pool
    | preload cache first second => exact absurd taken (by simp [step])
    | createGroup => exact absurd taken (by simp [step])
    | work action => exact absurd taken (by simp [step])
  | reading snapshotAt resetAt reader =>
    obtain ⟨longer, before, log, length, ordered⟩ := started
    cases action with
    | work action =>
      obtain ⟨after, moved, rfl⟩ := Option.map_eq_some_iff.mp taken
      refine ⟨longer, before, log, length, Reader.ordered_step ?_ (Nat.le_of_eq length.symm) reader
        action after moved ordered⟩
      intro id member
      have bounded := (prior.pending_bounds id member).2
      omega
    | publish entry => exact absurd taken (by simp [step])
    | preload cache first second => exact absurd taken (by simp [step])
    | createGroup => exact absurd taken (by simp [step])
    | setId => exact absurd taken (by simp [step])

/-- The entries found unacknowledged are older than the cache. -/
theorem unacknowledged_old {log : List StreamId} {delivered id : Nat}
    (member : id ∈ (Reader.unacknowledged log ⟨delivered, prior.pending⟩).map Prod.snd) :
    id ≤ prior.log.length := by
  obtain ⟨entry, unacked, rfl⟩ := List.mem_map.mp member
  exact (prior.pending_bounds entry.2 (of_decide_eq_true (List.mem_filter.mp unacked).2)).2

/-- They are none exactly when nothing was pending. -/
theorem unacknowledged_eq_nil_iff {log : List StreamId} (longer : prior.log.length ≤ log.length)
    (delivered : Nat) :
    Reader.unacknowledged log ⟨delivered, prior.pending⟩ = [] ↔ prior.pending = [] := by
  constructor
  · intro none
    have known : ∀ id ∈ prior.pending, 1 ≤ id ∧ id ≤ log.length := by
      intro id member
      obtain ⟨positive, bounded⟩ := prior.pending_bounds id member
      exact ⟨positive, Nat.le_trans bounded longer⟩
    have ids : ∀ id, id ∈ (Reader.unacknowledged log ⟨delivered, prior.pending⟩).map Prod.snd ↔
        id ∈ prior.pending := Reader.mem_unacknowledged_ids known
    rw [none] at ids
    exact List.eq_nil_iff_forall_not_mem.mpr fun id member =>
      List.not_mem_nil ((ids id).mpr member)
  · intro nothing
    rw [Reader.unacknowledged, nothing]
    exact List.filter_eq_nil_iff.mpr fun entry _ => by simp

end Start

/-- In every run that skips the backlog, a clean start-up makes the task dispatch
exactly the entries appended after the cache was read; and a task that has caught
up has dispatched exactly these only after a clean start-up. -/
theorem skips_backlog_iff_clean (read : String → Option Json) (maxAssetsPerConn : Nat)
    (prior : Prior) (actions : List Action) (snapshotAt resetAt : Nat)
    (reader : Reader StreamId Pool)
    (completed : Runs.run (step read true maxAssetsPerConn) (.starting prior.log prior.group)
      actions = some (.reading snapshotAt resetAt reader)) :
    (Clean prior snapshotAt resetAt → ExactlyNew snapshotAt reader) ∧
      (reader.CaughtUp → (ExactlyNew snapshotAt reader ↔ Clean prior snapshotAt resetAt)) := by
  obtain ⟨longer, before, log, length, ordered⟩ :
      Started prior (.reading snapshotAt resetAt reader) :=
    Runs.invariant started_step completed ⟨rfl, le_rfl⟩
  have enough : prior.log.length ≤ log.length := by omega
  have sufficient : Clean prior snapshotAt resetAt → ExactlyNew snapshotAt reader := by
    rintro ⟨nothing, rfl⟩
    have none := (unacknowledged_eq_nil_iff enough snapshotAt).mpr nothing
    constructor
    · have begun := ordered.dispatched_prefix
      rwa [none, List.nil_append] at begun
    · intro caughtUp
      have whole := ordered.dispatched_caughtUp caughtUp
      rwa [none, List.nil_append] at whole
  refine ⟨sufficient, fun caughtUp => ⟨?_, sufficient⟩⟩
  rintro ⟨-, exactly⟩
  have whole := (ordered.dispatched_caughtUp caughtUp).symm.trans (exactly caughtUp)
  simp only at whole
  -- the entries after the snapshot have larger numbers than those found pending
  have none : Reader.unacknowledged log ⟨resetAt, prior.pending⟩ = [] := by
    apply List.eq_nil_iff_forall_not_mem.mpr
    intro entry member
    have old := unacknowledged_old (List.mem_map_of_mem member)
    have new : entry.2 ∈ ((entries reader.log).drop snapshotAt).map Prod.snd := by
      rw [← whole]
      exact List.mem_map_of_mem (List.mem_append_left _ member)
    rw [List.map_drop, entries, List.zipIdx_map_snd, List.drop_range', List.mem_range'_1] at new
    omega
  refine ⟨(unacknowledged_eq_nil_iff enough resetAt).mp none, ?_⟩
  obtain ⟨more, grown⟩ := ordered.grown
  have lengths := congrArg List.length whole
  rw [none, List.nil_append, List.length_drop, List.length_drop, StreamGroup.length_entries, grown,
    List.length_append] at lengths
  omega

/-- An entry of a type that is ignored. -/
def listed : StreamId := StreamRun.entryOf "listed" ""

/-- A stream with one entry, delivered to an earlier task that did not acknowledge
it. -/
def interrupted : Prior where
  log := [listed]
  group := some ⟨1, [1]⟩
  inside := by simp

/-- A stream with one entry and no group. -/
def untouched : Prior where
  log := [listed]
  group := none
  inside := by simp

/-- An entry is appended after a start-up without a group, and is dispatched. -/
def afterStartUp : List Action :=
  [.preload [] .unchanged .unchanged, .createGroup, .work .read, .work (.append listed),
    .work .read, .work (.dispatch (.unchanged, .unchanged)), .work (.settle true)]

theorem new_entry_is_dispatched :
    ∃ reader, Runs.run (step (Json.parse Serde.recursionLimit) true 4)
        (.starting untouched.log untouched.group) afterStartUp = some (.reading 1 1 reader) ∧
      reader.dispatched.map Handled.id = [2] ∧ ExactlyNew 1 reader := by
  obtain ⟨reader, completed, dispatched⟩ : ∃ reader,
      Runs.run (step (Json.parse Serde.recursionLimit) true 4)
        (.starting untouched.log untouched.group) afterStartUp = some (.reading 1 1 reader) ∧
      reader.dispatched.map Handled.id = [2] := ⟨_, rfl, rfl⟩
  have clean : Clean untouched 1 1 := ⟨rfl, rfl⟩
  exact ⟨reader, completed, dispatched,
    (skips_backlog_iff_clean _ 4 untouched afterStartUp 1 1 reader completed).1 clean⟩

/-- The task begins with the entry that the earlier one left. -/
def replayed : List Action :=
  [.preload [] .unchanged .unchanged, .createGroup, .setId, .work .read,
    .work (.dispatch (.unchanged, .unchanged))]

theorem pending_entry_is_replayed :
    ∃ reader, Runs.run (step (Json.parse Serde.recursionLimit) true 4)
        (.starting interrupted.log interrupted.group) replayed = some (.reading 1 1 reader) ∧
      reader.dispatched.map Handled.id = [1] ∧ ¬ ExactlyNew 1 reader := by
  refine ⟨_, rfl, rfl, ?_⟩
  rintro ⟨isPrefix, -⟩
  exact absurd (List.IsPrefix.length_le isPrefix) (by decide)

/-- An entry appended between the cache and the cursor is never delivered. -/
example :
    ∃ reader, Runs.run (step (Json.parse Serde.recursionLimit) true 4)
        (.starting untouched.log untouched.group)
        [.preload [] .unchanged .unchanged, .publish listed, .createGroup, .work .read,
          .work .read] = some (.reading 1 2 reader) ∧
      reader.CaughtUp ∧ reader.dispatched.map Handled.id = [] :=
  ⟨_, rfl, ⟨rfl, rfl, rfl, rfl⟩, rfl⟩

end Collector.Backlog
