import Collector.Capacity
import Collector.StreamRun
import Collector.Library.GroupDrain

/-!
# Draining the pending entries

`stream::run` first asks for the entries that an earlier run was given and did
not acknowledge, with the last id it has seen as its cursor, and takes the first
answer without ids as their end. The cursor moves with every entry, dispatched
with or without an error and acknowledged or not, so no entry comes a second time.

An entry that was trimmed from the stream while it was pending is read without
fields; it counts as an entry with none.
-/

namespace Collector.StreamRun

open Serde
open StreamGroup (Group Handled Reader entries)
open StreamGroup.Reader (unacknowledged reads)

/-- With room for an asset in a connection, a dispatch returns, and the pool keeps
its maximum. -/
theorem dispatch_capped (read : String → Option Json) {limit : Nat} (positive : 1 ≤ limit)
    {pool : Pool} (capped : Pool.Capped limit pool) (data : String → Option String)
    (choice : Shuffle × Shuffle) :
    ∃ next result, dispatch read pool data choice = some (next, result) ∧
      Pool.Capped limit next := by
  simp only [dispatch]
  split
  · split
    · exact ⟨pool, _, rfl, capped⟩
    · split
      · exact ⟨pool, _, rfl, capped⟩
      · next market _ =>
        obtain ⟨next, completed, after⟩ :=
          capped.subscribe positive [market] choice.1 choice.2
        exact ⟨next, .ok (), by rw [completed]; rfl, after⟩
  · split
    · split
      · exact ⟨pool, _, rfl, capped⟩
      · split
        · exact ⟨pool, _, rfl, capped⟩
        · exact ⟨_, _, rfl, capped.unsubscribe _⟩
    · exact ⟨pool, _, rfl, capped⟩

/-- A task that began with these pending entries has drained them as it should
after some reads: it dispatches in the order of the ids, none twice, the pending
entries before any new one. Its first phase ends with the read that finds none
left, which is told from the count alone, when all of them have been dispatched. -/
structure Drains (log : List StreamId) (group : Group) (count : Nat)
    (reader : Reader StreamId Pool) : Prop where
  found : ∀ id, id ∈ (unacknowledged log group).map Prod.snd ↔ id ∈ group.pending
  increasing : (reader.dispatched.map Handled.id).Pairwise (· < ·)
  pendingFirst : reader.dispatched.map Handled.source <+:
    unacknowledged log group ++ (entries reader.log).drop group.delivered
  switches : reader.pendingDone = true ↔
    (unacknowledged log group).length + Consumer.readCount ≤ Consumer.readCount * count
  drained : reader.pendingDone = true →
    unacknowledged log group <+: reader.dispatched.map Handled.source

/-- In every run, whatever entries fail and whatever acknowledgements are lost, the
pending entries are drained. The end of the first phase can be reached from
wherever the task is, and the phase is never entered again. -/
theorem pending_entries_drained (read : String → Option Json) (log : List StreamId)
    (group : Group) (pool : Pool)
    (delivered : ∀ id ∈ group.pending, 1 ≤ id ∧ id ≤ group.delivered)
    (inside : group.delivered ≤ log.length)
    (actions : List (Reader.Action StreamId (Shuffle × Shuffle)))
    (final : Reader StreamId Pool)
    (completed : Runs.run (Reader.step (run read)) (Reader.start log group pool) actions =
      some final) :
    Drains log group (reads actions) final ∧
    (∀ limit, 1 ≤ limit → Pool.Capped limit pool →
      ∃ more last, Runs.run (Reader.step (run read)) final more = some last ∧
        last.pendingDone = true) ∧
    ∀ more last, Runs.run (Reader.step (run read)) final more = some last →
      final.pendingDone = true → last.pendingDone = true := by
  have logged : ∀ id ∈ group.pending, 1 ≤ id ∧ id ≤ log.length :=
    fun id pending => ⟨(delivered id pending).1, Nat.le_trans (delivered id pending).2 inside⟩
  have known : ∀ id ∈ group.pending, id ≤ log.length := fun id pending => (logged id pending).2
  obtain ⟨ordered, draining⟩ := Reader.draining_run known inside completed
  refine ⟨?_, ?_, ?_⟩
  · exact {
      found := Reader.mem_unacknowledged_ids logged
      increasing := ordered.increasing fun id pending => (delivered id pending).2
      pendingFirst := ordered.dispatched_prefix
      switches := draining.pendingDone_iff
      drained := fun ended => (draining.late ended).1 }
  · intro limit positive capped
    have each : ∀ (pool : Pool) (entry : StreamId) (choice : Shuffle × Shuffle),
        Pool.Capped limit pool → ∃ next success,
          (run read).handle pool entry choice = some (next, success) ∧
            Pool.Capped limit next := by
      intro pool entry choice capped
      obtain ⟨next, result, returned, after⟩ :=
        dispatch_capped read positive capped (streamEntryToMap entry) choice
      refine ⟨next, result.isOk, ?_, after⟩
      simp only [run, returned, Option.map_some]
    have : Inhabited (Shuffle × Shuffle) := ⟨(.unchanged, .unchanged)⟩
    exact Reader.exists_pendingDone each known inside capped completed
  · intro more last continued ended
    exact Runs.invariant Reader.pendingDone_step continued ended

/-- The second of two delivered entries is pending; its acknowledgement is lost,
and a new entry follows it. -/
def lostAck : List (Reader.Action StreamId (Shuffle × Shuffle)) :=
  [.read, .dispatch (.unchanged, .unchanged), .append (entryOf "listed" ""), .settle false, .read,
    .read, .dispatch (.unchanged, .unchanged)]

theorem lost_ack_is_drained :
    ∃ final, Runs.run (Reader.step (run (Json.parse recursionLimit)))
        (Reader.start [entryOf "listed" "", entryOf "new_market" "oops"] ⟨2, [2]⟩ (Pool.new 4))
        lostAck = some final ∧
      final.dispatched.map Handled.id = [2, 3] ∧
      Drains [entryOf "listed" "", entryOf "new_market" "oops"] ⟨2, [2]⟩ 3 final := by
  obtain ⟨final, completed, ids⟩ : ∃ final,
      Runs.run (Reader.step (run (Json.parse recursionLimit)))
        (Reader.start [entryOf "listed" "", entryOf "new_market" "oops"] ⟨2, [2]⟩ (Pool.new 4))
        lostAck = some final ∧ final.dispatched.map Handled.id = [2, 3] := ⟨_, rfl, rfl⟩
  refine ⟨final, completed, ids, ?_⟩
  exact (pending_entries_drained (Json.parse recursionLimit) _ ⟨2, [2]⟩ (Pool.new 4) (by simp)
    (by simp) lostAck final completed).1

end Collector.StreamRun
