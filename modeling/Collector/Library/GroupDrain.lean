import Collector.Library.GroupReader

/-!
# How a task drains what it found unacknowledged

Each read of the first phase gives the next entries that were found
unacknowledged, as many as one read takes, whatever became of those before: the
task asks for larger numbers than the last it has seen, not for what it did not
acknowledge. The read that finds nothing more ends the phase for good. The reads
alone therefore tell where the task is.
-/

namespace StreamGroup.Reader

universe u v w
variable {α : Type u} {σ : Type v} {ε : Type w} {handler : Handler α σ ε}

/-- The action is a read. -/
def Action.isRead : Action α ε → Bool
  | .read => true
  | _ => false

/-- How many of the actions are reads. -/
def reads (actions : List (Action α ε)) : Nat := actions.countP Action.isRead

/-- Where a task is after some reads: it has read as much of what it found
unacknowledged as these reads take, or it has dispatched all of it and turned to
new entries. -/
structure Draining (handler : Handler α σ ε) (found : List (α × Nat)) (reads : Nat)
    (reader : Reader α σ) : Prop where
  early : reader.pendingDone = false →
    reader.dispatched.map Handled.source ++ reader.batch = found.take (handler.readCount * reads) ∧
      handler.readCount * reads < found.length + handler.readCount
  late : reader.pendingDone = true →
    found <+: reader.dispatched.map Handled.source ∧
      found.length + handler.readCount ≤ handler.readCount * reads

section Steps

variable {log : List α} {group : Group} {count : Nat} {reader next : Reader α σ}

/-- A read takes one portion more, or finds that there is none and ends the phase. -/
theorem Draining.read (draining : Draining handler (unacknowledged log group) count reader)
    (ordered : Ordered log group reader) (known : ∀ id ∈ group.pending, id ≤ log.length)
    (taken : step handler reader .read = some next) :
    Draining handler (unacknowledged log group) (count + 1) next := by
  have positive := handler.readsSome
  obtain ⟨empty, -, ⟨done, rfl⟩ | ⟨notDone, rfl⟩⟩ := read_cases taken
  · obtain ⟨passed, enough⟩ := draining.late done
    refine ⟨fun notDone => absurd (done.symm.trans notDone) (by simp), fun _ => ⟨passed, ?_⟩⟩
    exact Nat.le_trans enough (Nat.mul_le_mul_left _ (Nat.le_succ count))
  · obtain ⟨portion, few⟩ := draining.early notDone
    obtain ⟨rest, inPhase⟩ := ordered.early notDone
    have batch := inPhase.readPending known ordered.grown empty handler.readCount
    have whole := inPhase.whole
    rw [empty, List.append_nil] at portion whole
    -- what the reads so far have not taken is what the phase has left
    obtain rfl : (unacknowledged log group).drop (handler.readCount * count) = rest := by
      rw [portion] at whole
      exact List.append_cancel_left ((List.take_append_drop _ _).trans whole.symm)
    rw [batch]
    constructor
    · intro more
      have left : (unacknowledged log group).drop (handler.readCount * count) ≠ [] := by
        intro none
        rw [none, List.take_nil] at more
        cases more
      have longer : handler.readCount * count < (unacknowledged log group).length := by
        by_contra short
        exact left (List.drop_eq_nil_of_le (Nat.not_lt.mp short))
      refine ⟨?_, ?_⟩
      · rw [Nat.mul_succ, List.take_add, ← portion]
        rfl
      · rw [Nat.mul_succ]
        omega
    · intro nothing
      have none := List.isEmpty_iff.mp nothing
      have short : (unacknowledged log group).length ≤ handler.readCount * count := by
        have length := congrArg List.length none
        rw [List.length_take, List.length_drop, List.length_nil] at length
        omega
      refine ⟨?_, ?_⟩
      · rw [List.take_of_length_le short] at portion
        rw [← portion]
        exact List.prefix_refl _
      · rw [Nat.mul_succ]
        omega

/-- A dispatch moves an entry of the batch behind those dispatched before. -/
theorem Draining.dispatch {found : List (α × Nat)} {choice : ε}
    (draining : Draining handler found count reader)
    (taken : step handler reader (.dispatch choice) = some next) :
    Draining handler found count next := by
  obtain ⟨handled, rest, target, batch, idle, -, rfl⟩ := dispatch_cases taken
  have settledOnly : reader.dispatched = reader.settled := by
    rw [dispatched, idle, Option.toList_none, List.append_nil]
  obtain ⟨early, late⟩ := draining
  rw [settledOnly] at early late
  rw [batch] at early
  constructor
  · intro notDone
    obtain ⟨portion, few⟩ := early notDone
    refine ⟨?_, few⟩
    rw [← portion]
    simp [dispatched]
  · intro done
    obtain ⟨passed, enough⟩ := late done
    refine ⟨passed.trans ?_, enough⟩
    simp [dispatched]

/-- Every step keeps the account, with one read more if it is one. -/
theorem draining_step {before : List (Action α ε)} {action : Action α ε}
    (known : ∀ id ∈ group.pending, id ≤ log.length)
    (taken : step handler reader action = some next) (ordered : Ordered log group reader)
    (draining : Draining handler (unacknowledged log group) (reads before) reader) :
    Draining handler (unacknowledged log group) (reads (before ++ [action])) next := by
  rw [reads, List.countP_append, ← reads]
  cases action with
  | append entry =>
    obtain rfl := Option.some.inj taken
    exact ⟨draining.early, draining.late⟩
  | read => exact draining.read ordered known taken
  | dispatch choice => exact draining.dispatch taken
  | settle arrives =>
    obtain ⟨handled, -, settles, -⟩ := settle_cases taken
    obtain ⟨early, late⟩ := draining
    rw [← settles.pendingDone, ← settles.dispatched] at early late
    rw [← settles.batch] at early
    exact ⟨early, late⟩

end Steps

section Runs

variable {log : List α} {group : Group} {target : σ} {actions : List (Action α ε)}
  {final : Reader α σ}

/-- In every run, the reads tell where the task is. -/
theorem draining_run (known : ∀ id ∈ group.pending, id ≤ log.length)
    (inside : group.delivered ≤ log.length)
    (completed : Runs.run (step handler) (start log group target) actions = some final) :
    Ordered log group final ∧
      Draining handler (unacknowledged log group) (reads actions) final := by
  have kept : ∀ (before : List (Action α ε)) (reader : Reader α σ) (action : Action α ε)
      (next : Reader α σ), step handler reader action = some next →
        Ordered log group reader ∧
          Draining handler (unacknowledged log group) (reads before) reader →
        Ordered log group next ∧
          Draining handler (unacknowledged log group) (reads (before ++ [action])) next := by
    rintro before reader action next taken ⟨ordered, draining⟩
    exact ⟨ordered_step known inside reader action next taken ordered,
      draining_step known taken ordered draining⟩
  have positive := handler.readsSome
  refine Runs.invariant_history kept completed ⟨ordered_start target, ?_, ?_⟩
  · intro _
    simp [start, dispatched, reads]
    omega
  · simp [start]

/-- The phase has ended exactly when the reads were enough to find nothing more. -/
theorem Draining.pendingDone_iff {found : List (α × Nat)} {count : Nat} {reader : Reader α σ}
    (draining : Draining handler found count reader) :
    reader.pendingDone = true ↔
      found.length + handler.readCount ≤ handler.readCount * count := by
  cases ended : reader.pendingDone with
  | true => exact iff_of_true rfl (draining.late ended).2
  | false =>
    refine iff_of_false (by simp) ?_
    have few := (draining.early ended).2
    omega

/-- Once the phase has ended, it stays so. -/
theorem pendingDone_step (reader : Reader α σ) (action : Action α ε) (next : Reader α σ)
    (taken : step handler reader action = some next) (ended : reader.pendingDone = true) :
    next.pendingDone = true := by
  cases action with
  | append entry =>
    obtain rfl := Option.some.inj taken
    exact ended
  | read =>
    obtain ⟨-, -, ⟨-, rfl⟩ | ⟨notDone, rfl⟩⟩ := read_cases taken
    · exact ended
    · exact absurd (ended.symm.trans notDone) (by simp)
  | dispatch choice =>
    obtain ⟨handled, rest, target, -, -, -, rfl⟩ := dispatch_cases taken
    exact ended
  | settle arrives =>
    obtain ⟨handled, -, settles, -⟩ := settle_cases taken
    rw [settles.pendingDone]
    exact ended

end Runs

section Progress

variable {holds : σ → Prop}

/-- Whatever a handler keeps holds of the target after every run. -/
theorem target_holds (each : ∀ target entry choice, holds target →
      ∃ next success, handler.handle target entry choice = some (next, success) ∧ holds next)
    {reader final : Reader α σ} {actions : List (Action α ε)} (initially : holds reader.target)
    (completed : Runs.run (step handler) reader actions = some final) : holds final.target := by
  have kept : ∀ (reader : Reader α σ) (action : Action α ε) (next : Reader α σ),
      step handler reader action = some next → holds reader.target → holds next.target := by
    intro reader action next taken held
    cases action with
    | append entry =>
      obtain rfl := Option.some.inj taken
      exact held
    | read =>
      obtain ⟨-, -, ⟨-, rfl⟩ | ⟨-, rfl⟩⟩ := read_cases taken
      · exact held
      · exact held
    | dispatch choice =>
      obtain ⟨handled, rest, target, -, -, outcome, rfl⟩ := dispatch_cases taken
      obtain ⟨other, success, returned, after⟩ := each reader.target handled.entry choice held
      obtain ⟨rfl, -⟩ := Prod.mk.inj (Option.some.inj (returned.symm.trans outcome))
      exact after
    | settle arrives =>
      obtain ⟨handled, -, rfl⟩ := Option.map_eq_some_iff.mp taken
      split
      · exact held
      · exact held
  exact Runs.invariant kept completed initially

/-- An entry in hand can be settled. -/
theorem exists_settled (handler : Handler α σ ε) (reader : Reader α σ) :
    ∃ actions free, Runs.run (step handler) reader actions = some free ∧
      free.batch = reader.batch ∧ free.inHand = none := by
  cases held : reader.inHand with
  | none => exact ⟨[], reader, rfl, rfl, held⟩
  | some handled =>
    obtain ⟨next, taken⟩ : ∃ next, step handler reader (.settle true) = some next := by
      simp [step, held]
    obtain ⟨other, -, settles, -⟩ := settle_cases taken
    refine ⟨[.settle true], next, ?_, settles.batch, settles.inHand⟩
    rw [Runs.run_cons, taken]
    rfl

variable [Inhabited ε]

/-- What has been read can be worked off. -/
theorem exists_idle (each : ∀ target entry (choice : ε), holds target →
      ∃ next success, handler.handle target entry choice = some (next, success) ∧ holds next)
    (batch : List (α × Nat)) (reader : Reader α σ) (isBatch : reader.batch = batch)
    (held : holds reader.target) :
    ∃ actions idle, Runs.run (step handler) reader actions = some idle ∧
      idle.batch = [] ∧ idle.inHand = none := by
  induction batch generalizing reader with
  | nil =>
    obtain ⟨actions, free, reached, same, nothing⟩ := exists_settled handler reader
    exact ⟨actions, free, reached, same.trans isBatch, nothing⟩
  | cons first rest inductionHypothesis =>
    obtain ⟨actions, free, reached, same, nothing⟩ := exists_settled handler reader
    have stillHeld := target_holds each held reached
    obtain ⟨target, success, returned, -⟩ := each free.target first.1 default stillHeld
    obtain ⟨next, taken⟩ : ∃ next, step handler free (.dispatch default) = some next := by
      simp [step, same.trans isBatch, nothing, returned]
    obtain ⟨handled, left, after, split, -, -, isNext⟩ := dispatch_cases taken
    rw [same, isBatch] at split
    have remaining : next.batch = rest := by
      rw [isNext]
      exact (List.cons.inj split).2.symm
    have further : Runs.run (step handler) reader (actions ++ [.dispatch default]) = some next := by
      rw [Runs.run_append reached, Runs.run_cons, taken]
      rfl
    obtain ⟨more, idle, continued, atEnd⟩ := inductionHypothesis next remaining
      (target_holds each held further)
    refine ⟨actions ++ [.dispatch default] ++ more, idle, ?_, atEnd⟩
    rw [Runs.run_append further]
    exact continued

/-- The task can go on to any number of reads. -/
theorem exists_reads (each : ∀ target entry (choice : ε), holds target →
      ∃ next success, handler.handle target entry choice = some (next, success) ∧ holds next)
    (count : Nat) (reader : Reader α σ) (held : holds reader.target) :
    ∃ actions last, Runs.run (step handler) reader actions = some last ∧
      count ≤ reads actions := by
  induction count with
  | zero => exact ⟨[], reader, rfl, Nat.le_refl 0⟩
  | succ count inductionHypothesis =>
    obtain ⟨actions, middle, reached, enough⟩ := inductionHypothesis
    obtain ⟨others, idle, emptied, noBatch, noHand⟩ := exists_idle each middle.batch middle rfl
      (target_holds each held reached)
    obtain ⟨last, taken⟩ : ∃ last, step handler idle .read = some last := by
      simp only [step, noBatch, noHand, Option.isNone_none, and_self, if_true]
      split <;> exact ⟨_, rfl⟩
    refine ⟨actions ++ (others ++ [.read]), last, ?_, ?_⟩
    · rw [Runs.run_append reached, Runs.run_append emptied, Runs.run_cons, taken]
      rfl
    · simp only [reads, List.countP_append] at enough ⊢
      have one : [Action.read].countP (Action.isRead (α := α) (ε := ε)) = 1 := rfl
      omega

/-- From wherever a task has come to, it can go on until the phase has ended. -/
theorem exists_pendingDone (each : ∀ target entry (choice : ε), holds target →
      ∃ next success, handler.handle target entry choice = some (next, success) ∧ holds next)
    {log : List α} {group : Group} (known : ∀ id ∈ group.pending, id ≤ log.length)
    (inside : group.delivered ≤ log.length) {target : σ} {actions : List (Action α ε)}
    {final : Reader α σ} (initially : holds target)
    (completed : Runs.run (step handler) (start log group target) actions = some final) :
    ∃ more last, Runs.run (step handler) final more = some last ∧ last.pendingDone = true := by
  have positive := handler.readsSome
  have held : holds final.target := target_holds each initially completed
  obtain ⟨more, last, continued, enough⟩ :=
    exists_reads each ((unacknowledged log group).length + 1) final held
  refine ⟨more, last, continued, ?_⟩
  have whole : Runs.run (step handler) (start log group target) (actions ++ more) = some last := by
    rw [Runs.run_append completed]
    exact continued
  rw [(draining_run known inside whole).2.pendingDone_iff]
  have several : (unacknowledged log group).length + 1 ≤ reads (actions ++ more) := by
    rw [reads, List.countP_append]
    exact Nat.le_add_left_of_le enough
  calc (unacknowledged log group).length + handler.readCount
      ≤ handler.readCount * (unacknowledged log group).length + handler.readCount :=
        Nat.add_le_add_right (Nat.le_mul_of_pos_left _ positive) _
    _ = handler.readCount * ((unacknowledged log group).length + 1) := (Nat.mul_succ _ _).symm
    _ ≤ handler.readCount * reads (actions ++ more) := Nat.mul_le_mul_left _ several

end Progress

end StreamGroup.Reader
