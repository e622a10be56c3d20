import Collector.Library.StreamGroup
import Collector.Library.Runs

/-!
# A task that reads a log through a group

The task first reads the entries that were delivered to it earlier and never
acknowledged, and then new ones. It handles the entries it has read one by one
and settles each of them before the next: it acknowledges it, or leaves it
pending. Acknowledgements may get lost, and the log may grow at any time.

A task that acknowledges every entry keeps the law that only successes are
acknowledged exactly while it meets no failure. A task that acknowledges
successes keeps it always. Either dispatches the entries it found unacknowledged
and then those that were not delivered, in the order of their numbers.
-/

namespace StreamGroup

universe u v w
variable {α : Type u} {σ : Type v} {ε : Type w}

/-- How a task handles entries: the effect on its target and whether it was a
success, with no outcome when the task breaks off, and whether the task
acknowledges its failures too. A choice stands for what is not determined. -/
structure Handler (α : Type u) (σ : Type v) (ε : Type w) where
  readCount : Nat
  readsSome : 0 < readCount
  handle : σ → α → ε → Option (σ × Bool)
  acksFailures : Bool

/-- A dispatched entry, its number, and whether it was handled with success. -/
structure Handled (α : Type u) where
  entry : α
  id : Nat
  success : Bool

/-- The entry as it was read. -/
def Handled.source (handled : Handled α) : α × Nat := (handled.entry, handled.id)

/-- The log, the group, and the task: its target, its phase, the last entry it has
seen, the entries read and not dispatched, and the entry dispatched and not
settled. The entries settled and the acknowledgements sent are kept as a record. -/
structure Reader (α : Type u) (σ : Type v) where
  log : List α
  group : Group
  target : σ
  pendingDone : Bool
  lastId : Nat
  batch : List (α × Nat)
  inHand : Option (Handled α)
  settled : List (Handled α)
  acks : List (Handled α)

namespace Reader

/-- A task that has just begun. -/
def start (log : List α) (group : Group) (target : σ) : Reader α σ where
  log := log
  group := group
  target := target
  pendingDone := false
  lastId := 0
  batch := []
  inHand := none
  settled := []
  acks := []

/-- The entries dispatched so far, in order. -/
def dispatched (reader : Reader α σ) : List (Handled α) := reader.settled ++ reader.inHand.toList

/-- Whether the task acknowledges a handled entry. -/
def acknowledges (handler : Handler α σ ε) (handled : Handled α) : Bool :=
  handled.success || handler.acksFailures

/-- The steps of the task, and the growth of the log. -/
inductive Action (α : Type u) (ε : Type w) where
  | append (entry : α)
  | read
  | dispatch (choice : ε)
  | settle (arrives : Bool)

/-- One step. -/
def step (handler : Handler α σ ε) (reader : Reader α σ) : Action α ε → Option (Reader α σ)
  | .append entry => some { reader with log := reader.log ++ [entry] }
  | .read =>
    if reader.batch = [] ∧ reader.inHand.isNone then
      if reader.pendingDone then
        let (batch, group) := reader.group.readNew reader.log handler.readCount
        some { reader with
          batch := batch
          group := group }
      else
        let batch := reader.group.readPending reader.log reader.lastId handler.readCount
        some { reader with
          batch := batch
          pendingDone := batch.isEmpty }
    else none
  | .dispatch choice =>
    match reader.batch, reader.inHand with
    | (entry, id) :: rest, none =>
      (handler.handle reader.target entry choice).map fun (target, success) => { reader with
        target := target
        lastId := id
        batch := rest
        inHand := some ⟨entry, id, success⟩ }
    | _, _ => none
  | .settle arrives =>
    reader.inHand.map fun handled =>
      if acknowledges handler handled then { reader with
        group := if arrives then reader.group.ack handled.id else reader.group
        inHand := none
        settled := reader.settled ++ [handled]
        acks := reader.acks ++ [handled] }
      else { reader with
        inHand := none
        settled := reader.settled ++ [handled] }

/-- Only entries handled with success are acknowledged, and the other dispatched
ones are still pending. -/
def Lawful (reader : Reader α σ) : Prop :=
  (∀ handled ∈ reader.acks, handled.success) ∧
    ∀ handled ∈ reader.dispatched, ¬ handled.success → handled.id ∈ reader.group.pending

/-- The task has dispatched and settled all there is. -/
structure CaughtUp (reader : Reader α σ) : Prop where
  pendingDone : reader.pendingDone = true
  delivered : reader.group.delivered = reader.log.length
  batch : reader.batch = []
  inHand : reader.inHand = none

/-- The entries of a log that a group has delivered and not seen acknowledged. -/
def unacknowledged (log : List α) (group : Group) : List (α × Nat) :=
  (entries log).filter fun entry => entry.2 ∈ group.pending

section Entries

/-- The numbers of the entries increase. -/
theorem ordered_entries (log : List α) : ((entries log).map Prod.snd).Pairwise (· < ·) := by
  rw [entries, List.zipIdx_map_snd]
  exact List.pairwise_lt_range'

theorem ordered_sublist {log : List α} {part : List (α × Nat)}
    (inside : part.Sublist (entries log)) :
    (part.map Prod.snd).Pairwise (· < ·) :=
  (ordered_entries log).sublist (inside.map Prod.snd)

/-- Acknowledging one entry leaves the others as they are. -/
theorem mem_pending_ack (group : Group) (id other : Nat) :
    other ∈ (group.ack id).pending ↔ other ∈ group.pending ∧ other ≠ id := by
  rw [Group.ack, List.mem_filter, decide_eq_true_eq]

/-- Every pending number belongs to an entry that was found unacknowledged. -/
theorem mem_unacknowledged_ids {log : List α} {group : Group}
    (known : ∀ id ∈ group.pending, 1 ≤ id ∧ id ≤ log.length) (id : Nat) :
    id ∈ (unacknowledged log group).map Prod.snd ↔ id ∈ group.pending := by
  constructor
  · intro member
    obtain ⟨entry, unacked, rfl⟩ := List.mem_map.mp member
    exact of_decide_eq_true (List.mem_filter.mp unacked).2
  · intro pending
    obtain ⟨positive, bounded⟩ := known id pending
    have inside : id - 1 < log.length := by omega
    apply List.mem_map.mpr
    refine ⟨(log[id - 1], id), List.mem_filter.mpr ⟨?_, decide_eq_true pending⟩, rfl⟩
    apply List.mem_iff_getElem?.mpr
    refine ⟨id - 1, ?_⟩
    rw [getElem?_entries, List.getElem?_eq_getElem inside, Option.map_some,
      Nat.sub_add_cancel positive]

end Entries

variable {handler : Handler α σ ε}

section Steps

/-- A read of an idle task changes the group and the batch. -/
theorem read_cases {reader next : Reader α σ} (taken : step handler reader .read = some next) :
    reader.batch = [] ∧ reader.inHand = none ∧
      ((reader.pendingDone = true ∧ next = { reader with
          batch := (reader.group.readNew reader.log handler.readCount).1
          group := (reader.group.readNew reader.log handler.readCount).2 }) ∨
        (reader.pendingDone = false ∧ next = { reader with
          batch := reader.group.readPending reader.log reader.lastId handler.readCount
          pendingDone :=
            (reader.group.readPending reader.log reader.lastId handler.readCount).isEmpty })) := by
  simp only [step] at taken
  split at taken
  · rename_i idle
    refine ⟨idle.1, Option.isNone_iff_eq_none.mp idle.2, ?_⟩
    split at taken
    · rename_i done
      exact Or.inl ⟨done, (Option.some.inj taken).symm⟩
    · rename_i notDone
      exact Or.inr ⟨Bool.eq_false_iff.mpr notDone, (Option.some.inj taken).symm⟩
  · exact absurd taken (by simp)

/-- A dispatch takes the first entry of the batch in hand. -/
theorem dispatch_cases {reader next : Reader α σ} {choice : ε}
    (taken : step handler reader (.dispatch choice) = some next) :
    ∃ handled rest target, reader.batch = handled.source :: rest ∧ reader.inHand = none ∧
      handler.handle reader.target handled.entry choice = some (target, handled.success) ∧
      next = { reader with
        target := target
        lastId := handled.id
        batch := rest
        inHand := some handled } := by
  simp only [step] at taken
  split at taken
  · rename_i entry id rest batch idle
    obtain ⟨⟨target, success⟩, handled, rfl⟩ := Option.map_eq_some_iff.mp taken
    exact ⟨⟨entry, id, success⟩, rest, target, batch, idle, handled, rfl⟩
  · exact absurd taken (by simp)

/-- What settling an entry leaves as it was, and what it may acknowledge. -/
structure Settles (handled : Handled α) (reader next : Reader α σ) : Prop where
  log : next.log = reader.log
  pendingDone : next.pendingDone = reader.pendingDone
  lastId : next.lastId = reader.lastId
  batch : next.batch = reader.batch
  inHand : next.inHand = none
  settled : next.settled = reader.dispatched
  delivered : next.group.delivered = reader.group.delivered
  fewer : ∀ id ∈ next.group.pending, id ∈ reader.group.pending
  others : ∀ id ∈ reader.group.pending, id ≠ handled.id → id ∈ next.group.pending

theorem Settles.dispatched {handled : Handled α} {reader next : Reader α σ}
    (settles : Settles handled reader next) : next.dispatched = reader.dispatched := by
  rw [Reader.dispatched, settles.inHand, settles.settled, Option.toList_none, List.append_nil]

/-- The entry in hand is settled, and acknowledged or left pending. -/
theorem settle_cases {reader next : Reader α σ} {arrives : Bool}
    (taken : step handler reader (.settle arrives) = some next) :
    ∃ handled ∈ reader.inHand, Settles handled reader next ∧
      ((acknowledges handler handled = true ∧ next.acks = reader.acks ++ [handled]) ∨
        (acknowledges handler handled = false ∧ next.acks = reader.acks ∧
          next.group = reader.group)) := by
  obtain ⟨handled, held, isNext⟩ := Option.map_eq_some_iff.mp taken
  have settled : reader.settled ++ [handled] = reader.dispatched := by
    rw [dispatched, held, Option.toList_some]
  refine ⟨handled, held, ?_⟩
  split at isNext
  · rename_i acknowledged
    obtain rfl := isNext
    refine ⟨?_, Or.inl ⟨acknowledged, rfl⟩⟩
    cases arrives with
    | true =>
      exact ⟨rfl, rfl, rfl, rfl, rfl, settled, rfl,
        fun id member => ((mem_pending_ack _ _ _).mp member).1,
        fun id member different => (mem_pending_ack _ _ _).mpr ⟨member, different⟩⟩
    | false =>
      exact ⟨rfl, rfl, rfl, rfl, rfl, settled, rfl, fun _ member => member,
        fun _ member _ => member⟩
  · rename_i refuses
    obtain rfl := isNext
    exact ⟨⟨rfl, rfl, rfl, rfl, rfl, settled, rfl, fun _ member => member,
      fun _ member _ => member⟩, Or.inr ⟨Bool.eq_false_iff.mpr refuses, rfl, rfl⟩⟩

end Steps

section Pending

/-- The entries in the hands of a task are pending, and in order. -/
structure Holding (reader : Reader α σ) : Prop where
  pending : ∀ id ∈ reader.inHand.toList.map Handled.id ++ reader.batch.map Prod.snd,
    id ∈ reader.group.pending
  ordered : (reader.inHand.toList.map Handled.id ++ reader.batch.map Prod.snd).Pairwise (· < ·)

theorem holding_start (log : List α) (group : Group) (target : σ) :
    Holding (start log group target) where
  pending := by simp [start]
  ordered := List.Pairwise.nil

/-- A read puts pending entries into the hands of the task, and settling one takes
it out of them. -/
theorem holding_step (reader : Reader α σ) (action : Action α ε) (next : Reader α σ)
    (taken : step handler reader action = some next) (holding : Holding reader) :
    Holding next := by
  obtain ⟨pending, ordered⟩ := holding
  cases action with
  | append entry =>
    obtain rfl := Option.some.inj taken
    exact ⟨pending, ordered⟩
  | read =>
    obtain ⟨-, idle, ⟨-, rfl⟩ | ⟨-, rfl⟩⟩ := read_cases taken
    · refine ⟨?_, ?_⟩ <;> simp only [idle, Option.toList_none, List.map_nil, List.nil_append]
      · exact fun id member => List.mem_append_right _ member
      · exact ordered_sublist ((List.take_sublist _ _).trans (List.drop_sublist _ _))
    · refine ⟨?_, ?_⟩ <;> simp only [idle, Option.toList_none, List.map_nil, List.nil_append]
      · intro id member
        obtain ⟨entry, inBatch, rfl⟩ := List.mem_map.mp member
        have wanted := (List.mem_filter.mp (List.mem_of_mem_take inBatch)).2
        exact (of_decide_eq_true wanted).1
      · exact ordered_sublist ((List.take_sublist _ _).trans List.filter_sublist)
  | dispatch choice =>
    obtain ⟨handled, rest, target, batch, idle, -, rfl⟩ := dispatch_cases taken
    rw [idle, batch] at pending ordered
    exact ⟨pending, ordered⟩
  | settle arrives =>
    obtain ⟨handled, held, settles, -⟩ := settle_cases taken
    rw [Option.mem_def.mp held, Option.toList_some, List.map_singleton, List.singleton_append]
      at pending ordered
    obtain ⟨later, increasing⟩ := List.pairwise_cons.mp ordered
    refine ⟨?_, ?_⟩ <;>
      simp only [settles.inHand, settles.batch, Option.toList_none, List.map_nil, List.nil_append]
    · intro id member
      exact settles.others id (pending id (List.mem_cons_of_mem _ member))
        (Nat.ne_of_gt (later id member))
    · exact increasing

end Pending

section Law

/-- What the task acknowledged: the settled entries that it acknowledges. -/
def Recorded (handler : Handler α σ ε) (reader : Reader α σ) : Prop :=
  reader.acks = reader.settled.filter (acknowledges handler)

theorem recorded_step (reader : Reader α σ) (action : Action α ε) (next : Reader α σ)
    (taken : step handler reader action = some next) (recorded : Recorded handler reader) :
    Recorded handler next := by
  cases action with
  | append entry =>
    obtain rfl := Option.some.inj taken
    exact recorded
  | read =>
    obtain ⟨-, -, ⟨-, rfl⟩ | ⟨-, rfl⟩⟩ := read_cases taken
    · exact recorded
    · exact recorded
  | dispatch choice =>
    obtain ⟨handled, rest, target, -, -, -, rfl⟩ := dispatch_cases taken
    exact recorded
  | settle arrives =>
    obtain ⟨handled, held, settles, ⟨acknowledged, acks⟩ | ⟨refused, acks, -⟩⟩ :=
      settle_cases taken
    · rw [Recorded, acks, recorded, settles.settled, dispatched, Option.mem_def.mp held,
        Option.toList_some, List.filter_append, List.filter_cons_of_pos acknowledged,
        List.filter_nil]
    · rw [Recorded, acks, recorded, settles.settled, dispatched, Option.mem_def.mp held,
        Option.toList_some, List.filter_append,
        List.filter_cons_of_neg (Bool.eq_false_iff.mp refused), List.filter_nil, List.append_nil]

/-- A task that acknowledges everything keeps the law exactly while every entry it
has settled was a success. -/
theorem lawful_iff (acksAll : handler.acksFailures = true) {log : List α} {group : Group}
    {target : σ} {actions : List (Action α ε)} {final : Reader α σ}
    (completed : Runs.run (step handler) (start log group target) actions = some final) :
    Lawful final ↔ ∀ handled ∈ final.settled, handled.success := by
  have holding : Holding final :=
    Runs.invariant holding_step completed (holding_start log group target)
  have recorded : Recorded handler final := Runs.invariant recorded_step completed rfl
  have everything : final.acks = final.settled := by
    rw [recorded, List.filter_eq_self]
    intro handled _
    rw [acknowledges, acksAll, Bool.or_true]
  rw [Lawful, everything]
  refine and_iff_left_of_imp fun successes handled member failed => ?_
  rcases List.mem_append.mp member with settled | inHand
  · exact absurd (successes handled settled) failed
  · exact holding.pending handled.id (List.mem_append_left _ (List.mem_map_of_mem inHand))

end Law

/-- What holds of every outcome of a handler holds of everything dispatched. -/
theorem outcomes {property : α → Bool → Prop}
    (each : ∀ target entry choice next success,
      handler.handle target entry choice = some (next, success) → property entry success)
    {log : List α} {group : Group} {target : σ} {actions : List (Action α ε)} {final : Reader α σ}
    (completed : Runs.run (step handler) (start log group target) actions = some final) :
    ∀ handled ∈ final.dispatched, property handled.entry handled.success := by
  have kept : ∀ (reader : Reader α σ) (action : Action α ε) (next : Reader α σ),
      step handler reader action = some next →
        (∀ handled ∈ reader.dispatched, property handled.entry handled.success) →
          ∀ handled ∈ next.dispatched, property handled.entry handled.success := by
    intro reader action next taken all
    cases action with
    | append entry =>
      obtain rfl := Option.some.inj taken
      exact all
    | read =>
      obtain ⟨-, -, ⟨-, rfl⟩ | ⟨-, rfl⟩⟩ := read_cases taken
      · exact all
      · exact all
    | dispatch choice =>
      obtain ⟨handled, rest, target, -, -, outcome, rfl⟩ := dispatch_cases taken
      intro other member
      rcases List.mem_append.mp member with old | new
      · exact all other (List.mem_append_left _ old)
      · rw [List.mem_singleton.mp new]
        exact each _ _ _ _ _ outcome
    | settle arrives =>
      obtain ⟨handled, -, settles, -⟩ := settle_cases taken
      rw [settles.dispatched]
      exact all
  exact Runs.invariant kept completed (by simp [start, dispatched])

section Order

/-- Before the task turns to new entries: what it has dispatched, what it has read,
and what is left make up the entries it found unacknowledged. -/
structure Early (log : List α) (group : Group) (reader : Reader α σ) (rest : List (α × Nat)) :
    Prop where
  delivered : reader.group.delivered = group.delivered
  whole : reader.dispatched.map Handled.source ++ reader.batch ++ rest = unacknowledged log group
  fewer : ∀ id ∈ reader.group.pending, id ∈ group.pending
  left : ∀ entry ∈ rest, entry.2 ∈ reader.group.pending
  before : ∀ handled ∈ reader.dispatched, handled.id ≤ reader.lastId
  behind : ∀ entry ∈ reader.batch ++ rest, reader.lastId < entry.2

/-- Once it has turned to new entries: they come after those it found
unacknowledged, from the first one that was not delivered. -/
structure Late (log : List α) (group : Group) (reader : Reader α σ) : Prop where
  inside : reader.group.delivered ≤ reader.log.length
  whole : reader.dispatched.map Handled.source ++ reader.batch ++
      (entries reader.log).drop reader.group.delivered =
    unacknowledged log group ++ (entries reader.log).drop group.delivered

/-- What the task has dispatched and read follows the order it will keep. -/
structure Ordered (log : List α) (group : Group) (reader : Reader α σ) : Prop where
  grown : ∃ more, reader.log = log ++ more
  early : reader.pendingDone = false → ∃ rest, Early log group reader rest
  late : reader.pendingDone = true → Late log group reader

variable {log : List α} {group : Group}

/-- A task that read only pending entries so far is given the next ones. -/
theorem Early.readPending {reader : Reader α σ} {rest : List (α × Nat)}
    (early : Early log group reader rest) (known : ∀ id ∈ group.pending, id ≤ log.length)
    (grown : ∃ more, reader.log = log ++ more) (empty : reader.batch = []) (count : Nat) :
    reader.group.readPending reader.log reader.lastId count = rest.take count := by
  obtain ⟨-, whole, fewer, left, before, behind⟩ := early
  obtain ⟨more, isLonger⟩ := grown
  rw [empty, List.append_nil] at whole
  rw [empty, List.nil_append] at behind
  let wanted : α × Nat → Bool := fun entry =>
    entry.2 ∈ reader.group.pending ∧ reader.lastId < entry.2
  have newer : (more.zipIdx (1 + log.length)).filter wanted = [] := by
    apply List.filter_eq_nil_iff.mpr
    intro entry member wants
    have inLog := known entry.2 (fewer entry.2 (of_decide_eq_true wants).1)
    have number := (List.mem_zipIdx_iff_le_and_getElem?_sub.mp member).1
    omega
  have older : (entries log).filter wanted = (unacknowledged log group).filter wanted := by
    rw [unacknowledged, List.filter_filter]
    apply List.filter_congr
    intro entry _
    rw [Bool.eq_iff_iff, Bool.and_eq_true]
    simp only [wanted, decide_eq_true_eq]
    exact ⟨fun wants => ⟨wants, fewer entry.2 wants.1⟩, And.left⟩
  have seen : (reader.dispatched.map Handled.source).filter wanted = [] := by
    apply List.filter_eq_nil_iff.mpr
    intro entry member wants
    obtain ⟨handled, isDispatched, rfl⟩ := List.mem_map.mp member
    exact Nat.not_lt.mpr (before handled isDispatched) (of_decide_eq_true wants).2
  have coming : rest.filter wanted = rest := by
    apply List.filter_eq_self.mpr
    intro entry member
    exact decide_eq_true ⟨left entry member, behind entry member⟩
  rw [Group.readPending, isLonger, entries_append]
  change ((entries log ++ more.zipIdx (1 + log.length)).filter wanted).take count = _
  rw [List.filter_append, newer, List.append_nil, older, ← whole, List.filter_append, seen, coming,
    List.nil_append]

theorem ordered_start (target : σ) : Ordered log group (start log group target) where
  grown := ⟨[], (List.append_nil log).symm⟩
  early := by
    intro _
    refine ⟨unacknowledged log group, rfl, rfl, fun _ member => member, ?_, ?_, ?_⟩
    · intro entry member
      have unacked := (List.mem_filter.mp member).2
      exact of_decide_eq_true unacked
    · simp [start, dispatched]
    · intro entry member
      have logged := List.mem_of_mem_filter member
      exact (List.mem_zipIdx_iff_le_and_getElem?_sub.mp logged).1
  late := by simp [start]

/-- A read keeps the order. -/
theorem Ordered.read {reader next : Reader α σ} (ordered : Ordered log group reader)
    (known : ∀ id ∈ group.pending, id ≤ log.length) (inside : group.delivered ≤ log.length)
    (taken : step handler reader .read = some next) : Ordered log group next := by
  obtain ⟨grown, early, late⟩ := ordered
  obtain ⟨empty, -, ⟨done, rfl⟩ | ⟨notDone, rfl⟩⟩ := read_cases taken
  · obtain ⟨bounded, whole⟩ := late done
    refine ⟨grown, fun notDone => absurd (done.symm.trans notDone) (by simp), fun _ => ⟨?_, ?_⟩⟩
    · simp only [Group.readNew, List.length_take, List.length_drop, length_entries]
      omega
    · rw [empty, List.append_nil] at whole
      rw [← whole]
      simp only [Group.readNew, List.append_assoc, dispatched]
      rw [← List.drop_drop, List.length_take, ← List.drop_eq_drop_min, List.take_append_drop]
  · obtain ⟨rest, inPhase⟩ := early notDone
    have batch := inPhase.readPending known grown empty handler.readCount
    obtain ⟨delivered, whole, fewer, left, before, behind⟩ := inPhase
    rw [empty, List.append_nil] at whole
    rw [empty, List.nil_append] at behind
    rw [batch]
    refine ⟨grown, fun _ => ⟨rest.drop handler.readCount, delivered, ?_, fewer, ?_, before, ?_⟩,
      fun nothing => ⟨?_, ?_⟩⟩
    · rw [← whole, List.append_assoc]
      simp only [dispatched, List.take_append_drop]
    · exact fun entry member => left entry (List.mem_of_mem_drop member)
    · rw [List.take_append_drop]
      exact behind
    · obtain ⟨more, isLonger⟩ := grown
      simp only [delivered, isLonger, List.length_append]
      omega
    · -- an empty answer means that nothing is left, as the count is positive
      have positive := handler.readsSome
      have none : rest = [] := by
        have short := congrArg List.length (List.isEmpty_iff.mp nothing)
        rw [List.length_take, List.length_nil] at short
        exact List.length_eq_zero_iff.mp (by omega)
      rw [none, List.append_nil] at whole
      rw [← whole]
      simp only [none, List.take_nil, List.append_nil, delivered, dispatched]

/-- Dispatching the next entry keeps the order. -/
theorem Ordered.dispatch {reader next : Reader α σ} {choice : ε}
    (ordered : Ordered log group reader)
    (taken : step handler reader (.dispatch choice) = some next) : Ordered log group next := by
  obtain ⟨grown, early, late⟩ := ordered
  obtain ⟨handled, rest, target, batch, idle, -, rfl⟩ := dispatch_cases taken
  have settledOnly : reader.dispatched = reader.settled := by
    rw [dispatched, idle, Option.toList_none, List.append_nil]
  refine ⟨grown, ?_, ?_⟩
  · intro notDone
    obtain ⟨left, delivered, whole, fewer, pending, before, behind⟩ := early notDone
    rw [settledOnly, batch] at whole
    rw [settledOnly] at before
    rw [batch] at behind
    have increasing : ((reader.settled.map Handled.source ++ handled.source :: rest ++ left).map
        Prod.snd).Pairwise (· < ·) := by
      rw [whole]
      exact ordered_sublist List.filter_sublist
    rw [List.append_assoc, List.map_append, List.pairwise_append, List.cons_append,
      List.map_cons, List.pairwise_cons] at increasing
    refine ⟨left, delivered, ?_, fewer, pending, ?_, ?_⟩
    · rw [← whole]
      simp [dispatched]
    · intro other member
      rcases List.mem_append.mp member with old | new
      · exact Nat.le_of_lt (Nat.lt_of_le_of_lt (before other old) (behind handled.source (by simp)))
      · exact Nat.le_of_eq (congrArg Handled.id (List.mem_singleton.mp new))
    · intro other member
      exact increasing.2.1.1 other.2 (List.mem_map_of_mem member)
  · intro done
    obtain ⟨bounded, whole⟩ := late done
    rw [settledOnly, batch] at whole
    refine ⟨bounded, ?_⟩
    rw [← whole]
    simp [dispatched]

/-- Settling an entry changes nothing about the order. -/
theorem Ordered.settle {reader next : Reader α σ} {arrives : Bool}
    (ordered : Ordered log group reader)
    (taken : step handler reader (.settle arrives) = some next) : Ordered log group next := by
  obtain ⟨grown, early, late⟩ := ordered
  obtain ⟨handled, held, settles, -⟩ := settle_cases taken
  refine ⟨settles.log ▸ grown, ?_, ?_⟩
  · intro notDone
    obtain ⟨rest, delivered, whole, fewer, left, before, behind⟩ :=
      early (settles.pendingDone ▸ notDone)
    have isHeld : handled.id ≤ reader.lastId :=
      before handled (List.mem_append_right _ (Option.mem_toList.mpr held))
    refine ⟨rest, settles.delivered.trans delivered, ?_, ?_, ?_, ?_, ?_⟩
    · rw [settles.dispatched, settles.batch, whole]
    · exact fun id member => fewer id (settles.fewer id member)
    · intro other member
      have later := behind other (List.mem_append_right _ member)
      exact settles.others other.2 (left other member)
        (Nat.ne_of_gt (Nat.lt_of_le_of_lt isHeld later))
    · rw [settles.dispatched, settles.lastId]
      exact before
    · rw [settles.batch, settles.lastId]
      exact behind
  · intro done
    obtain ⟨bounded, whole⟩ := late (settles.pendingDone ▸ done)
    constructor
    · rw [settles.delivered, settles.log]
      exact bounded
    · rw [settles.dispatched, settles.batch, settles.log, settles.delivered, whole]

/-- A longer log has new entries at its end. -/
theorem Ordered.append {reader : Reader α σ} (ordered : Ordered log group reader)
    (inside : group.delivered ≤ log.length) (entry : α) :
    Ordered log group { reader with log := reader.log ++ [entry] } := by
  obtain ⟨⟨more, isLonger⟩, early, late⟩ := ordered
  refine ⟨⟨more ++ [entry], by rw [isLonger, List.append_assoc]⟩, ?_, ?_⟩
  · intro notDone
    obtain ⟨rest, delivered, whole, fewer, left, before, behind⟩ := early notDone
    exact ⟨rest, delivered, whole, fewer, left, before, behind⟩
  · intro done
    obtain ⟨bounded, whole⟩ := late done
    have known : group.delivered ≤ reader.log.length := by
      rw [isLonger, List.length_append]
      omega
    refine ⟨by simp only [List.length_append]; omega, ?_⟩
    simp only [entries_append]
    rw [List.drop_append_of_le_length (by rw [length_entries]; exact bounded),
      List.drop_append_of_le_length (by rw [length_entries]; exact known), ← List.append_assoc,
      ← List.append_assoc]
    exact congrArg (· ++ _) whole

/-- Every step keeps the order. -/
theorem ordered_step (known : ∀ id ∈ group.pending, id ≤ log.length)
    (inside : group.delivered ≤ log.length) (reader : Reader α σ) (action : Action α ε)
    (next : Reader α σ) (taken : step handler reader action = some next)
    (ordered : Ordered log group reader) : Ordered log group next := by
  cases action with
  | append entry =>
    obtain rfl := Option.some.inj taken
    exact ordered.append inside entry
  | read => exact ordered.read known inside taken
  | dispatch choice => exact ordered.dispatch taken
  | settle arrives => exact ordered.settle taken

/-- What is dispatched is the beginning of what the task has to dispatch. -/
theorem Ordered.dispatched_prefix {reader : Reader α σ} (ordered : Ordered log group reader) :
    reader.dispatched.map Handled.source <+:
      unacknowledged log group ++ (entries reader.log).drop group.delivered := by
  cases phase : reader.pendingDone with
  | true =>
    obtain ⟨-, whole⟩ := ordered.late phase
    rw [← whole, List.append_assoc]
    exact List.prefix_append _ _
  | false =>
    obtain ⟨rest, -, whole, -⟩ := ordered.early phase
    rw [← whole, List.append_assoc, List.append_assoc]
    exact List.prefix_append _ _

/-- A task that has caught up has dispatched the entries it found unacknowledged
and then all entries that were not delivered, in this order. -/
theorem Ordered.dispatched_caughtUp {reader : Reader α σ} (ordered : Ordered log group reader)
    (caughtUp : reader.CaughtUp) : reader.dispatched.map Handled.source =
      unacknowledged log group ++ (entries reader.log).drop group.delivered := by
  obtain ⟨done, delivered, empty, -⟩ := caughtUp
  obtain ⟨-, whole⟩ := ordered.late done
  rw [← whole, empty, delivered, List.append_nil,
    List.drop_eq_nil_of_le (Nat.le_of_eq (length_entries reader.log)), List.append_nil]

/-- A group delivers no pending entry anew, so the task dispatches none twice. -/
theorem Ordered.increasing {reader : Reader α σ} (ordered : Ordered log group reader)
    (known : ∀ id ∈ group.pending, id ≤ group.delivered) :
    (reader.dispatched.map Handled.id).Pairwise (· < ·) := by
  have all : ((unacknowledged log group ++ (entries reader.log).drop group.delivered).map
      Prod.snd).Pairwise (· < ·) := by
    rw [List.map_append, List.pairwise_append]
    refine ⟨ordered_sublist List.filter_sublist, ordered_sublist (List.drop_sublist _ _), ?_⟩
    intro old isOld new isNew
    obtain ⟨entry, unacked, rfl⟩ := List.mem_map.mp isOld
    have pending := known entry.2 (of_decide_eq_true (List.mem_filter.mp unacked).2)
    rw [List.map_drop, entries, List.zipIdx_map_snd, List.drop_range', List.mem_range'_1] at isNew
    omega
  have ids : reader.dispatched.map Handled.id =
      (reader.dispatched.map Handled.source).map Prod.snd := by
    rw [List.map_map]
    rfl
  rw [ids]
  exact all.sublist (ordered.dispatched_prefix.sublist.map Prod.snd)

/-- An entry settled without acknowledgement is pending. -/
def LeftPending (handler : Handler α σ ε) (reader : Reader α σ) : Prop :=
  ∀ handled ∈ reader.settled, acknowledges handler handled = false →
    handled.id ∈ reader.group.pending

theorem leftPending_step {reader next : Reader α σ} {action : Action α ε}
    (taken : step handler reader action = some next) (holding : Holding reader)
    (increasing : (reader.dispatched.map Handled.id).Pairwise (· < ·))
    (left : LeftPending handler reader) : LeftPending handler next := by
  cases action with
  | append entry =>
    obtain rfl := Option.some.inj taken
    exact left
  | read =>
    obtain ⟨-, -, ⟨-, rfl⟩ | ⟨-, rfl⟩⟩ := read_cases taken
    · exact fun handled member refused => List.mem_append_left _ (left handled member refused)
    · exact left
  | dispatch choice =>
    obtain ⟨handled, rest, target, -, -, -, rfl⟩ := dispatch_cases taken
    exact left
  | settle arrives =>
    obtain ⟨handled, held, settles, outcome⟩ := settle_cases taken
    intro other member refused
    have whole : reader.dispatched = reader.settled ++ [handled] := by
      rw [dispatched, Option.mem_def.mp held, Option.toList_some]
    rw [settles.settled, whole] at member
    rcases List.mem_append.mp member with old | new
    · -- an entry settled before has a smaller number than the one in hand
      rw [whole, List.map_append, List.pairwise_append] at increasing
      have smaller := increasing.2.2 other.id (List.mem_map_of_mem old) handled.id (by simp)
      exact settles.others other.id (left other old refused) (Nat.ne_of_lt smaller)
    · obtain rfl := List.mem_singleton.mp new
      rcases outcome with ⟨acknowledged, -⟩ | ⟨-, -, same⟩
      · exact absurd (acknowledged.symm.trans refused) (by simp)
      · rw [same]
        apply holding.pending
        rw [Option.mem_def.mp held]
        simp

/-- A task that acknowledges only successes keeps the law. -/
theorem lawful_of_acks_successes (acksSuccesses : handler.acksFailures = false) {target : σ}
    {actions : List (Action α ε)} {final : Reader α σ}
    (known : ∀ id ∈ group.pending, id ≤ group.delivered) (inside : group.delivered ≤ log.length)
    (completed : Runs.run (step handler) (start log group target) actions = some final) :
    Lawful final := by
  have known' : ∀ id ∈ group.pending, id ≤ log.length :=
    fun id member => Nat.le_trans (known id member) inside
  have kept : ∀ (reader : Reader α σ) (action : Action α ε) (next : Reader α σ),
      step handler reader action = some next →
        Holding reader ∧ Ordered log group reader ∧ LeftPending handler reader →
          Holding next ∧ Ordered log group next ∧ LeftPending handler next := by
    rintro reader action next taken ⟨holding, ordered, left⟩
    exact ⟨holding_step reader action next taken holding,
      ordered_step known' inside reader action next taken ordered,
      leftPending_step taken holding (ordered.increasing known) left⟩
  obtain ⟨holding, -, left⟩ := Runs.invariant kept completed
    ⟨holding_start log group target, ordered_start target, by simp [LeftPending, start]⟩
  have recorded : Recorded handler final := Runs.invariant recorded_step completed rfl
  constructor
  · intro handled acked
    rw [recorded] at acked
    have acknowledged := (List.mem_filter.mp acked).2
    rwa [acknowledges, acksSuccesses, Bool.or_false] at acknowledged
  · intro handled member failed
    rcases List.mem_append.mp member with settled | inHand
    · apply left handled settled
      rw [acknowledges, acksSuccesses, Bool.or_false, Bool.eq_false_iff]
      exact failed
    · exact holding.pending handled.id (List.mem_append_left _ (List.mem_map_of_mem inHand))

end Order

end Reader

end StreamGroup
