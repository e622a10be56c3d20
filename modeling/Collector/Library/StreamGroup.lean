import Mathlib.Data.List.Basic

/-!
# A log read through a consumer group

Entries are appended to a log and numbered from one. A group remembers up to
which number it has delivered entries, and which delivered entries have not been
acknowledged. A consumer asks for entries never delivered, or again for
delivered entries that are still unacknowledged, in both cases in the order of
their numbers and for a limited count.

A consumer that acknowledges its entries one by one in order keeps the
unacknowledged ones contiguous: they are those after the last acknowledged one.
-/

namespace StreamGroup

universe u
variable {α : Type u}

/-- The number of the last delivered entry, and the delivered entries that are
not acknowledged. -/
structure Group where
  delivered : Nat
  pending : List Nat
deriving DecidableEq

/-- The entries of a log with their numbers. -/
def entries (log : List α) : List (α × Nat) := log.zipIdx 1

/-- Read entries that were never delivered, which delivers them. -/
def Group.readNew (group : Group) (log : List α) (count : Nat) : List (α × Nat) × Group :=
  let batch := ((entries log).drop group.delivered).take count
  (batch, ⟨group.delivered + batch.length, group.pending ++ batch.map Prod.snd⟩)

/-- Read unacknowledged entries with larger numbers. -/
def Group.readPending (group : Group) (log : List α) (after count : Nat) : List (α × Nat) :=
  ((entries log).filter fun entry => entry.2 ∈ group.pending ∧ after < entry.2).take count

/-- Acknowledge one entry. -/
def Group.ack (group : Group) (id : Nat) : Group :=
  { group with pending := group.pending.filter fun other => other ≠ id }

/-- An entry that is not acknowledged, delivered or not. -/
def Group.Unacked (group : Group) (id : Nat) : Prop := id ∈ group.pending ∨ group.delivered < id

/-- Everything in the log is delivered and acknowledged. -/
def Group.Drained (group : Group) (log : List α) : Prop :=
  group.delivered = log.length ∧ group.pending = []

instance (group : Group) (log : List α) : Decidable (group.Drained log) :=
  inferInstanceAs (Decidable (_ ∧ _))

/-- The unacknowledged entries are those after the last acknowledged one. -/
structure Group.Contiguous (group : Group) (log : List α) (acked : Nat) : Prop where
  pending_iff : ∀ id, id ∈ group.pending ↔ acked < id ∧ id ≤ group.delivered
  acked_le : acked ≤ group.delivered
  delivered_le : group.delivered ≤ log.length

@[simp]
theorem length_entries (log : List α) : (entries log).length = log.length :=
  List.length_zipIdx

/-- Entries keep their numbers when the log grows. -/
theorem entries_append (log more : List α) :
    entries (log ++ more) = entries log ++ more.zipIdx (1 + log.length) :=
  List.zipIdx_append

/-- A number is its position counted from one. -/
theorem getElem?_entries (log : List α) (position : Nat) :
    (entries log)[position]? = log[position]?.map fun entry => (entry, position + 1) := by
  rw [entries, List.getElem?_zipIdx, Nat.add_comm 1 position]

/-- A batch that begins at a position holds the entry there under its number and
goes on at the next position. -/
theorem prefix_cons {log : List α} {position id : Nat} {entry : α} {rest : List (α × Nat)}
    (batch : (entry, id) :: rest <+: (entries log).drop position) :
    id = position + 1 ∧ log.drop position = entry :: log.drop (position + 1) ∧
      rest <+: (entries log).drop (position + 1) := by
  obtain ⟨tail, whole⟩ := batch
  have here : (entries log)[position]? = some (entry, id) := by
    have first := congrArg (fun list => list[0]?) whole.symm
    simpa [List.getElem?_drop] using first
  rw [getElem?_entries, Option.map_eq_some_iff] at here
  obtain ⟨found, present, same⟩ := here
  obtain ⟨rfl, rfl⟩ := Prod.mk.inj same
  refine ⟨rfl, List.drop_eq_getElem?_toList_append.trans ?_, tail, ?_⟩
  · rw [present]
    rfl
  · rw [← List.drop_drop, ← whole]
    rfl

/-- A batch stays one when the log grows. -/
theorem prefix_append {log : List α} {position : Nat} {batch : List (α × Nat)}
    (inside : position ≤ log.length) (isBatch : batch <+: (entries log).drop position)
    (more : List α) : batch <+: (entries (log ++ more)).drop position := by
  rw [entries_append, List.drop_append_of_le_length (by rw [length_entries]; exact inside)]
  exact isBatch.trans (List.prefix_append _ _)

/-- The entries with numbers in a window are the segment between its ends. -/
theorem filter_window (log : List α) (start acked delivered : Nat) :
    (log.zipIdx start).filter (fun entry => acked < entry.2 ∧ entry.2 ≤ delivered) =
      ((log.zipIdx start).take (delivered + 1 - start)).drop (acked + 1 - start) := by
  induction log generalizing start with
  | nil => simp
  | cons entry rest inductionHypothesis =>
    rw [List.zipIdx_cons, List.filter_cons, inductionHypothesis]
    by_cases beyond : delivered < start
    · have none : delivered + 1 - start = 0 := by omega
      have later : delivered + 1 - (start + 1) = 0 := by omega
      simp [none, later, beyond]
    · have more : delivered + 1 - start = (delivered + 1 - (start + 1)) + 1 := by omega
      rw [more, List.take_succ_cons]
      by_cases known : start ≤ acked
      · have skipped : acked + 1 - start = (acked + 1 - (start + 1)) + 1 := by omega
        rw [skipped, List.drop_succ_cons, if_neg]
        simp
        omega
      · have first : acked + 1 - start = 0 := by omega
        have next : acked + 1 - (start + 1) = 0 := by omega
        rw [first, next, List.drop_zero, List.drop_zero, if_pos]
        simp
        omega

/-- The numbers of a segment of the log. -/
theorem mem_ids_segment (log : List α) (position count id : Nat) :
    id ∈ (((entries log).drop position).take count).map Prod.snd ↔
      position < id ∧ id ≤ position + min count (log.length - position) := by
  rw [List.map_take, List.map_drop, entries, List.zipIdx_map_snd, List.drop_range']
  rcases Nat.le_total count (log.length - position) with few | many
  · rw [List.take_range'_of_length_ge few, List.mem_range'_1]
    omega
  · rw [List.take_range'_of_length_le many, List.mem_range'_1]
    omega

namespace Group

variable {group : Group} {log : List α} {acked : Nat}

/-- A longer log changes nothing about what was delivered. -/
theorem Contiguous.append (contiguous : group.Contiguous log acked) (more : List α) :
    group.Contiguous (log ++ more) acked where
  pending_iff := contiguous.pending_iff
  acked_le := contiguous.acked_le
  delivered_le := by
    rw [List.length_append]
    exact Nat.le_add_right_of_le contiguous.delivered_le

/-- The entries after the last acknowledged one are those not acknowledged. -/
theorem Contiguous.mem_drop (contiguous : group.Contiguous log acked) (entry : α) :
    entry ∈ log.drop acked ↔ ∃ id, (entry, id) ∈ entries log ∧ group.Unacked id := by
  have bounded := contiguous.acked_le
  constructor
  · intro member
    obtain ⟨offset, found⟩ := List.mem_iff_getElem?.mp member
    rw [List.getElem?_drop] at found
    refine ⟨acked + offset + 1, ?_, ?_⟩
    · apply List.mem_of_getElem?
      rw [getElem?_entries, found]
      rfl
    · rw [Group.Unacked, contiguous.pending_iff]
      omega
  · rintro ⟨id, member, unacked⟩
    obtain ⟨position, found⟩ := List.mem_iff_getElem?.mp member
    rw [getElem?_entries, Option.map_eq_some_iff] at found
    obtain ⟨_, present, same⟩ := found
    obtain ⟨rfl, rfl⟩ := Prod.mk.inj same
    rw [Group.Unacked, contiguous.pending_iff] at unacked
    apply List.mem_iff_getElem?.mpr
    refine ⟨position - acked, ?_⟩
    rw [List.getElem?_drop, Nat.add_sub_cancel' (by omega)]
    exact present

/-- Newly delivered entries follow the ones delivered before. -/
theorem Contiguous.readNew (contiguous : group.Contiguous log acked) (count : Nat) :
    (group.readNew log count).2.Contiguous log acked := by
  have length : (((entries log).drop group.delivered).take count).length =
      min count (log.length - group.delivered) := by
    rw [List.length_take, List.length_drop, length_entries]
  have bounded := contiguous.delivered_le
  have before := contiguous.acked_le
  constructor
  · intro id
    simp only [Group.readNew, List.mem_append, contiguous.pending_iff, mem_ids_segment, length]
    omega
  · simp only [Group.readNew]
    omega
  · simp only [Group.readNew, length]
    omega

/-- Reading again from the last acknowledged entry, or before it, gives the
unacknowledged entries from the first one on. -/
theorem Contiguous.readPending (contiguous : group.Contiguous log acked) {after : Nat}
    (behind : after ≤ acked) (count : Nat) :
    group.readPending log after count =
      (((entries log).drop acked).take (group.delivered - acked)).take count := by
  have same : ((entries log).filter fun entry => entry.2 ∈ group.pending ∧ after < entry.2) =
      (entries log).filter fun entry => acked < entry.2 ∧ entry.2 ≤ group.delivered := by
    apply List.filter_congr
    intro entry _
    rw [decide_eq_decide, contiguous.pending_iff]
    omega
  rw [Group.readPending, same, entries, filter_window, Nat.add_sub_cancel, Nat.add_sub_cancel,
    List.drop_take]

/-- Acknowledging the first unacknowledged entry leaves the ones after it. -/
theorem Contiguous.ack (contiguous : group.Contiguous log acked)
    (unacked : acked + 1 ≤ group.delivered) :
    (group.ack (acked + 1)).Contiguous log (acked + 1) where
  pending_iff := by
    intro id
    simp only [Group.ack, List.mem_filter, contiguous.pending_iff, decide_eq_true_eq]
    omega
  acked_le := unacked
  delivered_le := contiguous.delivered_le

/-- A drained group has acknowledged the whole log. -/
theorem Contiguous.drained (contiguous : group.Contiguous log acked)
    (drained : group.Drained log) : acked = log.length := by
  have before := contiguous.acked_le
  have none : ¬ (acked < group.delivered ∧ group.delivered ≤ group.delivered) := by
    rw [← contiguous.pending_iff, drained.2]
    exact List.not_mem_nil
  have whole := drained.1
  omega

end Group

end StreamGroup
