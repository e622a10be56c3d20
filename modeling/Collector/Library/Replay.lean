import Mathlib.Data.Finset.SDiff
import Mathlib.Data.Finset.Dedup

/-!
# Sets kept by logs of changes

Two parties that hold the same set exchange the changes to it: elements added
and elements taken out. Whoever replays the log of changes over the same
starting set holds the same set. An element is in the replayed set or not
according to the last change that mentions it, so two replays agree on it as soon
as one change mentions it, wherever they started.
-/

namespace Replay

universe u
variable {α : Type u}

/-- A change to a set. -/
inductive Delta (α : Type u) where
  | add (elements : List α)
  | remove (elements : List α)

/-- The elements a change decides about. -/
def Delta.elements : Delta α → List α
  | .add elements => elements
  | .remove elements => elements

variable [DecidableEq α]

/-- The set after a change. -/
def Delta.apply (held : Finset α) : Delta α → Finset α
  | .add elements => held ∪ elements.toFinset
  | .remove elements => held \ elements.toFinset

/-- The set after a log of changes. -/
def replay (held : Finset α) (log : List (Delta α)) : Finset α := log.foldl Delta.apply held

@[simp]
theorem replay_nil (held : Finset α) : replay held [] = held := rfl

@[simp]
theorem replay_cons (held : Finset α) (delta : Delta α) (log : List (Delta α)) :
    replay held (delta :: log) = replay (delta.apply held) log := rfl

/-- Replaying a longer log goes on from what the shorter one left. -/
@[simp]
theorem replay_append (held : Finset α) (log later : List (Delta α)) :
    replay held (log ++ later) = replay (replay held log) later :=
  List.foldl_append

/-- Whether an element is held after a change depends on whether it was before. -/
theorem Delta.mem_apply_congr {held other : Finset α} {element : α}
    (same : element ∈ held ↔ element ∈ other) (delta : Delta α) :
    element ∈ delta.apply held ↔ element ∈ delta.apply other := by
  cases delta with
  | add elements => simp only [Delta.apply, Finset.mem_union, same]
  | remove elements => simp only [Delta.apply, Finset.mem_sdiff, same]

/-- A change decides about the elements it mentions. -/
theorem Delta.mem_apply_of_mentioned {delta : Delta α} {element : α}
    (mentioned : element ∈ delta.elements) (held other : Finset α) :
    element ∈ delta.apply held ↔ element ∈ delta.apply other := by
  rw [← List.mem_toFinset] at mentioned
  cases delta with
  | add elements =>
    have added : element ∈ elements.toFinset := mentioned
    simp only [Delta.apply, Finset.mem_union, added, or_true]
  | remove elements =>
    have removed : element ∈ elements.toFinset := mentioned
    simp only [Delta.apply, Finset.mem_sdiff, removed, not_true, and_false]

/-- A change leaves the elements alone that it does not mention. -/
theorem Delta.mem_apply_of_silent {delta : Delta α} {element : α}
    (silent : element ∉ delta.elements) (held : Finset α) :
    element ∈ delta.apply held ↔ element ∈ held := by
  rw [← List.mem_toFinset] at silent
  cases delta with
  | add elements =>
    have absent : element ∉ elements.toFinset := silent
    simp only [Delta.apply, Finset.mem_union, absent, or_false]
  | remove elements =>
    have absent : element ∉ elements.toFinset := silent
    simp only [Delta.apply, Finset.mem_sdiff, absent, not_false_iff, and_true]

/-- Replays agree on what their starting sets agree on. -/
theorem mem_replay_congr {held other : Finset α} {element : α}
    (same : element ∈ held ↔ element ∈ other) (log : List (Delta α)) :
    element ∈ replay held log ↔ element ∈ replay other log := by
  induction log generalizing held other with
  | nil => exact same
  | cons delta rest inductionHypothesis =>
    exact inductionHypothesis (delta.mem_apply_congr same)

/-- A log that does not mention an element leaves it alone. -/
theorem mem_replay_of_silent {log : List (Delta α)} {element : α}
    (silent : ∀ delta ∈ log, element ∉ delta.elements) (held : Finset α) :
    element ∈ replay held log ↔ element ∈ held := by
  induction log generalizing held with
  | nil => exact Iff.rfl
  | cons delta rest inductionHypothesis =>
    have later := inductionHypothesis
      (fun other member => silent other (List.mem_cons_of_mem delta member)) (delta.apply held)
    exact later.trans (delta.mem_apply_of_silent (silent delta List.mem_cons_self) held)

/-- Once a log mentions an element, where the replay started is irrelevant. -/
theorem mem_replay_of_mentioned {log : List (Delta α)} {element : α}
    (mentioned : ∃ delta ∈ log, element ∈ delta.elements) (held other : Finset α) :
    element ∈ replay held log ↔ element ∈ replay other log := by
  obtain ⟨delta, member, inDelta⟩ := mentioned
  obtain ⟨before, after, rfl⟩ := List.append_of_mem member
  rw [replay_append, replay_append, replay_cons, replay_cons]
  apply mem_replay_congr
  exact delta.mem_apply_of_mentioned inDelta _ _

/-- Replays agree on an element if their starting sets do wherever the log is silent
about it. -/
theorem mem_replay_of_agree {log : List (Delta α)} {held other : Finset α} {element : α}
    (agree : (∀ delta ∈ log, element ∉ delta.elements) → (element ∈ held ↔ element ∈ other)) :
    element ∈ replay held log ↔ element ∈ replay other log := by
  by_cases mentioned : ∃ delta ∈ log, element ∈ delta.elements
  · exact mem_replay_of_mentioned mentioned held other
  · apply mem_replay_congr
    apply agree
    intro delta member inDelta
    exact mentioned ⟨delta, member, inDelta⟩

/-- Replays agree just when their starting sets do wherever the log is silent. -/
theorem replay_agree_iff (held other : Finset α) (log : List (Delta α)) :
    (∀ element, element ∈ replay held log ↔ element ∈ replay other log) ↔
      ∀ element, (∀ delta ∈ log, element ∉ delta.elements) → (element ∈ held ↔ element ∈ other) := by
  constructor
  · intro agree element silent
    rw [← mem_replay_of_silent silent held, ← mem_replay_of_silent silent other]
    exact agree element
  · intro agree element
    exact mem_replay_of_agree (agree element)

/-- Adding what is held changes nothing. -/
theorem Delta.apply_add_of_subset {held : Finset α} {elements : List α}
    (known : elements.toFinset ⊆ held) : (Delta.add elements).apply held = held :=
  Finset.union_eq_left.mpr known

end Replay
