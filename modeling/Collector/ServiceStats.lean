import Collector.Events
import Collector.Library.Bisect
import Mathlib.Data.List.Induction
import Mathlib.Data.List.TakeWhile
import Mathlib.Order.Monotone.Basic

/-!
# Rolling counts

`ServiceStats` keeps the times of the events of the last quarter of an hour, for each kind in a
queue of its own. A reading searches the queue for the beginning of its window; the reporting
loop drops from the front what has left the longest window. As long as the clock does not run
backwards, a reading counts every event of its window that was ever recorded, whenever the loop
came by.

Times are floating point numbers. All that is used of their subtraction is that it is monotone:
`before seconds now` is `now - seconds`.
-/

namespace Collector

variable {τ : Type} [LinearOrder τ]

def maxWindowSeconds : Nat := 900

/-- The recorded times, by kind. -/
structure ServiceStats (τ : Type) where
  timestamps : Kind → List τ

namespace ServiceStats

/-- No events yet. -/
def new : ServiceStats τ := ⟨fun _ => []⟩

/-- `record_event` -/
def recordEvent (stats : ServiceStats τ) (kind : Kind) (now : τ) : ServiceStats τ :=
  ⟨Function.update stats.timestamps kind (stats.timestamps kind ++ [now])⟩

variable (before : Nat → τ → τ)

/-- `_count_since` -/
def countSince (timestamps : List τ) (seconds : Nat) (now : τ) : Nat :=
  timestamps.length - Bisect.left timestamps (before seconds now)

/-- `_prune` -/
def prune (stats : ServiceStats τ) (now : τ) : ServiceStats τ :=
  ⟨fun kind => (stats.timestamps kind).dropWhile fun time =>
    decide (time < before maxWindowSeconds now)⟩

section Readings

variable (stats : ServiceStats τ) (now : τ)

def priceChanges1m : Nat := countSince before (stats.timestamps .priceChange) 60 now

def priceChanges5m : Nat := countSince before (stats.timestamps .priceChange) 300 now

def priceChanges15m : Nat := countSince before (stats.timestamps .priceChange) 900 now

def bookChanges1m : Nat := countSince before (stats.timestamps .book) 60 now

def bookChanges5m : Nat := countSince before (stats.timestamps .book) 300 now

def bookChanges15m : Nat := countSince before (stats.timestamps .book) 900 now

def trades1m : Nat := countSince before (stats.timestamps .lastTradePrice) 60 now

def trades5m : Nat := countSince before (stats.timestamps .lastTradePrice) 300 now

def trades15m : Nat := countSince before (stats.timestamps .lastTradePrice) 900 now

def tickChanges1m : Nat := countSince before (stats.timestamps .tickSizeChange) 60 now

def tickChanges5m : Nat := countSince before (stats.timestamps .tickSizeChange) 300 now

def tickChanges15m : Nat := countSince before (stats.timestamps .tickSizeChange) 900 now

end Readings

/-- What the report reads, with the kind and the window that each name promises. -/
def readings : List ((ServiceStats τ → τ → Nat) × Kind × Nat) :=
  [(priceChanges1m before, .priceChange, 60), (priceChanges5m before, .priceChange, 300),
    (priceChanges15m before, .priceChange, 900), (bookChanges1m before, .book, 60),
    (bookChanges5m before, .book, 300), (bookChanges15m before, .book, 900),
    (trades1m before, .lastTradePrice, 60), (trades5m before, .lastTradePrice, 300),
    (trades15m before, .lastTradePrice, 900), (tickChanges1m before, .tickSizeChange, 60),
    (tickChanges5m before, .tickSizeChange, 300), (tickChanges15m before, .tickSizeChange, 900)]

/-- An event comes, or the loop prunes. -/
inductive Action (τ : Type) where
  | recordEvent (kind : Kind) (now : τ)
  | prune (now : τ)

def Action.time : Action τ → τ
  | .recordEvent _ now => now
  | .prune now => now

def step (stats : ServiceStats τ) : Action τ → ServiceStats τ
  | .recordEvent kind now => stats.recordEvent kind now
  | .prune now => stats.prune before now

/-- The times of all events of a kind. -/
def recorded (kind : Kind) (actions : List (Action τ)) : List τ :=
  actions.filterMap fun
    | .recordEvent other now => if other = kind then some now else none
    | .prune _ => none

/-- The clock does not run backwards. -/
def Ordered (actions : List (Action τ)) : Prop := actions.Pairwise fun earlier later =>
  earlier.time ≤ later.time

/-- The later the reading, and the shorter the window, the later it begins. -/
structure Monotonic (before : Nat → τ → τ) : Prop where
  later : ∀ seconds, Monotone (before seconds)
  longer : ∀ now, Antitone fun seconds => before seconds now

/-- The queues hold the end of what was recorded; the rest had left the longest window when
something was done. -/
def Retains (actions : List (Action τ)) (stats : ServiceStats τ) : Prop :=
  ∀ kind, ∃ dropped, recorded kind actions = dropped ++ stats.timestamps kind ∧
    ∀ time ∈ dropped, ∃ action ∈ actions, time < before maxWindowSeconds action.time

section Runs

variable {before : Nat → τ → τ} {actions : List (Action τ)} {stats : ServiceStats τ}

omit [LinearOrder τ] in
theorem recorded_concat (kind : Kind) (actions : List (Action τ)) (action : Action τ) :
    recorded kind (actions ++ [action]) = recorded kind actions ++ recorded kind [action] :=
  List.filterMap_append

/-- What was recorded is in order. -/
theorem Ordered.recorded (ordered : Ordered actions) (kind : Kind) :
    (recorded kind actions).Pairwise (· ≤ ·) := by
  refine List.Pairwise.filterMap _ ?_ ordered
  intro earlier later inOrder first isFirst second isSecond
  cases earlier with
  | prune now => cases isFirst
  | recordEvent kind now =>
    cases later with
    | prune now => cases isSecond
    | recordEvent other next =>
      obtain ⟨_, same⟩ := Option.ite_none_right_eq_some.mp isFirst
      obtain ⟨_, sameNext⟩ := Option.ite_none_right_eq_some.mp isSecond
      rw [← Option.some.inj same, ← Option.some.inj sameNext]
      exact inOrder

/-- An action keeps in the queues what is in the window. -/
theorem Retains.step (retains : Retains before actions stats) (action : Action τ) :
    Retains before (actions ++ [action]) (stats.step before action) := by
  intro kind
  obtain ⟨dropped, split, old⟩ := retains kind
  have stillOld : ∀ time ∈ dropped, ∃ known ∈ actions ++ [action],
      time < before maxWindowSeconds known.time := by
    intro time member
    obtain ⟨known, isKnown, small⟩ := old time member
    exact ⟨known, List.mem_append_left _ isKnown, small⟩
  cases action with
  | recordEvent other now =>
    refine ⟨dropped, ?_, stillOld⟩
    rw [recorded_concat, split, List.append_assoc]
    by_cases same : kind = other
    · subst same
      simp [ServiceStats.step, recordEvent, ServiceStats.recorded]
    · simp [ServiceStats.step, recordEvent, ServiceStats.recorded, same, Ne.symm same]
  | prune now =>
    let isOld := fun time => decide (time < before maxWindowSeconds now)
    refine ⟨dropped ++ (stats.timestamps kind).takeWhile isOld, ?_, ?_⟩
    · have nothing : ServiceStats.recorded kind [Action.prune now] = [] := rfl
      rw [recorded_concat, nothing, List.append_nil, split, List.append_assoc]
      exact congrArg (dropped ++ ·) List.takeWhile_append_dropWhile.symm
    · intro time member
      obtain isDropped | isTaken := List.mem_append.mp member
      · exact stillOld time isDropped
      · have small : isOld time = true := List.mem_takeWhile_imp isTaken
        exact ⟨.prune now, List.mem_append_right _ List.mem_cons_self, of_decide_eq_true small⟩

theorem retains_run (before : Nat → τ → τ) (actions : List (Action τ)) :
    Retains before actions (actions.foldl (step before) .new) := by
  induction actions using List.reverseRecOn with
  | nil =>
    intro kind
    exact ⟨[], rfl, nofun⟩
  | append_singleton actions action inductionHypothesis =>
    rw [List.foldl_append]
    exact inductionHypothesis.step action

/-- Every reading searches the queue of its kind for the beginning of its window. -/
theorem readings_spec {reading : (ServiceStats τ → τ → Nat) × Kind × Nat}
    (member : reading ∈ readings before) :
    reading.1 = (fun stats => countSince before (stats.timestamps reading.2.1) reading.2.2) ∧
      reading.2.2 ≤ maxWindowSeconds := by
  simp only [readings, List.mem_cons, List.not_mem_nil, or_false] at member
  obtain rfl | rfl | rfl | rfl | rfl | rfl | rfl | rfl | rfl | rfl | rfl | rfl := member
  all_goals exact ⟨rfl, by simp [maxWindowSeconds]⟩

/-- A queue in order is searched for what the window holds. -/
theorem countSince_eq {timestamps : List τ} (sorted : timestamps.Pairwise (· ≤ ·)) (seconds : Nat)
    (now : τ) : countSince before timestamps seconds now =
      (timestamps.filter fun time => decide (before seconds now ≤ time)).length := by
  rw [← Bisect.drop_left sorted, List.length_drop, countSince]

/-- Dropping what is old from the front of a queue in order leaves what is not old. -/
theorem dropWhile_eq_filter {timestamps : List τ} (sorted : timestamps.Pairwise (· ≤ ·))
    (bound : τ) : timestamps.dropWhile (fun time => decide (time < bound)) =
      timestamps.filter fun time => decide (bound ≤ time) := by
  induction timestamps with
  | nil => rfl
  | cons first rest inductionHypothesis =>
    obtain ⟨least, others⟩ := List.pairwise_cons.mp sorted
    by_cases old : first < bound
    · rw [List.dropWhile_cons_of_pos (by simpa using old), inductionHypothesis others,
        List.filter_cons_of_neg (by simpa using old)]
    · have recent : bound ≤ first := not_lt.mp old
      rw [List.dropWhile_cons_of_neg (by simpa using recent), List.filter_eq_self.mpr]
      intro time member
      obtain rfl | later := List.mem_cons.mp member
      · exact decide_eq_true recent
      · exact decide_eq_true (recent.trans (least time later))

/-- Within the longest window nothing is missing from the queues. -/
theorem Retains.filter (retains : Retains before actions stats) (monotonic : Monotonic before)
    {now : τ} (past : ∀ action ∈ actions, action.time ≤ now) (kind : Kind) {seconds : Nat}
    (short : seconds ≤ maxWindowSeconds) :
    (recorded kind actions).filter (fun time => decide (before seconds now ≤ time)) =
      (stats.timestamps kind).filter fun time => decide (before seconds now ≤ time) := by
  obtain ⟨dropped, split, old⟩ := retains kind
  have gone : dropped.filter (fun time => decide (before seconds now ≤ time)) = [] := by
    rw [List.filter_eq_nil_iff]
    intro time member
    obtain ⟨action, isAction, small⟩ := old time member
    have begun : time < before seconds now := by
      calc time < before maxWindowSeconds action.time := small
        _ ≤ before maxWindowSeconds now := monotonic.later _ (past action isAction)
        _ ≤ before seconds now := monotonic.longer now short
    simpa using begun
  rw [split, List.filter_append, gone, List.nil_append]

/-- Whatever was recorded and whenever the loop pruned, each reading counts all events of its
kind that were recorded in its window; and a pruned queue holds the events of the longest window
and no others. -/
theorem windows_are_exact (monotonic : Monotonic before) (ordered : Ordered actions) {now : τ}
    (past : ∀ action ∈ actions, action.time ≤ now) :
    (∀ reading ∈ readings before, reading.1 (actions.foldl (step before) .new) now =
      ((recorded reading.2.1 actions).filter
        fun time => decide (before reading.2.2 now ≤ time)).length) ∧
    ∀ kind, (prune before (actions.foldl (step before) .new) now).timestamps kind =
      (recorded kind actions).filter fun time => decide (before maxWindowSeconds now ≤ time) := by
  have retains := retains_run before actions
  have sorted (kind : Kind) :
      ((actions.foldl (step before) .new).timestamps kind).Pairwise (· ≤ ·) := by
    obtain ⟨dropped, split, _⟩ := retains kind
    have whole := ordered.recorded kind
    rw [split] at whole
    exact (List.pairwise_append.mp whole).2.1
  constructor
  · intro reading member
    obtain ⟨searches, short⟩ := readings_spec member
    rw [retains.filter monotonic past _ short, searches]
    exact countSince_eq (sorted _) _ _
  · intro kind
    rw [retains.filter monotonic past _ (Nat.le_refl _)]
    exact dropWhile_eq_filter (sorted kind) _

end Runs

/-- Whole seconds. -/
def secondsBefore (seconds : Nat) (now : Int) : Int := now - seconds

theorem monotonic_secondsBefore : Monotonic secondsBefore where
  later := by
    intro seconds earlier later ordered
    exact Int.sub_le_sub_right ordered _
  longer := by
    intro now short long ordered
    exact Int.sub_le_sub_left (Int.ofNat_le.mpr ordered) _

/-- A book leaves the longest window, and two do not. -/
def sampleActions : List (Action Int) :=
  [.recordEvent .book 0, .recordEvent .book 50, .recordEvent .priceChange 100, .prune 910,
    .recordEvent .book 940]

theorem sample_windows_are_exact :
    (∀ reading ∈ readings secondsBefore,
      reading.1 (sampleActions.foldl (step secondsBefore) .new) 945 =
        ((recorded reading.2.1 sampleActions).filter
          fun time => decide (secondsBefore reading.2.2 945 ≤ time)).length) ∧
    ∀ kind, (prune secondsBefore (sampleActions.foldl (step secondsBefore) .new) 945).timestamps
        kind = (recorded kind sampleActions).filter
          fun time => decide (secondsBefore maxWindowSeconds 945 ≤ time) := by
  refine windows_are_exact monotonic_secondsBefore ?_ ?_
  · simp [sampleActions, Ordered, Action.time]
  · simp [sampleActions, Action.time]

end ServiceStats

end Collector
