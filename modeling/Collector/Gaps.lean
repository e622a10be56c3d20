import Collector.Exporter

/-!
# Empty hours in the steady loop

`run_loop` moves its cursor only past an uploaded hour. An hour without rows ends
the inner loop of every tick, is polled again on the next one, and so holds back
each later hour, with rows or without, for as long as it stays empty.

Rows are a fixed assignment to the hours here, and no fetch or upload fails. What
has been uploaded is then known from the assignment alone, however the ticks fall.
-/

namespace Collector.Exporter

/-- An export of the hour has found rows and uploaded them. -/
def Archive.Uploaded (archive : Archive) (hour : Int) : Prop :=
  ∃ made ∈ archive.exports, made.hour = hour ∧ made.reply.answer = .uploaded

/-- No fetch or upload fails: an hour is uploaded when it has rows and skipped
when it has none. -/
def Served (hasRows : Int → Bool) (replies : Int → Reply) : Prop :=
  ∀ hour, (replies hour).answer = if hasRows hour then .uploaded else .noRows

/-- The tick is at or past the delay. -/
def Tick.Exports (settings : Settings) (reading : Tick) : Prop :=
  settings.exportDelayMinutes ≤ minute reading.now

/-- All hours from one to another have rows. -/
def Unbroken (hasRows : Int → Bool) (first last : Int) : Prop :=
  ∀ hour, first ≤ hour → hour ≤ last → hasRows hour = true

section Exports

variable {settings : Settings} {hasRows : Int → Bool} {replies : Int → Reply}

/-- An export of an hour with rows uploads that hour. -/
theorem uploaded_exportHour (served : Served hasRows replies) (archive : Archive)
    {next : Int} (rows : hasRows next = true) (hour : Int) :
    (exportHour settings replies archive next).Uploaded hour ↔
      archive.Uploaded hour ∨ hour = next := by
  have answer : (replies next).answer = .uploaded := by rw [served, if_pos rows]
  constructor
  · rintro ⟨made, member, rfl, uploaded⟩
    rcases List.mem_append.mp member with before | now
    · exact Or.inl ⟨made, before, rfl, uploaded⟩
    · rw [List.mem_singleton.mp now]
      exact Or.inr rfl
  · rintro (⟨made, member, same, uploaded⟩ | rfl)
    · exact ⟨made, List.mem_append_left _ member, same, uploaded⟩
    · exact ⟨⟨hour, replies hour⟩, List.mem_append_right _ (List.mem_singleton_self _), rfl, answer⟩

/-- An export of an hour without rows uploads nothing. -/
theorem uploaded_exportHour_empty (served : Served hasRows replies) (archive : Archive)
    {next : Int} (empty : hasRows next = false) (hour : Int) :
    (exportHour settings replies archive next).Uploaded hour ↔ archive.Uploaded hour := by
  have answer : (replies next).answer = .noRows := by
    rw [served, empty]
    rfl
  constructor
  · rintro ⟨made, member, rfl, uploaded⟩
    rcases List.mem_append.mp member with before | now
    · exact ⟨made, before, rfl, uploaded⟩
    · rw [List.mem_singleton.mp now, answer] at uploaded
      cases uploaded
  · rintro ⟨made, member, same, uploaded⟩
    exact ⟨made, List.mem_append_left _ member, same, uploaded⟩

/-- What the inner loop of one tick does: it uploads from the cursor on until the
boundary or an empty hour, and leaves the cursor there. -/
structure Advanced (hasRows : Int → Bool) (latest next : Int) (archive : Archive)
    (result : Int × Archive) : Prop where
  forward : next ≤ result.1
  rows : ∀ hour, next ≤ hour → hour < result.1 → hasRows hour = true
  halted : latest < result.1 ∨ hasRows result.1 = false
  uploaded : ∀ hour, result.2.Uploaded hour ↔
    archive.Uploaded hour ∨ next ≤ hour ∧ hour < result.1

theorem exportThrough_advanced (settings : Settings) (served : Served hasRows replies) (latest next : Int)
    (archive : Archive) :
    Advanced hasRows latest next archive
      (exportThrough settings replies latest next archive) := by
  induction next, archive using exportThrough.induct settings replies latest with
  | case1 next archive inside answer inductionHypothesis =>
    have rows : hasRows next = true := by
      by_contra empty
      rw [served, if_neg empty] at answer
      cases answer
    rw [exportThrough, if_pos inside]
    simp only [answer]
    refine ⟨by have := inductionHypothesis.forward; omega, ?_, inductionHypothesis.halted, ?_⟩
    · intro hour after before
      by_cases same : hour = next
      · rw [same]
        exact rows
      · exact inductionHypothesis.rows hour (by omega) before
    · intro hour
      have moved := inductionHypothesis.forward
      rw [inductionHypothesis.uploaded, uploaded_exportHour served archive rows]
      constructor
      · rintro ((before | rfl) | ⟨after, upTo⟩)
        · exact Or.inl before
        · exact Or.inr ⟨by omega, by omega⟩
        · exact Or.inr ⟨by omega, upTo⟩
      · rintro (before | ⟨after, upTo⟩)
        · exact Or.inl (Or.inl before)
        · by_cases same : hour = next
          · exact Or.inl (Or.inr same)
          · exact Or.inr ⟨by omega, upTo⟩
  | case2 next archive inside answer =>
    have empty : hasRows next = false := by
      by_contra rows
      rw [served, if_pos (Bool.eq_true_of_not_eq_false rows)] at answer
      cases answer
    rw [exportThrough, if_pos inside]
    simp only [answer]
    refine ⟨Int.le_refl _, by intros; omega, Or.inr empty, ?_⟩
    intro hour
    rw [uploaded_exportHour_empty served archive empty]
    constructor
    · exact Or.inl
    · rintro (before | impossible)
      · exact before
      · omega
  | case3 next archive inside answer =>
    rw [served] at answer
    split at answer <;> cases answer
  | case4 next archive outside =>
    rw [exportThrough, if_neg outside]
    refine ⟨Int.le_refl _, by intros; omega, Or.inl (by omega), ?_⟩
    intro hour
    constructor
    · exact Or.inl
    · rintro (before | impossible)
      · exact before
      · omega

end Exports

/-- Where the loop stands: the hours from the first one to before the cursor all
have rows, and they are the uploaded ones. -/
structure Standing (hasRows : Int → Bool) (first : Int) (state : Int × Archive) : Prop where
  forward : first ≤ state.1
  rows : ∀ hour, first ≤ hour → hour < state.1 → hasRows hour = true
  uploaded : ∀ hour, state.2.Uploaded hour ↔ first ≤ hour ∧ hour < state.1

section Ticks

variable {settings : Settings} {hasRows : Int → Bool} {first : Int} {state : Int × Archive}
  {reading : Tick}

/-- One iteration keeps where the loop stands. -/
theorem Standing.tick (standing : Standing hasRows first state)
    (served : reading.Exports settings → Served hasRows reading.replies) :
    Standing hasRows first (tick settings state reading) := by
  unfold Exporter.tick
  split
  · exact standing
  · next late =>
    have advanced := exportThrough_advanced settings (served (Int.not_lt.mp late))
      (latestExportableHour settings reading.latestRead) state.1 state.2
    have forward := standing.forward
    have moved := advanced.forward
    refine ⟨Int.le_trans forward moved, ?_, ?_⟩
    · intro hour after before
      by_cases passed : hour < state.1
      · exact standing.rows hour after passed
      · exact advanced.rows hour (Int.not_lt.mp passed) before
    · intro hour
      rw [advanced.uploaded, standing.uploaded]
      constructor
      · rintro (⟨after, before⟩ | ⟨after, before⟩)
        · exact ⟨after, Int.lt_of_lt_of_le before moved⟩
        · exact ⟨Int.le_trans forward after, before⟩
      · rintro ⟨after, before⟩
        by_cases passed : hour < state.1
        · exact Or.inl ⟨after, passed⟩
        · exact Or.inr ⟨Int.not_lt.mp passed, before⟩

/-- An iteration at or past the delay leaves the cursor beyond the boundary or at
an empty hour. -/
theorem tick_halted (exports : reading.Exports settings)
    (served : Served hasRows reading.replies) :
    latestExportableHour settings reading.latestRead < (tick settings state reading).1 ∨
      hasRows (tick settings state reading).1 = false := by
  unfold tick
  rw [if_neg (Int.not_lt.mpr exports)]
  exact (exportThrough_advanced settings served _ state.1 state.2).halted

/-- The iterations keep where the loop stands. -/
theorem Standing.foldl (ticks : List Tick) (standing : Standing hasRows first state)
    (served : ∀ reading ∈ ticks, reading.Exports settings → Served hasRows reading.replies) :
    Standing hasRows first (ticks.foldl (Exporter.tick settings) state) := by
  induction ticks generalizing state with
  | nil => exact standing
  | cons reading rest inductionHypothesis =>
    apply inductionHypothesis (standing.tick (served reading List.mem_cons_self))
    exact fun later member => served later (List.mem_cons_of_mem reading member)

/-- Of the hours up to a boundary that the cursor was let go to, the uploaded
ones are those with no empty hour from the first one to them. -/
theorem Standing.uploaded_iff (standing : Standing hasRows first state) {latest hour : Int}
    (halted : latest < state.1 ∨ hasRows state.1 = false) (after : first ≤ hour)
    (upTo : hour ≤ latest) : state.2.Uploaded hour ↔ Unbroken hasRows first hour := by
  rw [standing.uploaded]
  constructor
  · rintro ⟨_, before⟩ other later earlier
    exact standing.rows other later (by omega)
  · intro unbroken
    refine ⟨after, ?_⟩
    rcases halted with beyond | empty
    · omega
    · by_contra behind
      have rows := unbroken state.1 standing.forward (Int.not_lt.mp behind)
      rw [empty] at rows
      cases rows

end Ticks

/-- An uploaded hour's key is in the bucket. -/
def Archive.Stored (settings : Settings) (archive : Archive) : Prop :=
  ∀ hour, archive.Uploaded hour → hourToFilename settings hour ∈ archive.bucket

/-- Each export keeps the uploaded keys in the bucket, whatever it is answered. -/
theorem Archive.Stored.exportHour {settings : Settings} {archive : Archive}
    (stored : archive.Stored settings) (replies : Int → Reply) (next : Int) :
    (exportHour settings replies archive next).Stored settings := by
  have kept : archive.bucket ⊆ (Exporter.exportHour settings replies archive next).bucket := by
    unfold Exporter.exportHour
    cases (replies next).answer with
    | uploaded => exact Finset.subset_insert _ _
    | noRows => exact Finset.Subset.refl _
    | raised => exact Finset.Subset.refl _
  rintro hour ⟨made, member, rfl, uploaded⟩
  rcases List.mem_append.mp member with before | now
  · exact kept (stored made.hour ⟨made, before, rfl, uploaded⟩)
  · rw [List.mem_singleton.mp now] at uploaded ⊢
    unfold Exporter.exportHour
    simp only at uploaded ⊢
    rw [uploaded]
    exact Finset.mem_insert_self _ _

theorem Archive.Stored.exportThrough {settings : Settings} {replies : Int → Reply}
    {latest next : Int} {archive : Archive} (stored : archive.Stored settings) :
    (exportThrough settings replies latest next archive).2.Stored settings := by
  induction next, archive using exportThrough.induct settings replies latest with
  | case1 next archive inside answer inductionHypothesis =>
    rw [Exporter.exportThrough, if_pos inside]
    simp only [answer]
    exact inductionHypothesis (stored.exportHour replies next)
  | case2 next archive inside answer =>
    rw [Exporter.exportThrough, if_pos inside]
    simp only [answer]
    exact stored.exportHour replies next
  | case3 next archive inside answer =>
    rw [Exporter.exportThrough, if_pos inside]
    simp only [answer]
    exact stored.exportHour replies next
  | case4 next archive outside =>
    rw [Exporter.exportThrough, if_neg outside]
    exact stored

theorem Archive.Stored.foldl {settings : Settings} (ticks : List Tick) {state : Int × Archive}
    (stored : state.2.Stored settings) :
    (ticks.foldl (tick settings) state).2.Stored settings := by
  induction ticks generalizing state with
  | nil => exact stored
  | cons reading rest inductionHypothesis =>
    apply inductionHypothesis
    unfold tick
    split
    · exact stored
    · exact stored.exportThrough

/-- However many iterations there have been, the loop stands somewhere after its
starting hour. -/
theorem runLoop_standing {settings : Settings} {hasRows : Int → Bool} {ticks : List Tick}
    (started : Int) (bucket : Finset String)
    (served : ∀ reading ∈ ticks, reading.Exports settings → Served hasRows reading.replies) :
    Standing hasRows (latestExportableHour settings started + 1)
      (runLoop settings started ticks ⟨bucket, []⟩) := by
  refine Standing.foldl ticks ⟨Int.le_refl _, by intros; omega, ?_⟩ served
  intro hour
  constructor
  · rintro ⟨made, member, _⟩
    exact absurd member List.not_mem_nil
  · omega

/-- After a tick at or past the delay, the uploaded hours up to its boundary are
exactly those that no empty hour precedes, from the hour the loop started with.
No hour without rows is uploaded at any time. -/
theorem uploaded_iff_unbroken (settings : Settings) (started : Int) (bucket : Finset String)
    (hasRows : Int → Bool) (ticks : List Tick) (reading : Tick)
    (served : ∀ other ∈ ticks ++ [reading], other.Exports settings →
      Served hasRows other.replies)
    (exports : reading.Exports settings) :
    (∀ hour, latestExportableHour settings started < hour →
      hour ≤ latestExportableHour settings reading.latestRead →
      ((runLoop settings started (ticks ++ [reading]) ⟨bucket, []⟩).2.Uploaded hour ↔
        Unbroken hasRows (latestExportableHour settings started + 1) hour)) ∧
    ∀ hour, (runLoop settings started (ticks ++ [reading]) ⟨bucket, []⟩).2.Uploaded hour →
      hasRows hour = true ∧ hourToFilename settings hour ∈
        (runLoop settings started (ticks ++ [reading]) ⟨bucket, []⟩).2.bucket := by
  have standing := runLoop_standing started bucket served
  have halted : latestExportableHour settings reading.latestRead <
      (runLoop settings started (ticks ++ [reading]) ⟨bucket, []⟩).1 ∨
      hasRows (runLoop settings started (ticks ++ [reading]) ⟨bucket, []⟩).1 = false := by
    rw [runLoop, List.foldl_append]
    exact tick_halted exports
      (served reading (List.mem_append_right _ (List.mem_singleton_self _)) exports)
  refine ⟨?_, ?_⟩
  · intro hour after upTo
    exact standing.uploaded_iff halted (by omega) upTo
  · intro hour uploaded
    obtain ⟨after, before⟩ := (standing.uploaded hour).mp uploaded
    refine ⟨standing.rows hour after before, ?_⟩
    apply Archive.Stored.foldl (ticks ++ [reading]) _ hour uploaded
    rintro other ⟨made, member, _⟩
    exact absurd member List.not_mem_nil

/-- Rows in every hour but one. -/
def outageHour (hour : Int) : Bool := hour != 10

/-- A tick at an instant, which finds the outage hour empty. -/
def outageTick (now : Int) : Tick where
  now := now
  latestRead := now
  replies := fun hour => ⟨if outageHour hour then .uploaded else .noRows, now⟩

theorem outageTick_served (now : Int) : Served outageHour (outageTick now).replies :=
  fun _ => rfl

/-- A loop started at 09:30 has uploaded the hour 9 at 13:10 and not the hour 11. -/
theorem outage_is_reached :
    (runLoop defaultSettings 34200000000 [outageTick 43800000000, outageTick 47400000000]
      ⟨∅, []⟩).2.Uploaded 9 ∧
    ¬ (runLoop defaultSettings 34200000000 [outageTick 43800000000, outageTick 47400000000]
      ⟨∅, []⟩).2.Uploaded 11 := by
  have served : ∀ other ∈ [outageTick 43800000000] ++ [outageTick 47400000000],
      other.Exports defaultSettings → Served outageHour other.replies := by
    intro other member _
    rcases List.mem_cons.mp member with rfl | last
    · exact outageTick_served _
    · rw [List.mem_singleton.mp last]
      exact outageTick_served _
  obtain ⟨uploadedIff, _⟩ := uploaded_iff_unbroken defaultSettings 34200000000 ∅ outageHour
    [outageTick 43800000000] (outageTick 47400000000) served (by unfold Tick.Exports; decide)
  refine ⟨(uploadedIff 9 (by decide) (by decide)).mpr ?_, ?_⟩
  · intro hour after upTo
    obtain rfl : hour = 9 := by
      have first : latestExportableHour defaultSettings 34200000000 = 8 := by decide
      omega
    rfl
  · intro uploaded
    have rows := (uploadedIff 11 (by decide) (by decide)).mp uploaded 10 (by decide) (by decide)
    exact absurd rows (by decide)

/-- A loop started at 10:30 begins with the empty hour. At 13:10 the hour 11 has
rows and is exportable, both ticks were past the delay and nothing has failed,
and it is not uploaded. -/
theorem outage_holds_the_archive :
    (∀ reading ∈ [outageTick 43800000000, outageTick 47400000000],
      reading.Exports defaultSettings ∧ Served outageHour reading.replies) ∧
    ¬ ∀ hour, latestExportableHour defaultSettings 37800000000 < hour →
      hour ≤ latestExportableHour defaultSettings (outageTick 47400000000).latestRead →
      outageHour hour = true →
      (runLoop defaultSettings 37800000000 [outageTick 43800000000, outageTick 47400000000]
        ⟨∅, []⟩).2.Uploaded hour := by
  have past : ∀ reading ∈ [outageTick 43800000000, outageTick 47400000000],
      reading.Exports defaultSettings ∧ Served outageHour reading.replies := by
    intro reading member
    rcases List.mem_cons.mp member with rfl | last
    · exact ⟨by unfold Tick.Exports; decide, outageTick_served _⟩
    · rw [List.mem_singleton.mp last]
      exact ⟨by unfold Tick.Exports; decide, outageTick_served _⟩
  refine ⟨past, ?_⟩
  intro uploaded
  have standing : Standing outageHour (latestExportableHour defaultSettings 37800000000 + 1)
      (runLoop defaultSettings 37800000000 [outageTick 43800000000, outageTick 47400000000]
        ⟨∅, []⟩) :=
    runLoop_standing 37800000000 ∅ (fun reading member _ => (past reading member).2)
  obtain ⟨_, passed⟩ := (standing.uploaded 11).mp
    (uploaded 11 (by decide) (by decide) (by decide))
  exact absurd (standing.rows 10 (by decide) (by omega)) (by decide)

end Collector.Exporter
