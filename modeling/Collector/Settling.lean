import Collector.Exporter

/-!
# When an hour has settled

Rows of an hour may still be flushed for some minutes after its end. The steady
loop therefore waits in the first `EXPORT_DELAY_MINUTES` of each hour, but it
looks at the minute of one clock reading and takes the boundary from another,
later one; the backfill does not look at the minute at all. An upload is early
when it finishes before the delay after its hour has passed.

How long the exports take is left open, so a boundary is safe only when the hours
it releases have settled at the reading it comes from.
-/

namespace Collector.Exporter

/-- The instant from which an hour counts as settled. -/
def settledAt (settings : Settings) (hour : Int) : Int :=
  (hour + 1) * 3600000000 + settings.exportDelayMinutes * 60000000

/-- No upload finished before its hour had settled. -/
def Archive.Settled (settings : Settings) (archive : Archive) : Prop :=
  ∀ made ∈ archive.exports, made.reply.answer = .uploaded →
    settledAt settings made.hour ≤ made.reply.finished

/-- An earlier hour settles earlier. -/
theorem settledAt_mono (settings : Settings) {hour later : Int} (ordered : hour ≤ later) :
    settledAt settings hour ≤ settledAt settings later := by
  unfold settledAt
  omega

/-- The clock readings of one start of the exporter: one of the backfill, one of
`run_loop` when it starts, and two in each of its iterations. -/
structure Readings where
  backfillRead : Int
  loopRead : Int
  ticks : Nat → Int × Int

/-- A start with these readings and some replies. -/
def Readings.timeline (readings : Readings) (backfillReplies : Int → Reply)
    (tickReplies : Nat → Int → Reply) : Timeline where
  backfillRead := readings.backfillRead
  backfillReplies := backfillReplies
  loopRead := readings.loopRead
  ticks := fun count => ⟨(readings.ticks count).1, (readings.ticks count).2, tickReplies count⟩

/-- The archive after the backfill and some iterations of `run_loop`. -/
def archiveAfter (settings : Settings) (timeline : Timeline) (existing : Finset String)
    (earliest : Option Int) (count : Nat) : Archive :=
  (runLoop settings timeline.loopRead ((List.range count).map timeline.ticks)
    (backfill settings timeline.backfillReplies earliest timeline.backfillRead ⟨existing, []⟩)).2

/-- However long the exports take after the reading they depend on, and whatever
they find, no upload is early. -/
def NeverEarly (settings : Settings) (readings : Readings) (existing : Finset String)
    (earliest : Option Int) : Prop :=
  ∀ (backfillReplies : Int → Reply) (tickReplies : Nat → Int → Reply),
    (∀ hour, readings.backfillRead ≤ (backfillReplies hour).finished) →
    (∀ count hour, (readings.ticks count).2 ≤ (tickReplies count hour).finished) →
    ∀ count, (archiveAfter settings (readings.timeline backfillReplies tickReplies) existing
      earliest count).Settled settings

/-- The backfill's missing hours have settled at its reading. -/
def BackfillSettled (settings : Settings) (readings : Readings) (existing : Finset String)
    (earliest : Option Int) : Prop :=
  ∀ first ∈ earliest, ∀ hour, first ≤ hour →
    hour ≤ latestExportableHour settings readings.backfillRead →
    hourToFilename settings hour ∉ existing → settledAt settings hour ≤ readings.backfillRead

/-- In every iteration that does not wait, a boundary beyond the one `run_loop`
started with has settled at the reading it comes from. -/
def TicksSettled (settings : Settings) (readings : Readings) : Prop :=
  ∀ count, settings.exportDelayMinutes ≤ minute (readings.ticks count).1 →
    latestExportableHour settings readings.loopRead <
      latestExportableHour settings (readings.ticks count).2 →
    settledAt settings (latestExportableHour settings (readings.ticks count).2) ≤
      (readings.ticks count).2

/-- The backfill exports the missing hours with their replies. -/
theorem exports_foldl (settings : Settings) (replies : Int → Reply) (hours : List Int)
    (archive : Archive) :
    (hours.foldl (exportHour settings replies) archive).exports =
      archive.exports ++ hours.map fun hour => ⟨hour, replies hour⟩ := by
  induction hours generalizing archive with
  | nil => exact (List.append_nil _).symm
  | cons hour rest inductionHypothesis =>
    rw [List.foldl_cons, inductionHypothesis, exportHour, List.append_assoc, List.map_cons,
      List.singleton_append]

/-- What the backfill exports. -/
theorem mem_exports_backfill (settings : Settings) (replies : Int → Reply) (earliest : Option Int)
    (now : Int) (existing : Finset String) (made : Export) :
    made ∈ (backfill settings replies earliest now ⟨existing, []⟩).exports ↔
      made.reply = replies made.hour ∧ ∃ first ∈ earliest, first ≤ made.hour ∧
        made.hour ≤ latestExportableHour settings now ∧
        hourToFilename settings made.hour ∉ existing := by
  cases earliest with
  | none => simp [backfill]
  | some first =>
    simp only [backfill, exports_foldl, List.nil_append, List.mem_map, mem_missingHours,
      Option.mem_def, Option.some.injEq, exists_eq_left']
    constructor
    · rintro ⟨hour, missing, rfl⟩
      exact ⟨rfl, missing⟩
    · rintro ⟨reply, missing⟩
      exact ⟨made.hour, missing, by rw [← reply]⟩

/-- An iteration exports hours from its cursor up to its boundary. -/
theorem mem_exports_exportThrough (settings : Settings) (replies : Int → Reply)
    (latest next : Int) (archive : Archive) :
    ∀ made ∈ (exportThrough settings replies latest next archive).2.exports,
      made ∈ archive.exports ∨
        made.reply = replies made.hour ∧ next ≤ made.hour ∧ made.hour ≤ latest := by
  have one : ∀ (archive : Archive) (next : Int), next ≤ latest →
      ∀ made ∈ (exportHour settings replies archive next).exports, made ∈ archive.exports ∨
        made.reply = replies made.hour ∧ next ≤ made.hour ∧ made.hour ≤ latest := by
    intro archive next inside made member
    rcases List.mem_append.mp member with before | now
    · exact Or.inl before
    · obtain rfl := List.mem_singleton.mp now
      exact Or.inr ⟨rfl, Int.le_refl _, inside⟩
  induction next, archive using exportThrough.induct settings replies latest with
  | case1 next archive inside uploaded inductionHypothesis =>
    rw [exportThrough, if_pos inside]
    simp only [uploaded]
    intro made member
    rcases inductionHypothesis made member with before | ⟨reply, after, upTo⟩
    · exact one archive next inside made before
    · exact Or.inr ⟨reply, by omega, upTo⟩
  | case2 next archive inside noRows =>
    rw [exportThrough, if_pos inside]
    simp only [noRows]
    exact one archive next inside
  | case3 next archive inside raised =>
    rw [exportThrough, if_pos inside]
    simp only [raised]
    exact one archive next inside
  | case4 next archive outside =>
    rw [exportThrough, if_neg outside]
    exact fun made member => Or.inl member

/-- What `run_loop` exports comes from an iteration that does not wait and lies
between the first cursor and the boundary of that iteration. -/
theorem mem_exports_ticks (settings : Settings) (ticks : List Tick) (state : Int × Archive) :
    ∀ made ∈ (ticks.foldl (tick settings) state).2.exports, made ∈ state.2.exports ∨
      ∃ reading ∈ ticks, settings.exportDelayMinutes ≤ minute reading.now ∧
        made.reply = reading.replies made.hour ∧ state.1 ≤ made.hour ∧
        made.hour ≤ latestExportableHour settings reading.latestRead := by
  induction ticks generalizing state with
  | nil => exact fun made before => Or.inl before
  | cons reading rest inductionHypothesis =>
    intro made member
    have forward := (tick_attempts settings state reading).1
    rcases inductionHypothesis _ made member with here | ⟨later, inRest, awake, reply, after, upTo⟩
    · unfold tick at here
      split at here
      · exact Or.inl here
      · rename_i awake
        rcases mem_exports_exportThrough settings _ _ _ _ made here with before | exported
        · exact Or.inl before
        · exact Or.inr ⟨reading, List.mem_cons_self, by omega, exported⟩
    · exact Or.inr ⟨later, List.mem_cons_of_mem _ inRest, awake, reply, forward.trans after, upTo⟩

/-- Iterations that find no rows leave the cursor where it is. -/
theorem cursor_of_noRows (settings : Settings) (ticks : List Tick) (state : Int × Archive)
    (noRows : ∀ reading ∈ ticks, ∀ hour, (reading.replies hour).answer = .noRows) :
    (ticks.foldl (tick settings) state).1 = state.1 := by
  induction ticks generalizing state with
  | nil => rfl
  | cons reading rest inductionHypothesis =>
    rw [List.foldl_cons, inductionHypothesis _ fun later member =>
      noRows later (List.mem_cons_of_mem _ member)]
    unfold tick
    split
    · rfl
    · rw [exportThrough]
      simp only [noRows reading List.mem_cons_self]
      split <;> rfl

/-- An iteration that finds rows every time uploads up to its boundary. -/
theorem exportThrough_reaches (settings : Settings) {replies : Int → Reply}
    (uploads : ∀ hour, (replies hour).answer = .uploaded) (latest next : Int) (archive : Archive)
    (inside : next ≤ latest) :
    ⟨latest, replies latest⟩ ∈ (exportThrough settings replies latest next archive).2.exports := by
  have kept : ∀ (next : Int) (archive : Archive), ∀ made ∈ archive.exports,
      made ∈ (exportThrough settings replies latest next archive).2.exports := by
    intro next archive
    induction next, archive using exportThrough.induct settings replies latest with
    | case1 next archive inside uploaded inductionHypothesis =>
      rw [exportThrough, if_pos inside]
      simp only [uploaded]
      exact fun made member => inductionHypothesis made (List.mem_append_left _ member)
    | case2 next archive inside noRows => exact absurd ((uploads next).symm.trans noRows) (by simp)
    | case3 next archive inside raised => exact absurd ((uploads next).symm.trans raised) (by simp)
    | case4 next archive outside =>
      rw [exportThrough, if_neg outside]
      exact fun made member => member
  induction next, archive using exportThrough.induct settings replies latest with
  | case1 next archive _ uploaded inductionHypothesis =>
    rw [exportThrough, if_pos inside]
    simp only [uploaded]
    by_cases last : next = latest
    · apply kept
      rw [exportHour, last]
      exact List.mem_append_right _ List.mem_cons_self
    · exact inductionHypothesis (by omega)
  | case2 next archive _ noRows => exact absurd ((uploads next).symm.trans noRows) (by simp)
  | case3 next archive _ raised => exact absurd ((uploads next).symm.trans raised) (by simp)
  | case4 next archive outside => exact absurd inside outside

/-- So does an iteration of `run_loop` that does not wait. -/
theorem tick_reaches (settings : Settings) (state : Int × Archive) (reading : Tick)
    (uploads : ∀ hour, (reading.replies hour).answer = .uploaded)
    (awake : settings.exportDelayMinutes ≤ minute reading.now)
    (inside : state.1 ≤ latestExportableHour settings reading.latestRead) :
    ⟨latestExportableHour settings reading.latestRead,
        reading.replies (latestExportableHour settings reading.latestRead)⟩ ∈
      (tick settings state reading).2.exports := by
  rw [tick, if_neg (not_lt.mpr awake)]
  exact exportThrough_reaches settings uploads _ _ _ inside

/-- An hour the backfill may export at once must have settled. -/
theorem backfillSettled_of_neverEarly {settings : Settings} {readings : Readings} {existing : Finset String}
    {earliest : Option Int} (never : NeverEarly settings readings existing earliest) :
    BackfillSettled settings readings existing earliest := by
  intro first isFirst hour after upTo missing
  have settled := never (fun _ => ⟨.uploaded, readings.backfillRead⟩)
    (fun count _ => ⟨.noRows, (readings.ticks count).2⟩) (fun _ => Int.le_refl _)
    (fun _ _ => Int.le_refl _) 0
  exact settled ⟨hour, .uploaded, readings.backfillRead⟩
    ((mem_exports_backfill settings _ earliest _ existing _).mpr
      ⟨rfl, first, isFirst, after, upTo, missing⟩) rfl

/-- Replies in which only one iteration finds rows. -/
def onlyIn (readings : Readings) (count other : Nat) (_ : Int) : Reply :=
  ⟨if other = count then .uploaded else .noRows, (readings.ticks other).2⟩

/-- An hour that an iteration may export at once must have settled: when nothing
was found before it, the iteration can export everything up to its boundary. -/
theorem ticksSettled_of_neverEarly {settings : Settings} {readings : Readings}
    {existing : Finset String} {earliest : Option Int}
    (never : NeverEarly settings readings existing earliest) : TicksSettled settings readings := by
  intro count awake beyond
  have settled := never (fun _ => ⟨.noRows, readings.backfillRead⟩) (onlyIn readings count)
    (fun _ => Int.le_refl _) (fun _ _ => Int.le_refl _) (count + 1)
  rw [archiveAfter, runLoop, List.range_succ, List.map_append, List.foldl_append, List.map_singleton,
    List.foldl_cons, List.foldl_nil] at settled
  -- the cursor is still where `run_loop` started it
  have waiting : ∀ reading ∈ (List.range count).map (readings.timeline
      (fun _ => ⟨.noRows, readings.backfillRead⟩) (onlyIn readings count)).ticks,
      ∀ hour, (reading.replies hour).answer = .noRows := by
    intro reading member hour
    obtain ⟨other, inRange, rfl⟩ := List.mem_map.mp member
    exact if_neg (Nat.ne_of_lt (List.mem_range.mp inRange))
  have cursor := cursor_of_noRows settings _ (latestExportableHour settings readings.loopRead + 1,
    backfill settings (fun _ => ⟨.noRows, readings.backfillRead⟩) earliest readings.backfillRead
      ⟨existing, []⟩) waiting
  have uploads : ∀ hour, (onlyIn readings count count hour).answer = .uploaded :=
    fun _ => if_pos rfl
  have inside := cursor.trans_le (Int.add_one_le_of_lt beyond)
  have reached := tick_reaches settings _ ⟨(readings.ticks count).1,
    (readings.ticks count).2, onlyIn readings count count⟩ uploads awake inside
  exact settled _ reached (uploads (latestExportableHour settings (readings.ticks count).2))

/-- Boundaries whose hours have settled make no upload early. -/
theorem neverEarly_of_settled {settings : Settings} {readings : Readings}
    {existing : Finset String} {earliest : Option Int}
    (backfillSettled : BackfillSettled settings readings existing earliest)
    (ticksSettled : TicksSettled settings readings) :
    NeverEarly settings readings existing earliest := by
  intro backfillReplies tickReplies backfillLater ticksLater count made member uploaded
  rcases mem_exports_ticks settings _ _ made member with
    before | ⟨reading, inTicks, awake, reply, after, upTo⟩
  · obtain ⟨reply, first, isFirst, after, upTo, missing⟩ :=
      (mem_exports_backfill settings _ earliest _ existing made).mp before
    rw [reply]
    exact (backfillSettled first isFirst made.hour after upTo missing).trans
      (backfillLater made.hour)
  · obtain ⟨other, -, rfl⟩ := List.mem_map.mp inTicks
    have boundary := ticksSettled other awake (Int.lt_of_add_one_le (after.trans upTo))
    rw [reply]
    calc settledAt settings made.hour
        ≤ settledAt settings (latestExportableHour settings (readings.ticks other).2) :=
          settledAt_mono settings upTo
      _ ≤ (readings.ticks other).2 := boundary
      _ ≤ (tickReplies other made.hour).finished := ticksLater other made.hour

/-- No upload is early, whatever the exports find and however long they take,
exactly when the hours that each clock reading releases have settled at it. -/
theorem never_early_iff (settings : Settings) (readings : Readings) (existing : Finset String)
    (earliest : Option Int) :
    NeverEarly settings readings existing earliest ↔
      BackfillSettled settings readings existing earliest ∧ TicksSettled settings readings :=
  ⟨fun never => ⟨backfillSettled_of_neverEarly never, ticksSettled_of_neverEarly never⟩,
    fun settled => neverEarly_of_settled settled.1 settled.2⟩

/-- A start at 10:01. -/
def startAfterHour : Readings where
  backfillRead := 36060000000
  loopRead := 36060000000
  ticks := fun count => (36120000000 + 60000000 * count, 36120000000 + 60000000 * count)

/-- A start at 9:30 with an iteration whose readings are at 9:59:59 and 10:00. -/
def straddledHour : Readings where
  backfillRead := 34200000000
  loopRead := 34200000000
  ticks := fun count => (35999000000 + 60000000 * count, 36000000000 + 60000000 * count)

/-- The hour from 9 to 10 may be archived at 10:01 by the backfill, and at 10:00
by the loop, although rows may arrive until 10:05. -/
theorem hour_archived_before_settled :
    ¬ NeverEarly defaultSettings startAfterHour ∅ (some 8) ∧
      ¬ NeverEarly defaultSettings straddledHour ∅ none := by
  constructor
  · intro never
    have settled := backfillSettled_of_neverEarly never 8 rfl 9 (by decide) (by decide)
      (Finset.notMem_empty _)
    exact absurd settled (by decide)
  · intro never
    have settled := ticksSettled_of_neverEarly never 0 (by decide) (by decide)
    exact absurd settled (by decide)

end Collector.Exporter
