import Mathlib.Data.Finset.Basic
import Mathlib.Data.Int.Init

/-!
# The hourly archive exporter

`backfill` exports every missing hour up to the latest exportable one, then
`run_loop` exports each new hour. Each of the two reads the clock for its own
boundary: `backfill` once before its exports, `run_loop` once when it starts.

An hour is counted from the Unix epoch in UTC and an instant is counted in
microseconds, the resolution of the Python clock. ClickHouse and the bucket are
represented by their replies: what one export finds, and when it finishes.
-/

namespace Collector.Exporter

/-- The environment settings that decide names and boundaries. -/
structure Settings where
  filenamePrefix : String
  exportDelayMinutes : Int
  exportLagHours : Int

/-- The proleptic Gregorian year, month and day of a day counted from
1970-01-01, on the calendar that starts its years in March. -/
def civil (day : Int) : Int × Nat × Nat :=
  let shifted := day + 719468
  let era := shifted / 146097
  let dayOfEra := (shifted % 146097).toNat
  let yearOfEra := (dayOfEra - dayOfEra / 1460 + dayOfEra / 36524 - dayOfEra / 146096) / 365
  let dayOfYear := dayOfEra - (365 * yearOfEra + yearOfEra / 4 - yearOfEra / 100)
  let shiftedMonth := (5 * dayOfYear + 2) / 153
  let dayOfMonth := dayOfYear - (153 * shiftedMonth + 2) / 5 + 1
  let month := if shiftedMonth < 10 then shiftedMonth + 3 else shiftedMonth - 9
  (yearOfEra + era * 400 + (if month ≤ 2 then 1 else 0), month, dayOfMonth)

/-- A number with leading zeros up to the given width. -/
def padded (width : Nat) (number : Nat) : String :=
  "".pushn '0' (width - (toString number).length) ++ toString number

/-- The object key of one hour: prefix, `%Y-%m-%dT%H`, suffix. -/
def hourToFilename (settings : Settings) (hour : Int) : String :=
  let (year, month, day) := civil (hour / 24)
  settings.filenamePrefix ++ padded 4 year.toNat ++ "-" ++ padded 2 month ++ "-" ++
    padded 2 day ++ "T" ++ padded 2 (hour % 24).toNat ++ ".parquet"

/-- The hour of the reading, less the configured lag. -/
def latestExportableHour (settings : Settings) (now : Int) : Int :=
  now / 3600000000 - settings.exportLagHours

/-- The minute of the hour of a reading. -/
def minute (now : Int) : Int := now / 60000000 % 60

/-- What one export meets: rows that were uploaded, an hour without rows, or an
exception from the query or the upload. -/
inductive Answer where
  | uploaded
  | noRows
  | raised
deriving DecidableEq

/-- The answer to one export and the instant at which it is known. -/
structure Reply where
  answer : Answer
  finished : Int

/-- One call of `export_hour`, with its reply. -/
structure Export where
  hour : Int
  reply : Reply

/-- The bucket's object keys and every export attempted so far, in order. -/
structure Archive where
  bucket : Finset String
  exports : List Export

/-- The hours an archive's log has attempted. -/
def Archive.attempted (archive : Archive) : List Int := archive.exports.map Export.hour

/-- One export: the attempt is logged, and its key enters the bucket exactly
when rows were found and uploaded. -/
def exportHour (settings : Settings) (replies : Int → Reply) (archive : Archive) (hour : Int) :
    Archive where
  bucket := match (replies hour).answer with
    | .uploaded => insert (hourToFilename settings hour) archive.bucket
    | .noRows => archive.bucket
    | .raised => archive.bucket
  exports := archive.exports ++ [⟨hour, replies hour⟩]

/-- The hours from `current` up to and including `latest` whose key is not in
the listing. -/
def missingHours (settings : Settings) (existing : Finset String) (latest current : Int) :
    List Int :=
  if current ≤ latest then
    if hourToFilename settings current ∉ existing then
      current :: missingHours settings existing latest (current + 1)
    else missingHours settings existing latest (current + 1)
  else []
termination_by (latest + 1 - current).toNat
decreasing_by all_goals omega

/-- Export every missing hour; an exception is logged and the loop goes on. An
empty table has no earliest hour and ends the backfill at once. -/
def backfill (settings : Settings) (replies : Int → Reply) (earliest : Option Int)
    (now : Int) (archive : Archive) : Archive :=
  match earliest with
  | none => archive
  | some first =>
    (missingHours settings archive.bucket (latestExportableHour settings now) first).foldl
      (exportHour settings replies) archive

/-- The inner loop of one tick: advance past each uploaded hour, stop at the
first hour that has no rows or raises. -/
def exportThrough (settings : Settings) (replies : Int → Reply) (latest next : Int)
    (archive : Archive) : Int × Archive :=
  if next ≤ latest then
    match (replies next).answer with
    | .uploaded =>
      exportThrough settings replies latest (next + 1) (exportHour settings replies archive next)
    | .noRows => (next, exportHour settings replies archive next)
    | .raised => (next, exportHour settings replies archive next)
  else (next, archive)
termination_by (latest + 1 - next).toNat
decreasing_by omega

/-- The two clock readings of one iteration of `run_loop` and the replies to
the exports it makes. -/
structure Tick where
  now : Int
  latestRead : Int
  replies : Int → Reply

/-- One iteration of `run_loop` after its sleep. -/
def tick (settings : Settings) (state : Int × Archive) (reading : Tick) : Int × Archive :=
  let latest := latestExportableHour settings reading.latestRead
  if minute reading.now < settings.exportDelayMinutes then state
  else exportThrough settings reading.replies latest state.1 state.2

/-- `run_loop` from its own clock reading through finitely many iterations. -/
def runLoop (settings : Settings) (started : Int) (ticks : List Tick) (archive : Archive) :
    Int × Archive :=
  ticks.foldl (tick settings) (latestExportableHour settings started + 1, archive)

/-- An hour is missing exactly when it lies in the scanned interval and its key
is not in the listing. -/
theorem mem_missingHours (settings : Settings) (existing : Finset String)
    (latest current hour : Int) :
    hour ∈ missingHours settings existing latest current ↔
      current ≤ hour ∧ hour ≤ latest ∧ hourToFilename settings hour ∉ existing := by
  induction current using missingHours.induct settings existing latest with
  | case1 current inside absent inductionHypothesis =>
    rw [missingHours, if_pos inside, if_pos absent, List.mem_cons, inductionHypothesis]
    constructor
    · rintro (rfl | ⟨after, upTo, missing⟩)
      · exact ⟨Int.le_refl _, inside, absent⟩
      · exact ⟨by omega, upTo, missing⟩
    · rintro ⟨after, upTo, missing⟩
      by_cases same : hour = current
      · exact Or.inl same
      · exact Or.inr ⟨by omega, upTo, missing⟩
  | case2 current inside present inductionHypothesis =>
    rw [missingHours, if_pos inside, if_neg present, inductionHypothesis]
    constructor
    · rintro ⟨after, upTo, missing⟩
      exact ⟨by omega, upTo, missing⟩
    · rintro ⟨after, upTo, missing⟩
      have different : hour ≠ current := by
        rintro rfl
        exact present missing
      exact ⟨by omega, upTo, missing⟩
  | case3 current outside =>
    rw [missingHours, if_neg outside]
    constructor
    · exact fun impossible => absurd impossible List.not_mem_nil
    · rintro ⟨after, upTo, _⟩
      omega

@[simp]
theorem attempted_exportHour (settings : Settings) (replies : Int → Reply) (archive : Archive)
    (hour : Int) :
    (exportHour settings replies archive hour).attempted = archive.attempted ++ [hour] := by
  simp [Archive.attempted, exportHour]

/-- Exporting a list of hours attempts exactly those hours, in order, whatever
the replies are. -/
theorem attempted_foldl (settings : Settings) (replies : Int → Reply) (hours : List Int)
    (archive : Archive) :
    (hours.foldl (exportHour settings replies) archive).attempted = archive.attempted ++ hours := by
  induction hours generalizing archive with
  | nil => simp
  | cons hour rest inductionHypothesis =>
    rw [List.foldl_cons, inductionHypothesis, attempted_exportHour, List.append_assoc,
      List.singleton_append]

/-- `backfill` attempts exactly the missing hours up to its own boundary. -/
theorem attempted_backfill (settings : Settings) (replies : Int → Reply) (first : Int)
    (now : Int) (archive : Archive) :
    (backfill settings replies (some first) now archive).attempted = archive.attempted ++
      missingHours settings archive.bucket (latestExportableHour settings now) first :=
  attempted_foldl settings replies _ archive

/-- One tick never moves the cursor back, and attempts only hours from the
cursor on. -/
theorem exportThrough_attempts (settings : Settings) (replies : Int → Reply)
    (latest next : Int) (archive : Archive) :
    next ≤ (exportThrough settings replies latest next archive).1 ∧
      ∀ hour ∈ (exportThrough settings replies latest next archive).2.attempted,
        hour ∈ archive.attempted ∨ next ≤ hour := by
  induction next, archive using exportThrough.induct settings replies latest with
  | case1 next archive inside uploaded inductionHypothesis =>
    rw [exportThrough, if_pos inside]
    simp only [uploaded]
    refine ⟨by omega, ?_⟩
    intro hour attempted
    rcases inductionHypothesis.2 hour attempted with earlier | later
    · rw [attempted_exportHour, List.mem_append, List.mem_singleton] at earlier
      rcases earlier with before | rfl
      · exact Or.inl before
      · exact Or.inr (Int.le_refl _)
    · exact Or.inr (by omega)
  | case2 next archive inside noRows =>
    rw [exportThrough, if_pos inside]
    simp only [noRows, attempted_exportHour, List.mem_append, List.mem_singleton]
    refine ⟨Int.le_refl _, ?_⟩
    rintro hour (before | rfl)
    · exact Or.inl before
    · exact Or.inr (Int.le_refl _)
  | case3 next archive inside raised =>
    rw [exportThrough, if_pos inside]
    simp only [raised, attempted_exportHour, List.mem_append, List.mem_singleton]
    refine ⟨Int.le_refl _, ?_⟩
    rintro hour (before | rfl)
    · exact Or.inl before
    · exact Or.inr (Int.le_refl _)
  | case4 next archive outside =>
    rw [exportThrough, if_neg outside]
    exact ⟨Int.le_refl _, fun hour attempted => Or.inl attempted⟩

/-- The same bound for one iteration of `run_loop`, waiting or exporting. -/
theorem tick_attempts (settings : Settings) (state : Int × Archive) (reading : Tick) :
    state.1 ≤ (tick settings state reading).1 ∧
      ∀ hour ∈ (tick settings state reading).2.attempted,
        hour ∈ state.2.attempted ∨ state.1 ≤ hour := by
  unfold tick
  split
  · exact ⟨Int.le_refl _, fun hour attempted => Or.inl attempted⟩
  · exact exportThrough_attempts settings reading.replies _ state.1 state.2

/-- The bound carries through any number of iterations. -/
theorem ticks_attempt (settings : Settings) (ticks : List Tick) (state : Int × Archive) :
    ∀ hour ∈ (ticks.foldl (tick settings) state).2.attempted,
      hour ∈ state.2.attempted ∨ state.1 ≤ hour := by
  induction ticks generalizing state with
  | nil => exact fun hour before => Or.inl before
  | cons reading rest inductionHypothesis =>
    intro hour later
    obtain ⟨forward, first⟩ := tick_attempts settings state reading
    rcases inductionHypothesis _ hour later with before | after
    · exact first hour before
    · exact Or.inr (Int.le_trans forward after)

/-- However long it runs, `run_loop` attempts only hours after the boundary it
read when it started. -/
theorem runLoop_attempts (settings : Settings) (started : Int) (ticks : List Tick)
    (archive : Archive) (hour : Int)
    (attempted : hour ∈ (runLoop settings started ticks archive).2.attempted) :
    hour ∈ archive.attempted ∨ latestExportableHour settings started < hour := by
  rcases ticks_attempt settings ticks _ hour attempted with before | after
  · exact Or.inl before
  · exact Or.inr (by omega)

/-- One start of the exporter: the reading `backfill` takes and the replies it
gets, then the reading `run_loop` takes when it starts and its iterations. -/
structure Timeline where
  backfillRead : Int
  backfillReplies : Int → Reply
  loopRead : Int
  ticks : Nat → Tick

/-- The archive as `backfill` leaves it to `run_loop`. -/
def afterBackfill (settings : Settings) (timeline : Timeline) (existing : Finset String)
    (earliest : Int) : Archive :=
  backfill settings timeline.backfillReplies (some earliest) timeline.backfillRead ⟨existing, []⟩

/-- An hour is covered when its object was in the bucket from the start, when
`backfill` attempts it, or when `run_loop` attempts it after some iterations. -/
def Covered (settings : Settings) (timeline : Timeline) (existing : Finset String)
    (earliest hour : Int) : Prop :=
  hourToFilename settings hour ∈ existing ∨
    hour ∈ (afterBackfill settings timeline existing earliest).attempted ∨
    ∃ count, hour ∈ (runLoop settings timeline.loopRead ((List.range count).map timeline.ticks)
      (afterBackfill settings timeline existing earliest)).2.attempted

/-- Up to the boundary `run_loop` starts from, only the bucket and `backfill`
can cover an hour: the cursor already lies behind it. -/
theorem covered_before_loop (settings : Settings) (timeline : Timeline)
    (existing : Finset String) (earliest hour : Int)
    (complete : hour ≤ latestExportableHour settings timeline.loopRead) :
    Covered settings timeline existing earliest hour ↔
      hourToFilename settings hour ∈ existing ∨
        earliest ≤ hour ∧ hour ≤ latestExportableHour settings timeline.backfillRead := by
  have byBackfill : hour ∈ (afterBackfill settings timeline existing earliest).attempted ↔
      earliest ≤ hour ∧ hour ≤ latestExportableHour settings timeline.backfillRead ∧
        hourToFilename settings hour ∉ existing := by
    rw [afterBackfill, attempted_backfill, List.mem_append, mem_missingHours]
    simp [Archive.attempted]
  constructor
  · rintro (listed | attempted | ⟨count, attempted⟩)
    · exact Or.inl listed
    · obtain ⟨after, upTo, _⟩ := byBackfill.mp attempted
      exact Or.inr ⟨after, upTo⟩
    · rcases runLoop_attempts settings _ _ _ hour attempted with before | later
      · obtain ⟨after, upTo, _⟩ := byBackfill.mp before
        exact Or.inr ⟨after, upTo⟩
      · omega
  · rintro (listed | ⟨after, upTo⟩)
    · exact Or.inl listed
    · by_cases listed : hourToFilename settings hour ∈ existing
      · exact Or.inl listed
      · exact Or.inr (Or.inl (byBackfill.mpr ⟨after, upTo, listed⟩))

/-- Every complete hour is covered exactly when the hours that completed while
`backfill` was running are all in the bucket already. -/
theorem hours_covered_iff (settings : Settings) (timeline : Timeline)
    (existing : Finset String) (earliest : Int) :
    (∀ hour, earliest ≤ hour → hour ≤ latestExportableHour settings timeline.loopRead →
      Covered settings timeline existing earliest hour) ↔
    ∀ hour, earliest ≤ hour → latestExportableHour settings timeline.backfillRead < hour →
      hour ≤ latestExportableHour settings timeline.loopRead →
      hourToFilename settings hour ∈ existing := by
  constructor
  · intro covered hour after rolled complete
    rcases (covered_before_loop settings timeline existing earliest hour complete).mp
      (covered hour after complete) with listed | ⟨_, upTo⟩
    · exact listed
    · omega
  · intro listed hour after complete
    apply (covered_before_loop settings timeline existing earliest hour complete).mpr
    by_cases rolled : latestExportableHour settings timeline.backfillRead < hour
    · exact Or.inl (listed hour after rolled complete)
    · exact Or.inr ⟨after, by omega⟩

/-- The settings the compose file leaves at their defaults. -/
def defaultSettings : Settings where
  filenamePrefix := "polymarket_orderbook_"
  exportDelayMinutes := 5
  exportLagHours := 1

/-- A start at 10:30 whose backfill lasts until 12:10. -/
def slowBackfill : Timeline where
  backfillRead := 37800000000
  backfillReplies := fun _ => ⟨.uploaded, 37800000000⟩
  loopRead := 43800000000
  ticks := fun count => ⟨43860000000 + 60000000 * count, 43860000000 + 60000000 * count,
    fun _ => ⟨.uploaded, 43860000000 + 60000000 * count⟩⟩

/-- With an empty bucket and data from 08:00 on, the hours from 10:00 to 12:00
complete during that backfill and are covered by neither phase. -/
theorem rolled_hour_is_lost :
    ¬ ∀ hour, 8 ≤ hour → hour ≤ latestExportableHour defaultSettings slowBackfill.loopRead →
      Covered defaultSettings slowBackfill ∅ 8 hour := by
  intro covered
  have complete : (10 : Int) ≤ latestExportableHour defaultSettings slowBackfill.loopRead := by
    decide
  rcases (covered_before_loop defaultSettings slowBackfill ∅ 8 10 complete).mp
    (covered 10 (by decide) complete) with listed | ⟨_, upTo⟩
  · exact absurd listed (Finset.notMem_empty _)
  · exact absurd upTo (by decide)

end Collector.Exporter
