import Collector.Polling

/-!
# The start date watermark

The poller of new markets asks only for markets that start at or after a
watermark, the latest start date of a binary market it has seen. It takes for
granted that an earlier market has been seen as well. A market that becomes
listed with a start date before the watermark, which may lie in the future, is
never returned.
-/

namespace Collector

/-- A market that Gamma lists as active, with its start date in microseconds
where that can be read. -/
structure ListedMarket where
  raw : RawMarket
  startDate : Option Int
deriving DecidableEq

/-- The pollers, the watermark, and the latest start date of the batch in hand. -/
structure Watermark where
  polling : Polling
  currentMax : Int
  observed : Option Int

namespace Watermark

open Polling (Poll AddMoves)
open Tracker (NewMarkets Next)

/-- The parameter `start_date_min`: the watermark in whole seconds. -/
def startDateMin (currentMax : Int) : Int := currentMax / 1000000 * 1000000

/-- What Gamma answers: the listed markets that start at the minimum or later. -/
def fetchNewMarkets (currentMax : Int) (listing : List ListedMarket) : List ListedMarket :=
  listing.filter fun market =>
    market.startDate.any fun startDate => startDateMin currentMax ≤ startDate

/-- The later of a start date seen before and that of a binary market. -/
def laterStart (latest : Option Int) (market : ListedMarket) : Option Int :=
  if (parseMarket market.raw).isSome then
    match market.startDate, latest with
    | none, latest => latest
    | some startDate, none => some startDate
    | some startDate, some latest => if latest < startDate then some startDate else some latest
  else latest

/-- The `max_start_date` of `parse_markets`. -/
def maxStartDate (markets : List ListedMarket) : Option Int := markets.foldl laterStart none

/-- The watermark after a batch. -/
def advance (observed : Option Int) (currentMax : Int) : Int :=
  match observed with
  | some startDate => if currentMax < startDate then startDate else currentMax
  | none => currentMax

/-- The poller is in the middle of a batch. -/
def inBatch : NewMarkets → Bool
  | .publishing .. => true
  | _ => false

/-- The pollers are about to start, with the latest start date of the listing. -/
def start (active : ActiveMarkets) (maxStartDate : Int) : Watermark where
  polling := Polling.start active
  currentMax := maxStartDate
  observed := none

/-- The steps of the pollers, with what Gamma lists at a fetch of new markets. -/
inductive Action where
  | fetchNew (listing : List ListedMarket)
  | other (poll : Poll)
deriving DecidableEq

/-- The step of the pollers that an action is. -/
def poll (watermark : Watermark) : Action → Poll
  | .fetchNew listing =>
    .take (.fetchNew ((fetchNewMarkets watermark.currentMax listing).map ListedMarket.raw))
  | .other poll => poll

/-- The start date observed and the watermark after an action. It moves when the
poller gets through with its batch. -/
def record (watermark : Watermark) (action : Action) (next : Polling) : Watermark :=
  match action with
  | .fetchNew listing =>
    let observed := maxStartDate (fetchNewMarkets watermark.currentMax listing)
    { polling := next
      currentMax :=
        if inBatch next.tracker.newMarkets then watermark.currentMax
        else advance observed watermark.currentMax
      observed := observed }
  | .other (.take .resumeNewMarkets) =>
    { polling := next
      currentMax :=
        if inBatch watermark.polling.tracker.newMarkets ∧ ¬ inBatch next.tracker.newMarkets then
          advance watermark.observed watermark.currentMax
        else watermark.currentMax
      observed := watermark.observed }
  | .other _ => { watermark with polling := next }

/-- One step; a fetch of new markets carries a listing. -/
def step (watermark : Watermark) : Action → Option Watermark
  | .other (.take (.fetchNew _)) => none
  | action =>
    (watermark.polling.step (watermark.poll action)).map fun (next, _) =>
      watermark.record action next

/-- A cycle of the poller of new markets: what Gamma lists, the watermark and the
markets tracked at its fetch, the markets taken out since, and those tracked at
its end. -/
structure Cycle where
  listing : List ListedMarket
  currentMax : Int
  before : List String
  removed : List String
  after : List String

/-- The pollers, the cycle that is running, and those that have ended without an
exception. -/
structure State where
  watermark : Watermark
  cycle : Option Cycle
  cycles : List Cycle

/-- The pollers are about to start. -/
def State.start (active : ActiveMarkets) (maxStartDate : Int) : State where
  watermark := Watermark.start active maxStartDate
  cycle := none
  cycles := []

/-- What a step adds to the cycle that is running. -/
def Cycle.goOn (cycle : Cycle) (polling next : Polling) : Cycle :=
  { cycle with
    removed := cycle.removed ++
      polling.tracker.active.keys.filter fun market => market ∉ next.tracker.active
    after := next.tracker.active.keys }

/-- The cycle that is running after an action. -/
def State.cycleAfter (state : State) (next : Polling) : Action → Option Cycle
  | .fetchNew listing =>
    some ⟨listing, state.watermark.currentMax, state.watermark.polling.tracker.active.keys, [],
      next.tracker.active.keys⟩
  | .other .failNewMarkets => none
  | .other _ => state.cycle.map fun cycle => cycle.goOn state.watermark.polling next

/-- One step with what becomes of the cycles. -/
def State.step (state : State) (action : Action) : Option State :=
  (state.watermark.step action).map fun next =>
    let cycle := state.cycleAfter next.polling action
    if next.polling.ends (state.watermark.poll action) then
      { watermark := next
        cycle := none
        cycles := state.cycles ++ cycle.toList }
    else { state with
      watermark := next
      cycle := cycle }

namespace Cycle

/-- Gamma lists the market as active and it is binary. -/
def Lists (cycle : Cycle) (market : String) : Prop :=
  ∃ listed ∈ cycle.listing, (parseMarket listed.raw).isSome ∧ listed.raw.conditionId = market

/-- Every binary market that Gamma listed is tracked at the end, or has been taken
out in the meantime. -/
def Complete (cycle : Cycle) : Prop :=
  ∀ market, cycle.Lists market → market ∈ cycle.after ∨ market ∈ cycle.removed

/-- The market is among the binary ones that Gamma answers. -/
def Answers (cycle : Cycle) (market : String) : Prop :=
  ∃ listed ∈ cycle.listing, (parseMarket listed.raw).isSome ∧ listed.raw.conditionId = market ∧
    ∃ startDate, listed.startDate = some startDate ∧ startDateMin cycle.currentMax ≤ startDate

/-- Every binary market that Gamma lists is tracked already or starts no earlier
than the watermark. -/
def Visible (cycle : Cycle) : Prop :=
  ∀ market, cycle.Lists market → market ∈ cycle.before ∨ cycle.Answers market

/-- The raw records of the answer. -/
def records (cycle : Cycle) : List RawMarket :=
  (fetchNewMarkets cycle.currentMax cycle.listing).map ListedMarket.raw

/-- The parsed markets of the answer are the ones that are answered. -/
theorem answers_iff (cycle : Cycle) (market : String) :
    cycle.Answers market ↔ ∃ parsed ∈ parseMarkets cycle.records, parsed.hash = market := by
  constructor
  · rintro ⟨listed, member, binary, named, startDate, starts, late⟩
    obtain ⟨parsed, found⟩ := Option.isSome_iff_exists.mp binary
    refine ⟨parsed, List.mem_filterMap.mpr ⟨listed.raw, List.mem_map_of_mem ?_, found⟩, ?_⟩
    · refine List.mem_filter.mpr ⟨member, ?_⟩
      rw [starts, Option.any_some, decide_eq_true_eq]
      exact late
    · exact (hash_parseMarket found).trans named
  · rintro ⟨parsed, member, named⟩
    obtain ⟨raw, inRecords, found⟩ := List.mem_filterMap.mp member
    obtain ⟨listed, answered, rfl⟩ := List.mem_map.mp inRecords
    obtain ⟨inListing, late⟩ := List.mem_filter.mp answered
    obtain ⟨startDate, starts, isLate⟩ := Option.any_eq_true _ _ |>.mp late
    refine ⟨listed, inListing, ?_, ?_, startDate, starts, of_decide_eq_true isLate⟩
    · rw [found]
      rfl
    · exact (hash_parseMarket found).symm.trans named

end Cycle

/-- The markets of the batch that the poller has still to go through. -/
def pending : NewMarkets → List Market
  | .publishing _ rest _ _ _ => rest
  | _ => []

/-- A batch in hand is of these records. -/
def Of (records : List RawMarket) : NewMarkets → Prop
  | .publishing _ rest rawMarkets _ _ =>
    rawMarkets = records ∧ ∀ market ∈ rest, market ∈ parseMarkets records
  | _ => True

/-- The market is tracked or has been taken out in the cycle. -/
def Handled (active : ActiveMarkets) (cycle : Cycle) (market : String) : Prop :=
  market ∈ active ∨ market ∈ cycle.removed

/-- A cycle handles the markets tracked before and those of its answer that it
has gone through, and no others. -/
structure Running (polling : Polling) (cycle : Cycle) : Prop where
  before : ∀ market ∈ cycle.before, Handled polling.tracker.active cycle market
  covers : ∀ market ∈ parseMarkets cycle.records,
    Handled polling.tracker.active cycle market.hash ∨ market ∈ pending polling.tracker.newMarkets
  handled : ∀ market, Handled polling.tracker.active cycle market →
    market ∈ cycle.before ∨ ∃ parsed ∈ parseMarkets cycle.records, parsed.hash = market
  batch : Of cycle.records polling.tracker.newMarkets
  after : cycle.after = polling.tracker.active.keys

section Steps

variable {polling next : Polling} {cycle : Cycle}

/-- What is handled stays so, and a step without new markets handles no others. -/
theorem handled_goOn
    (kept : ∀ market ∈ next.tracker.active, market ∈ polling.tracker.active) (market : String) :
    Handled next.tracker.active (cycle.goOn polling next) market ↔
      Handled polling.tracker.active cycle market := by
  simp only [Handled, Cycle.goOn, List.mem_append, List.mem_filter, decide_eq_true_eq,
    ← AList.mem_keys]
  constructor
  · rintro (tracked | before | ⟨tracked, -⟩)
    · exact Or.inl (kept market tracked)
    · exact Or.inr before
    · exact Or.inl tracked
  · rintro (tracked | before)
    · by_cases still : market ∈ next.tracker.active
      · exact Or.inl still
      · exact Or.inr (Or.inr ⟨tracked, still⟩)
    · exact Or.inr (Or.inl before)

/-- A step that puts no market and leaves the batch as it is goes on with the cycle. -/
theorem Running.keep (running : Running polling cycle)
    (kept : ∀ market ∈ next.tracker.active, market ∈ polling.tracker.active)
    (same : pending next.tracker.newMarkets = pending polling.tracker.newMarkets)
    (batch : Of cycle.records next.tracker.newMarkets) : Running next (cycle.goOn polling next) where
  before := fun market member => (handled_goOn kept market).mpr (running.before market member)
  covers := by
    intro market member
    rw [same]
    exact (running.covers market member).imp_left (handled_goOn kept market.hash).mpr
  handled := fun market isHandled => running.handled market ((handled_goOn kept market).mp isHandled)
  batch := batch
  after := rfl

/-- What going on with a batch does to the set and to the rest of the batch. -/
structure Went (records : List RawMarket) (active : ActiveMarkets) (markets : List Market)
    (result : ActiveMarkets × NewMarkets) : Prop where
  kept : ∀ market ∈ active, market ∈ result.1
  covers : ∀ market ∈ markets, market.hash ∈ result.1 ∨ market ∈ pending result.2
  put : ∀ market ∈ result.1, market ∈ active ∨ ∃ parsed ∈ markets, parsed.hash = market
  batch : Of records result.2

theorem went_of_next {records : List RawMarket} {active : ActiveMarkets} {added : Nat}
    {markets : List Market} {result : ActiveMarkets × NewMarkets}
    (batched : ∀ market ∈ markets, market ∈ parseMarkets records)
    (continues : Next records active added markets result) : Went records active markets result := by
  refine ⟨fun market member => (continues.active_iff market).mpr (Or.inl member), ?_, ?_, ?_⟩
  · cases continues with
    | put skipped market rest raw split known fresh found =>
      intro other member
      rw [split] at member
      rcases List.mem_append.mp member with passed | onward
      · exact Or.inl ((AList.mem_insert active).mpr (Or.inr (known other passed)))
      · rcases List.mem_cons.mp onward with rfl | later
        · exact Or.inl ((AList.mem_insert active).mpr (Or.inl rfl))
        · exact Or.inr later
    | done known => exact fun other member => Or.inl (known other member)
  · cases continues with
    | put skipped market rest raw split known fresh found =>
      intro other member
      rcases (AList.mem_insert active).mp member with rfl | before
      · refine Or.inr ⟨market, ?_, rfl⟩
        rw [split]
        exact List.mem_append_right skipped List.mem_cons_self
      · exact Or.inl before
    | done known => exact fun other member => Or.inl member
  · cases continues with
    | put skipped market rest raw split known fresh found =>
      refine ⟨rfl, fun other member => batched other ?_⟩
      rw [split]
      exact List.mem_append_right skipped (List.mem_cons_of_mem market member)
    | done known => split <;> trivial

/-- A cycle begins with its answer. -/
theorem running_begin {watermark : Watermark} {listing : List ListedMarket}
    (continues : Next ((fetchNewMarkets watermark.currentMax listing).map ListedMarket.raw)
      watermark.polling.tracker.active 0
      (parseMarkets ((fetchNewMarkets watermark.currentMax listing).map ListedMarket.raw))
      (next.tracker.active, next.tracker.newMarkets)) :
    Running next ⟨listing, watermark.currentMax, watermark.polling.tracker.active.keys, [],
      next.tracker.active.keys⟩ := by
  have went := went_of_next (fun market member => member) continues
  refine ⟨?_, ?_, ?_, went.batch, rfl⟩
  · exact fun market member => Or.inl (went.kept market (AList.mem_keys.mpr member))
  · exact fun market member => (went.covers market member).imp_left Or.inl
  · intro market isHandled
    rcases isHandled with tracked | gone
    · exact (went.put market tracked).imp_left AList.mem_keys.mp
    · exact absurd gone List.not_mem_nil

/-- Going on with the batch handles the market that is put. -/
theorem Running.add {raw : RawMarket} {rest : List Market} {rawMarkets : List RawMarket}
    {added : Nat} (running : Running polling cycle)
    (publishing : polling.tracker.newMarkets = .publishing raw rest rawMarkets added true)
    (continues : (∀ market ∈ rest, market ∈ parseMarkets rawMarkets) →
      Next rawMarkets polling.tracker.active added rest
        (next.tracker.active, next.tracker.newMarkets)) :
    Running next (cycle.goOn polling next) := by
  obtain ⟨before, covers, handled, batch, -⟩ := running
  rw [publishing] at batch covers
  obtain ⟨rfl, batched⟩ := batch
  have went := went_of_next batched (continues batched)
  have stays : ∀ market, Handled polling.tracker.active cycle market →
      Handled next.tracker.active (cycle.goOn polling next) market :=
    fun market => Or.imp (went.kept market) (List.mem_append_left _)
  refine ⟨?_, ?_, ?_, went.batch, rfl⟩
  · exact fun market member => stays market (before market member)
  · intro market member
    rcases covers market member with isHandled | inRest
    · exact Or.inl (stays market.hash isHandled)
    · exact (went.covers market inRest).imp_left Or.inl
  · intro market isHandled
    rcases isHandled with tracked | gone
    · rcases went.put market tracked with wasTracked | ⟨parsed, inRest, named⟩
      · exact handled market (Or.inl wasTracked)
      · exact Or.inr ⟨parsed, batched parsed inRest, named⟩
    · rcases List.mem_append.mp gone with earlier | now
      · exact handled market (Or.inr earlier)
      · exact handled market (Or.inl (AList.mem_keys.mpr (List.mem_filter.mp now).1))

/-- A cycle that has ended handled exactly what was tracked or answered. -/
structure Ended (cycle : Cycle) : Prop where
  handled_iff : ∀ market, market ∈ cycle.after ∨ market ∈ cycle.removed ↔
    market ∈ cycle.before ∨ cycle.Answers market

/-- An idle poller has gone through its batch. -/
theorem Running.ended (running : Running polling cycle)
    (idle : polling.tracker.newMarkets = .idle) : Ended cycle where
  handled_iff := by
    intro market
    have same : market ∈ cycle.after ∨ market ∈ cycle.removed ↔
        Handled polling.tracker.active cycle market := by
      rw [running.after, ← AList.mem_keys, Handled]
    rw [same, cycle.answers_iff]
    constructor
    · exact running.handled market
    · rintro (before | ⟨parsed, member, rfl⟩)
      · exact running.before market before
      · refine (running.covers parsed member).resolve_right ?_
        rw [idle]
        exact List.not_mem_nil

/-- Such a cycle is complete just when nothing was hidden from it. -/
theorem Ended.complete_iff (ended : Ended cycle) : cycle.Complete ↔ cycle.Visible :=
  forall_congr' fun market => imp_congr_right fun _ => ended.handled_iff market

/-- The cycle that is running and the ones that have ended are as they should be. -/
structure Recorded (state : State) : Prop where
  running : ∀ cycle, state.cycle = some cycle → Running state.watermark.polling cycle
  ended : ∀ cycle ∈ state.cycles, Ended cycle

variable {state after : State} {action : Action}

/-- The pollers after a record. -/
theorem record_polling (watermark : Watermark) (action : Action) (next : Polling) :
    (watermark.record action next).polling = next := by
  unfold record
  split <;> rfl

/-- A step that was taken, as the poller of new markets sees it. -/
theorem step_some {watermark later : Watermark} (taken : watermark.step action = some later) :
    (∃ write, AddMoves watermark.polling (watermark.poll action) later.polling write) ∧
      ∀ listed, action ≠ .other (.take (.fetchNew listed)) := by
  unfold Watermark.step at taken
  split at taken
  · exact absurd taken nofun
  · rename_i action notBare
    obtain ⟨⟨next, write⟩, stepped, rfl⟩ := Option.map_eq_some_iff.mp taken
    refine ⟨⟨write, ?_⟩, notBare⟩
    rw [record_polling]
    exact Polling.addMoves_of_step stepped

/-- A step that is not a fetch of new markets goes on with the cycle unless it fails. -/
theorem Recorded.goOn {poll : Poll} (recorded : Recorded state) {cycle : Cycle}
    (same : state.cycleAfter next (.other poll) = some cycle)
    (kept : ∀ earlier, Running state.watermark.polling earlier →
      Running next (earlier.goOn state.watermark.polling next)) : Running next cycle := by
  unfold State.cycleAfter at same
  split at same
  · rename_i fetched
    exact absurd fetched nofun
  · exact absurd same nofun
  · obtain ⟨earlier, isRunning, rfl⟩ := Option.map_eq_some_iff.mp same
    exact kept earlier (recorded.running earlier isRunning)

/-- The cycle that is running after a step is as it should be. -/
theorem Recorded.cycleAfter {later : Watermark} (recorded : Recorded state)
    (taken : state.watermark.step action = some later) {cycle : Cycle}
    (same : state.cycleAfter later.polling action = some cycle) :
    Running later.polling cycle := by
  obtain ⟨⟨write, moves⟩, notBare⟩ := step_some taken
  generalize later.polling = next at moves same ⊢
  cases action with
  | fetchNew listing =>
    obtain rfl := Option.some.inj same
    cases moves with
    | aside _ _ _ other => exact absurd trivial other
    | begin _ _ idle continues => exact running_begin continues
  | other poll =>
    cases moves with
    | aside _ _ _ other newMarkets kept =>
      apply recorded.goOn same
      intro earlier running
      exact running.keep kept (congrArg pending newMarkets) (newMarkets ▸ running.batch)
    | begin listed _ idle continues => exact absurd rfl (notBare listed)
    | land raw rest rawMarkets added publishing =>
      apply recorded.goOn same
      intro earlier running
      have batch := running.batch
      rw [publishing] at batch
      exact running.keep (fun market member => member) (by rw [publishing]; rfl) batch
    | goOn raw rest rawMarkets added _ publishing continues =>
      apply recorded.goOn same
      intro earlier running
      exact running.add publishing continues
    | landSave snapshot saving =>
      apply recorded.goOn same
      intro earlier running
      exact running.keep (fun market member => member) (by rw [saving]; rfl) trivial
    | saved snapshot saving =>
      apply recorded.goOn same
      intro earlier running
      exact running.keep (fun market member => member) (by rw [saving]; rfl) trivial
    | fail => exact absurd same nofun

/-- Every step keeps the record. -/
theorem Recorded.step (recorded : Recorded state)
    (taken : state.step action = some after) : Recorded after := by
  obtain ⟨later, stepped, rfl⟩ := Option.map_eq_some_iff.mp taken
  have running : ∀ cycle, state.cycleAfter later.polling action = some cycle →
      Running later.polling cycle := fun _ same => recorded.cycleAfter stepped same
  dsimp only
  split
  · rename_i ends
    refine ⟨nofun, ?_⟩
    intro cycle member
    rcases List.mem_append.mp member with before | new
    · exact recorded.ended cycle before
    · exact (running cycle (Option.mem_toList.mp new)).ended (Polling.ends_idle ends)
  · exact ⟨running, recorded.ended⟩

end Steps

/-- In every run of the pollers, with failures anywhere and whatever Gamma lists,
a cycle of the poller of new markets that ends without an exception leaves every
binary market that was listed at its fetch tracked, or taken out in the meantime,
exactly when each of them was tracked already or starts no earlier than the
watermark. -/
theorem listed_markets_are_tracked_iff {active : ActiveMarkets} {maxStartDate : Int}
    {actions : List Action} {final : State}
    (completed : Runs.run State.step (State.start active maxStartDate) actions = some final) :
    ∀ cycle ∈ final.cycles, cycle.Complete ↔ cycle.Visible := by
  have recorded : Recorded final :=
    Runs.invariant (fun _ _ _ taken holds => Recorded.step holds taken) completed ⟨nofun, nofun⟩
  intro cycle member
  exact (recorded.ended cycle member).complete_iff

/-- Three binary markets: one that starts at once, one in an hour, and one in
half an hour. -/
def startsAtOnce : ListedMarket := ⟨⟨"m1", ["Yes", "No"], ["y1", "n1"]⟩, some 0⟩

def startsInAnHour : ListedMarket := ⟨⟨"m2", ["Yes", "No"], ["y2", "n2"]⟩, some 3600000000⟩

def startsInHalfAnHour : ListedMarket := ⟨⟨"m3", ["Yes", "No"], ["y3", "n3"]⟩, some 1800000000⟩

/-- The market that starts at once was loaded, the one in an hour becomes listed. -/
def firstCycle : List Action :=
  [.fetchNew [startsInAnHour, startsAtOnce],
    .other (.take .landNewMarkets), .other (.take .resumeNewMarkets),
    .other (.take .landNewMarkets), .other (.take .resumeNewMarkets)]

/-- The pollers after a start with the first market. -/
def loadedFirst : State :=
  State.start (Tracker.activeMarkets (parseMarkets [startsAtOnce.raw])) 0

theorem first_cycle_is_complete :
    ∃ final, Runs.run State.step loadedFirst firstCycle = some final ∧
      final.cycles.length = 1 ∧ ∀ cycle ∈ final.cycles, cycle.Complete := by
  have visible : ∃ final, Runs.run State.step loadedFirst firstCycle = some final ∧
      final.cycles.length = 1 ∧ ∀ cycle ∈ final.cycles, cycle.Visible := by
    refine ⟨_, rfl, rfl, ?_⟩
    intro cycle isFirst
    obtain rfl := List.mem_singleton.mp isFirst
    rintro market ⟨listed, member, binary, rfl⟩
    refine Or.inr ⟨listed, member, binary, rfl, ?_⟩
    rcases List.mem_cons.mp member with rfl | later
    · exact ⟨3600000000, rfl, by decide⟩
    · obtain rfl := List.mem_singleton.mp later
      exact ⟨0, rfl, by decide⟩
  obtain ⟨final, completed, one, each⟩ := visible
  refine ⟨final, completed, one, ?_⟩
  intro cycle member
  exact (listed_markets_are_tracked_iff completed cycle member).mpr (each cycle member)

/-- The market that starts in half an hour becomes listed after that. The next
cycle ends without it, and nothing has been taken out. -/
theorem earlier_start_is_hidden :
    ∃ final, Runs.run State.step loadedFirst
        (firstCycle ++ [.fetchNew [startsInAnHour, startsInHalfAnHour, startsAtOnce]]) =
          some final ∧
      ∃ cycle ∈ final.cycles, cycle.removed = [] ∧ ¬ cycle.Complete := by
  refine ⟨_, rfl, _, List.mem_cons_of_mem _ (List.mem_singleton_self _), rfl, ?_⟩
  intro complete
  have listed := complete "m3"
    ⟨startsInHalfAnHour, List.mem_cons_of_mem _ List.mem_cons_self, rfl, rfl⟩
  revert listed
  decide

end Watermark

end Collector
