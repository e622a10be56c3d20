import Collector.Polling
import Mathlib.Data.List.TakeWhile

/-!
# Resolutions after an outage

A cycle of the resolution poller publishes and takes out the tracked markets
among the closed ones that it reads. It reads back to a cut-off that lies a
fixed time before the clock, whatever earlier cycles have seen. A market that
closed longer ago when a cycle succeeds again is not reached by it, nor by any
later one.
-/

namespace Collector.Outages

open Tracker (ClosedFetch Resolution Write closedTimeOverlap)
open Polling (Poll ResolveMoves)
open ClosedMarket (NewestFirst)

/-- A cycle of the resolution poller: the markets tracked, the clock and what
Gamma lists when it fetches, and what has been published and taken out since. -/
structure Cycle where
  active : List String
  now : Int
  listing : List ClosedMarket
  published : List Entry
  removed : List String

/-- The pollers, the cycle of the resolution poller that is running, and its
cycles that have ended without an exception. -/
structure State where
  polling : Polling
  cycle : Option Cycle
  cycles : List Cycle

/-- The pollers are about to start. -/
def start (active : ActiveMarkets) : State where
  polling := Polling.start active
  cycle := none
  cycles := []

/-- What a step adds to the cycle that is running. -/
def Cycle.goOn (cycle : Cycle) (polling next : Polling) (write : Write) : Cycle :=
  { cycle with
    published := cycle.published ++ write.published
    removed := cycle.removed ++
      polling.tracker.active.keys.filter fun market => market ∉ next.tracker.active }

/-- What becomes of the cycles in a step. A cycle begins with its fetch and ends
when its save has returned. -/
def State.record (state : State) (poll : Poll) (next : Polling) (write : Write) : State :=
  let cycle := state.cycle.map fun cycle => cycle.goOn state.polling next write
  match poll with
  | .fetchClosed now listing => { state with
      polling := next
      cycle := some ⟨state.polling.tracker.active.keys, now, listing, [], []⟩ }
  | .failResolution => { state with
      polling := next
      cycle := none }
  | .take .resumeResolution =>
    if next.tracker.resolution = .idle then
      { polling := next
        cycle := none
        cycles := state.cycles ++ cycle.toList }
    else { state with
      polling := next
      cycle := cycle }
  | _ => { state with
      polling := next
      cycle := cycle }

/-- One step of the pollers. -/
def step (state : State) (poll : Poll) : Option State :=
  (state.polling.step poll).map fun (next, write) => state.record poll next write

namespace Cycle

/-- Gamma lists the market as closed. -/
def Listed (cycle : Cycle) (market : String) : Prop :=
  ∃ record ∈ cycle.listing, record.conditionId = market

/-- The market has been published and taken out in the cycle. -/
def Done (cycle : Cycle) (market : String) : Prop :=
  serializeResolvedEvent market ∈ cycle.published ∧ market ∈ cycle.removed

/-- Every tracked market that Gamma lists as closed has been resolved. -/
def Resolved (cycle : Cycle) : Prop :=
  ∀ market ∈ cycle.active, cycle.Listed market → cycle.Done market

/-- The records of which neither they nor one listed before them closed before the cut-off. -/
def recent (cycle : Cycle) : List ClosedMarket :=
  cycle.listing.takeWhile fun record => !record.older (cycle.now - closedTimeOverlap)

/-- The market has an id and such a record. -/
def Reached (cycle : Cycle) (market : String) : Prop :=
  market ≠ "" ∧ ∃ record ∈ cycle.recent, record.conditionId = market

/-- Every tracked market that Gamma lists as closed did so within the overlap. -/
def InTime (cycle : Cycle) : Prop :=
  ∀ market ∈ cycle.active, cycle.Listed market → cycle.Reached market

instance (cycle : Cycle) : DecidablePred cycle.Listed := fun _ =>
  inferInstanceAs (Decidable (∃ record ∈ cycle.listing, _))

instance (cycle : Cycle) : DecidablePred cycle.Done := fun _ => inferInstanceAs (Decidable (_ ∧ _))

instance (cycle : Cycle) : Decidable cycle.Resolved :=
  inferInstanceAs (Decidable (∀ market ∈ cycle.active, _))

instance (cycle : Cycle) : DecidablePred cycle.Reached := fun _ =>
  inferInstanceAs (Decidable (_ ∧ ∃ record ∈ cycle.recent, _))

instance (cycle : Cycle) : Decidable cycle.InTime :=
  inferInstanceAs (Decidable (∀ market ∈ cycle.active, _))

/-- Of a listing that is newest first, a record with a closing time is a recent one exactly
when it did not itself close before the cut-off. -/
theorem mem_recent_iff {cycle : Cycle} (newestFirst : NewestFirst cycle.listing)
    {record : ClosedMarket} {closedTime : Int} (closed : record.closedTime = some closedTime) :
    record ∈ cycle.recent ↔
      record ∈ cycle.listing ∧ cycle.now - closedTimeOverlap ≤ closedTime := by
  have isOlder (cutoff : Int) : record.older cutoff = false ↔ cutoff ≤ closedTime := by
    simp [ClosedMarket.older, closed]
  rw [recent, ← isOlder]
  constructor
  · intro member
    exact ⟨List.takeWhile_subset _ member, by simpa using List.mem_takeWhile_imp member⟩
  · rintro ⟨member, notOlder⟩
    generalize cycle.listing = listing at newestFirst member
    induction listing with
    | nil => exact absurd member List.not_mem_nil
    | cons first rest inductionHypothesis =>
      rcases List.mem_cons.mp member with rfl | inRest
      · rw [List.takeWhile_cons_of_pos (by rw [notOlder]; rfl)]
        exact List.mem_cons_self
      · have firstNotOlder : first.older (cycle.now - closedTimeOverlap) = false := by
          by_contra older
          have alsoOlder := newestFirst.older (Bool.not_eq_false _ ▸ older) inRest closed
          rw [notOlder] at alsoOlder
          cases alsoOlder
        rw [List.takeWhile_cons_of_pos (by rw [firstNotOlder]; rfl)]
        exact List.mem_cons_of_mem first
          (inductionHypothesis (List.pairwise_cons.mp newestFirst).2 inRest)

end Cycle

section Reading

/-- What stands before the first older item stands on the page that has one. -/
theorem takeWhile_page {α : Type} {older : α → Bool} {page rest : List α}
    (stop : page.any older = true) :
    (page ++ rest).takeWhile (fun item => !older item) =
      page.takeWhile fun item => !older item := by
  induction page with
  | nil => cases stop
  | cons first page inductionHypothesis =>
    cases isOlder : older first with
    | true => simp [isOlder]
    | false =>
      rw [List.any_cons, isOlder, Bool.false_or] at stop
      simp [isOlder, inductionHypothesis stop]

/-- Reading a page matches the tracked markets before the first older one, and
stops if there is an older one. -/
theorem scanBatch_eq (active : ActiveMarkets) (cutoff : Int) (matched : List String)
    (batch : List ClosedMarket) :
    Tracker.scanBatch active cutoff matched batch =
      (matched ++ ((batch.takeWhile fun record => !record.older cutoff).map
          ClosedMarket.conditionId).filter (fun market => market ≠ "" ∧ market ∈ active),
        batch.any (ClosedMarket.older cutoff)) := by
  induction batch generalizing matched with
  | nil => simp [Tracker.scanBatch]
  | cons record rest inductionHypothesis =>
    rw [Tracker.scanBatch]
    cases isOlder : record.older cutoff with
    | true => simp [isOlder]
    | false =>
      rw [if_neg nofun, inductionHypothesis]
      by_cases tracked : record.conditionId ≠ "" ∧ record.conditionId ∈ active
      · simp [isOlder, tracked]
      · simp [isOlder, tracked]

variable {active : ActiveMarkets} {cycle : Cycle} {fetch : ClosedFetch}

/-- A fetch in the middle of a cycle: the markets that were tracked are, nothing that
has been read is older, and what has been read of them has matched. -/
structure Reading (active : ActiveMarkets) (cycle : Cycle) (fetch : ClosedFetch) : Prop where
  cutoff : fetch.cutoff = cycle.now - closedTimeOverlap
  listing : fetch.listing = cycle.listing
  tracked : ∀ market ∈ cycle.active, market ∈ active
  recent : ∀ record ∈ fetch.listing.take fetch.offset, record.older fetch.cutoff = false
  covers : ∀ record ∈ fetch.listing.take fetch.offset, record.conditionId ≠ "" →
    record.conditionId ∈ cycle.active → record.conditionId ∈ fetch.matched
  reached : ∀ market ∈ fetch.matched, cycle.Reached market

/-- What matches after one more page. -/
theorem mem_scanBatch {cutoff : Int} {matched : List String} {batch : List ClosedMarket}
    (market : String) :
    market ∈ (Tracker.scanBatch active cutoff matched batch).1 ↔ market ∈ matched ∨
      market ≠ "" ∧ market ∈ active ∧
        ∃ record ∈ batch.takeWhile fun record => !record.older cutoff,
          record.conditionId = market := by
  rw [scanBatch_eq, List.mem_append, List.mem_filter, List.mem_map, decide_eq_true_eq,
    and_comm, and_assoc]

/-- A listing is what has been read, the next page and the rest. -/
theorem listing_eq (fetch : ClosedFetch) :
    fetch.listing = fetch.listing.take fetch.offset ++
      (fetch.batch ++ (fetch.listing.drop fetch.offset).drop Tracker.fetchBatchSize) := by
  rw [ClosedFetch.batch, List.take_append_drop, List.take_append_drop]

/-- The recent records are those that have been read and the recent ones behind them. -/
theorem Reading.recent_eq (reading : Reading active cycle fetch) :
    cycle.recent = fetch.listing.take fetch.offset ++
      (fetch.batch ++ (fetch.listing.drop fetch.offset).drop Tracker.fetchBatchSize).takeWhile
        fun record => !record.older fetch.cutoff := by
  rw [Cycle.recent, ← reading.listing, ← reading.cutoff, listing_eq fetch,
    List.takeWhile_append_of_pos, ← listing_eq fetch]
  intro record member
  rw [reading.recent record member]
  rfl

/-- What a page matches has been reached. -/
theorem Reading.reached_page (reading : Reading active cycle fetch) :
    ∀ market ∈ (Tracker.scanBatch active fetch.cutoff fetch.matched fetch.batch).1,
      cycle.Reached market := by
  intro market member
  rcases (mem_scanBatch market).mp member with before | ⟨named, -, record, taken, same⟩
  · exact reading.reached market before
  · refine ⟨named, record, ?_, same⟩
    rw [reading.recent_eq, List.takeWhile_append]
    apply List.mem_append_right
    split
    · exact List.mem_append_left _ (List.takeWhile_subset _ taken)
    · exact taken

/-- The page that was read goes to what has been read. -/
theorem take_offset (fetch : ClosedFetch) :
    fetch.listing.take (fetch.offset + fetch.batch.length) =
      fetch.listing.take fetch.offset ++ fetch.batch := by
  rw [List.take_add, ClosedFetch.batch, List.length_take, ← List.take_eq_take_min]

/-- After a page without an older market the fetch goes on. -/
theorem Reading.goOn (reading : Reading active cycle fetch)
    (recent : fetch.batch.any (ClosedMarket.older fetch.cutoff) = false) :
    Reading active cycle { fetch with
      offset := fetch.offset + fetch.batch.length
      matched := (Tracker.scanBatch active fetch.cutoff fetch.matched fetch.batch).1 } where
  cutoff := reading.cutoff
  listing := reading.listing
  tracked := reading.tracked
  recent := by
    intro record member
    rw [take_offset] at member
    rcases List.mem_append.mp member with before | onPage
    · exact reading.recent record before
    · exact Bool.eq_false_iff.mpr (List.any_eq_false.mp recent record onPage)
  covers := by
    intro record member named tracked
    rw [take_offset] at member
    apply (mem_scanBatch _).mpr
    rcases List.mem_append.mp member with before | onPage
    · exact Or.inl (reading.covers record before named tracked)
    · refine Or.inr ⟨named, reading.tracked _ tracked, record, ?_, rfl⟩
      rw [List.takeWhile_eq_self_iff.mpr]
      · exact onPage
      · intro other isOther
        rw [List.any_eq_false.mp recent other isOther |> Bool.eq_false_iff.mpr]
        rfl
  reached := reading.reached_page

/-- A fetch that has been read to its end has matched every tracked market that
it reaches. -/
structure Read (cycle : Cycle) (matched : List String) : Prop where
  covers : ∀ market ∈ cycle.active, cycle.Reached market → market ∈ matched
  reached : ∀ market ∈ matched, cycle.Reached market

/-- An empty page ends the fetch. -/
theorem Reading.last_empty (reading : Reading active cycle fetch) (empty : fetch.batch = []) :
    Read cycle fetch.matched where
  covers := by
    intro market tracked reached
    obtain ⟨named, record, member, rfl⟩ := reached
    apply reading.covers record _ named tracked
    have through : fetch.listing.drop fetch.offset = [] :=
      (List.take_eq_nil_iff.mp empty).resolve_left nofun
    rw [reading.recent_eq, empty, through] at member
    simpa using member
  reached := reading.reached

/-- A page with an older market ends the fetch: nothing behind it is reached. -/
theorem Reading.last_older (reading : Reading active cycle fetch)
    (stop : fetch.batch.any (ClosedMarket.older fetch.cutoff) = true) :
    Read cycle (Tracker.scanBatch active fetch.cutoff fetch.matched fetch.batch).1 where
  covers := by
    intro market tracked reached
    obtain ⟨named, record, member, rfl⟩ := reached
    apply (mem_scanBatch _).mpr
    rw [reading.recent_eq, takeWhile_page stop] at member
    rcases List.mem_append.mp member with before | onward
    · exact Or.inl (reading.covers record before named tracked)
    · exact Or.inr ⟨named, reading.tracked _ tracked, record, onward, rfl⟩
  reached := reading.reached_page

/-- The closed markets that the poller has still to go through. -/
def queue : Resolution → List String
  | .publishing market rest _ => market :: rest
  | _ => []

/-- The poller passes over markets that are not tracked. -/
theorem resolveNext_queue (active : ActiveMarkets) (closed : List String) :
    ∃ skipped, closed = skipped ++ queue (Tracker.resolveNext active closed) ∧
      ∀ market ∈ skipped, market ∉ active := by
  induction closed with
  | nil => exact ⟨[], rfl, nofun⟩
  | cons market rest inductionHypothesis =>
    rw [Tracker.resolveNext]
    split
    · exact ⟨[], rfl, nofun⟩
    · rename_i untracked
      obtain ⟨skipped, same, absent⟩ := inductionHypothesis
      refine ⟨market :: skipped, congrArg (market :: ·) same, ?_⟩
      exact List.forall_mem_cons.mpr ⟨untracked, absent⟩

/-- The poller sends the resolution of a tracked market. -/
theorem resolveNext_publishing {closed rest : List String} {market : String} {landed : Bool}
    (publishing : Tracker.resolveNext active closed = .publishing market rest landed) :
    market ∈ active ∧ landed = false := by
  induction closed with
  | nil => exact absurd publishing nofun
  | cons other closed inductionHypothesis =>
    rw [Tracker.resolveNext] at publishing
    split at publishing
    · rename_i tracked
      obtain ⟨rfl, rfl, rfl⟩ := Resolution.publishing.inj publishing
      exact ⟨tracked, rfl⟩
    · exact inductionHypothesis publishing

/-- Going on is never the end of a cycle. -/
theorem resolveNext_ne_idle (active : ActiveMarkets) (closed : List String) :
    Tracker.resolveNext active closed ≠ .idle := by
  induction closed with
  | nil =>
    intro same
    cases same
  | cons market rest inductionHypothesis =>
    rw [Tracker.resolveNext]
    split
    · intro same
      cases same
    · exact inductionHypothesis

/-- The poller goes through what has matched: every reached market is done or in
the queue, and what has landed has been published. -/
structure Resolving (active : ActiveMarkets) (cycle : Cycle) (resolution : Resolution) :
    Prop where
  tracked : ∀ market ∈ cycle.active, market ∈ active ∨ cycle.Done market
  covers : ∀ market ∈ cycle.active, cycle.Reached market →
    market ∈ queue resolution ∨ cycle.Done market
  reached : ∀ market ∈ queue resolution, cycle.Reached market
  current : ∀ market rest landed, resolution = .publishing market rest landed →
    market ∈ active ∧ (landed = true → serializeResolvedEvent market ∈ cycle.published)

/-- Going on with closed markets that are reached. -/
theorem resolving_resolveNext {closed : List String}
    (tracked : ∀ market ∈ cycle.active, market ∈ active ∨ cycle.Done market)
    (covers : ∀ market ∈ cycle.active, cycle.Reached market → market ∈ closed ∨ cycle.Done market)
    (reached : ∀ market ∈ closed, cycle.Reached market) :
    Resolving active cycle (Tracker.resolveNext active closed) := by
  obtain ⟨skipped, same, absent⟩ := resolveNext_queue active closed
  refine ⟨tracked, ?_, ?_, ?_⟩
  · intro market wasTracked isReached
    rcases covers market wasTracked isReached with inClosed | done
    · rw [same] at inClosed
      rcases List.mem_append.mp inClosed with passed | queued
      · exact Or.inr ((tracked market wasTracked).resolve_left (absent market passed))
      · exact Or.inl queued
    · exact Or.inr done
  · intro market queued
    apply reached
    rw [same]
    exact List.mem_append_right skipped queued
  · intro market rest landed publishing
    obtain ⟨isTracked, rfl⟩ := resolveNext_publishing publishing
    exact ⟨isTracked, nofun⟩

/-- Where the poller is in its cycle. -/
def Phase (polling : Polling) (cycle : Cycle) : Prop :=
  match polling.fetch with
  | some fetch => polling.tracker.resolution = .idle ∧
      Reading polling.tracker.active cycle fetch
  | none => Resolving polling.tracker.active cycle polling.tracker.resolution

/-- The cycle that is running publishes only what it reaches. -/
structure Running (polling : Polling) (cycle : Cycle) : Prop where
  published : ∀ market, serializeResolvedEvent market ∈ cycle.published → cycle.Reached market
  phase : Phase polling cycle

/-- A cycle that has ended has resolved what it reached and published nothing else. -/
structure Ended (cycle : Cycle) : Prop where
  covers : ∀ market ∈ cycle.active, cycle.Reached market → cycle.Done market
  published : ∀ market, serializeResolvedEvent market ∈ cycle.published → cycle.Reached market

/-- Such a cycle has resolved everything just when everything was in time. -/
theorem Ended.resolved_iff (ended : Ended cycle) : cycle.Resolved ↔ cycle.InTime := by
  constructor
  · intro resolved market tracked listed
    exact ended.published market (resolved market tracked listed).1
  · intro inTime market tracked listed
    exact ended.covers market tracked (inTime market tracked listed)

end Reading

section Steps

variable {cycle : Cycle} {polling next : Polling} {write : Write}

/-- What a cycle has done stays done. -/
theorem Cycle.Done.goOn {market : String} (done : cycle.Done market) (polling next : Polling)
    (write : Write) : (cycle.goOn polling next write).Done market :=
  ⟨List.mem_append_left _ done.1, List.mem_append_left _ done.2⟩

/-- A step that leaves the queue and takes nothing out goes on with it. -/
theorem Resolving.goOn {active larger : ActiveMarkets} {resolution later : Resolution}
    (resolving : Resolving active cycle resolution)
    (kept : ∀ market ∈ active, market ∈ larger) (same : queue later = queue resolution)
    (current : ∀ market rest landed, later = .publishing market rest landed →
      market ∈ larger ∧ (landed = true →
        serializeResolvedEvent market ∈ (cycle.goOn polling next write).published)) :
    Resolving larger (cycle.goOn polling next write) later where
  tracked := by
    intro market member
    exact (resolving.tracked market member).imp (kept market) fun done => done.goOn _ _ _
  covers := by
    intro market member reached
    rw [same]
    exact (resolving.covers market member reached).imp_right fun done => done.goOn _ _ _
  reached := by
    rw [same]
    exact resolving.reached
  current := current

/-- A step of the other poller leaves the cycle where it is. -/
theorem Phase.aside {tracker : Tracker} (phase : Phase polling cycle)
    (same : tracker.resolution = polling.tracker.resolution)
    (kept : ∀ market ∈ polling.tracker.active, market ∈ tracker.active) :
    Phase { polling with tracker := tracker }
      (cycle.goOn polling { polling with tracker := tracker } write) := by
  obtain ⟨before, fetch⟩ := polling
  cases fetch with
  | some fetch =>
    obtain ⟨idle, reading⟩ := phase
    have tracked : ∀ market ∈ cycle.active, market ∈ tracker.active :=
      fun market member => kept market (reading.tracked market member)
    exact ⟨same.trans idle, reading.cutoff, reading.listing, tracked, reading.recent,
      reading.covers, reading.reached⟩
  | none =>
    apply Resolving.goOn phase kept (congrArg queue same)
    intro market rest landed publishing
    rw [same] at publishing
    obtain ⟨isTracked, published⟩ := phase.current market rest landed publishing
    exact ⟨kept market isTracked, fun isLanded => List.mem_append_left _ (published isLanded)⟩

/-- In a cycle without a fetch the poller goes through what has matched. -/
theorem Phase.resolving (phase : Phase polling cycle)
    (busy : polling.tracker.resolution ≠ .idle) :
    polling.fetch = none ∧ Resolving polling.tracker.active cycle polling.tracker.resolution := by
  obtain ⟨tracker, fetch⟩ := polling
  cases fetch with
  | some fetch => exact absurd phase.1 busy
  | none => exact ⟨rfl, phase⟩

/-- A step that publishes nothing keeps what has been published. -/
theorem Running.silent (running : Running polling cycle) (phase : Phase next
      (cycle.goOn polling next write))
    (silent : ∀ market, serializeResolvedEvent market ∉ write.published) :
    Running next (cycle.goOn polling next write) where
  published := by
    intro market member
    rcases List.mem_append.mp member with before | new
    · exact running.published market before
    · exact absurd new (silent market)
  phase := phase

/-- Another page is read, or it was the last one. -/
theorem Running.read {fetch : ClosedFetch} (running : Running polling cycle)
    (fetching : polling.fetch = some fetch) :
    Running (polling.readPage fetch) (cycle.goOn polling (polling.readPage fetch) .nothing) := by
  apply running.silent _ fun market => List.not_mem_nil
  obtain ⟨tracker, fetched⟩ := polling
  obtain rfl : fetched = some fetch := fetching
  obtain ⟨idle, reading⟩ := running.phase
  generalize moved : Polling.readPage ⟨tracker, some fetch⟩ fetch = next
  have finish : ∀ matched, Read cycle matched →
      Resolving tracker.active (cycle.goOn ⟨tracker, some fetch⟩ next .nothing)
        (Tracker.resolveNext tracker.active matched) := by
    intro matched read
    apply resolving_resolveNext
    · exact fun market member => Or.inl (reading.tracked market member)
    · exact fun market member reached => Or.inl (read.covers market member reached)
    · exact read.reached
  rw [Polling.readPage, ClosedFetch.readPage] at moved
  split at moved
  rename_i after last page
  split at page
  · rename_i empty
    obtain ⟨rfl, rfl⟩ := Prod.mk.inj page
    subst moved
    exact finish fetch.matched (reading.last_empty empty)
  · obtain ⟨rfl, rfl⟩ := Prod.mk.inj page
    have stops := congrArg Prod.snd
      (scanBatch_eq tracker.active fetch.cutoff fetch.matched fetch.batch)
    split at moved
    · rename_i stop
      subst moved
      exact finish _ (reading.last_older (stops.symm.trans stop))
    · rename_i goes
      subst moved
      have onward := reading.goOn (stops.symm.trans (Bool.eq_false_iff.mpr goes))
      exact ⟨idle, onward.cutoff, onward.listing, onward.tracked, onward.recent, onward.covers,
        onward.reached⟩

/-- The resolution that was sent arrives. -/
theorem Running.land {market : String} {rest : List String} (running : Running polling cycle)
    (publishing : polling.tracker.resolution = .publishing market rest false)
    (moved : next = { polling with tracker := { polling.tracker with
      resolution := .publishing market rest true } }) :
    Running next (cycle.goOn polling next (.xadd (serializeResolvedEvent market))) := by
  obtain ⟨none, resolving⟩ := running.phase.resolving (by rw [publishing]; nofun)
  rw [publishing] at resolving
  obtain ⟨tracker, fetch⟩ := polling
  obtain rfl : fetch = .none := none
  refine ⟨?_, ?_⟩
  · intro other member
    rcases List.mem_append.mp member with before | new
    · exact running.published other before
    · obtain rfl : other = market := by
        have same := Entry.marketResolved.inj (List.mem_singleton.mp new)
        exact congrArg MarketResolvedPayload.market same
      exact resolving.reached other List.mem_cons_self
  · subst moved
    have sameQueue : queue (.publishing market rest true) =
      queue (.publishing market rest false) := rfl
    apply Resolving.goOn resolving (fun other member => member) sameQueue
    intro other later landed same
    obtain ⟨rfl, rfl, rfl⟩ := Resolution.publishing.inj same
    refine ⟨(resolving.current market rest false rfl).1, fun _ => ?_⟩
    exact List.mem_append_right _ (List.mem_singleton_self _)

/-- The market is taken out once its resolution has returned. -/
theorem Running.remove {market : String} {rest : List String} (running : Running polling cycle)
    (publishing : polling.tracker.resolution = .publishing market rest true)
    (moved : next = { polling with tracker := { polling.tracker with
      active := polling.tracker.active.erase market
      resolution := Tracker.resolveNext (polling.tracker.active.erase market) rest } }) :
    Running next (cycle.goOn polling next .nothing) := by
  apply running.silent _ fun market => List.not_mem_nil
  obtain ⟨none, resolving⟩ := running.phase.resolving (by rw [publishing]; nofun)
  rw [publishing] at resolving
  obtain ⟨tracker, fetch⟩ := polling
  obtain rfl : fetch = .none := none
  subst moved
  obtain ⟨tracked, landed⟩ := resolving.current market rest true rfl
  have done : (cycle.goOn ⟨tracker, .none⟩ ⟨{ tracker with
      active := tracker.active.erase market
      resolution := Tracker.resolveNext (tracker.active.erase market) rest }, .none⟩
      .nothing).Done market := by
    refine ⟨List.mem_append_left _ (landed rfl), List.mem_append_right _ ?_⟩
    refine List.mem_filter.mpr ⟨AList.mem_keys.mp tracked, decide_eq_true ?_⟩
    exact fun kept => (AList.mem_erase.mp kept).1 rfl
  apply resolving_resolveNext
  · intro other member
    by_cases same : other = market
    · exact Or.inr (same ▸ done)
    · refine (resolving.tracked other member).imp ?_ fun done => done.goOn _ _ _
      exact fun isTracked => AList.mem_erase.mpr ⟨same, isTracked⟩
  · intro other member reached
    rcases resolving.covers other member reached with queued | alreadyDone
    · rcases List.mem_cons.mp queued with rfl | later
      · exact Or.inr done
      · exact Or.inl later
    · exact Or.inr (alreadyDone.goOn _ _ _)
  · intro other queued
    exact resolving.reached other (List.mem_cons_of_mem market queued)

/-- The save that was sent arrives. -/
theorem Running.landSave {snapshot : List Market} (running : Running polling cycle)
    (saving : polling.tracker.resolution = .saving snapshot false)
    (moved : next = { polling with tracker := { polling.tracker with
      resolution := .saving snapshot true } }) :
    Running next (cycle.goOn polling next (.set snapshot)) := by
  apply running.silent _ fun market => List.not_mem_nil
  obtain ⟨none, resolving⟩ := running.phase.resolving (by rw [saving]; nofun)
  rw [saving] at resolving
  obtain ⟨tracker, fetch⟩ := polling
  obtain rfl : fetch = .none := none
  subst moved
  have sameQueue : queue (.saving snapshot true) = queue (.saving snapshot false) := rfl
  exact Resolving.goOn resolving (fun market member => member) sameQueue nofun

/-- Once the save has returned nothing is left in the queue. -/
theorem Running.saved {snapshot : List Market} {landed : Bool} (running : Running polling cycle)
    (saving : polling.tracker.resolution = .saving snapshot landed) :
    Ended (cycle.goOn polling next .nothing) where
  covers := by
    intro market member reached
    obtain ⟨-, resolving⟩ := running.phase.resolving (by rw [saving]; nofun)
    rw [saving] at resolving
    exact ((resolving.covers market member reached).resolve_left List.not_mem_nil).goOn _ _ _
  published := by
    intro market member
    rcases List.mem_append.mp member with before | new
    · exact running.published market before
    · exact absurd new List.not_mem_nil

/-- The cycle that is running and the ones that have ended are as they should be. -/
structure Recorded (state : State) : Prop where
  running : ∀ cycle, state.cycle = some cycle → Running state.polling cycle
  ended : ∀ cycle ∈ state.cycles, Ended cycle

variable {state after : State} {poll : Poll}

/-- A step of the other poller goes on with the cycle. -/
theorem record_aside (other : ¬ poll.Resolves) : state.record poll next write = { state with
    polling := next
    cycle := state.cycle.map fun cycle => cycle.goOn state.polling next write } := by
  cases poll with
  | fetchClosed now listing | readPage | failResolution => exact absurd trivial other
  | failNewMarkets => rfl
  | take action =>
    cases action with
    | landResolution | resumeResolution => exact absurd trivial other
    | fetchClosed closed | fetchNew listed | landNewMarkets | resumeNewMarkets => rfl

/-- A step that goes on with the cycle keeps the record. -/
theorem Recorded.goOn (recorded : Recorded state)
    (kept : ∀ cycle, Running state.polling cycle →
      Running next (cycle.goOn state.polling next write)) :
    Recorded { state with
      polling := next
      cycle := state.cycle.map fun cycle => cycle.goOn state.polling next write } where
  running := by
    intro later same
    obtain ⟨cycle, before, rfl⟩ := Option.map_eq_some_iff.mp same
    exact kept cycle (recorded.running cycle before)
  ended := recorded.ended

/-- A cycle begins with nothing read. -/
theorem running_begin (polling : Polling) {now : Int} {listing : List ClosedMarket}
    (idle : polling.tracker.resolution = .idle) :
    Running { polling with fetch := some ⟨now - closedTimeOverlap, listing, 0, []⟩ }
      ⟨polling.tracker.active.keys, now, listing, [], []⟩ where
  published := nofun
  phase := by
    refine ⟨idle, rfl, rfl, ?_, ?_, ?_, nofun⟩
    · exact fun market member => AList.mem_keys.mpr member
    · intro record member
      exact absurd member (by simp)
    · intro record member
      exact absurd member (by simp)

/-- Every step keeps the record. -/
theorem Recorded.step (recorded : Recorded state)
    (taken : Outages.step state poll = some after) : Recorded after := by
  obtain ⟨⟨polling, write⟩, stepped, rfl⟩ := Option.map_eq_some_iff.mp taken
  have moves := Polling.resolveMoves_of_step stepped
  cases moves with
  | aside _ tracker _ other same kept silent =>
    show Recorded (state.record poll _ _)
    rw [record_aside other]
    apply recorded.goOn
    intro cycle running
    exact running.silent (running.phase.aside same kept) silent
  | begin now listing idle =>
    refine ⟨?_, recorded.ended⟩
    intro cycle same
    obtain rfl := Option.some.inj same
    exact running_begin state.polling idle
  | read fetch fetching => exact recorded.goOn fun cycle running => running.read fetching
  | land market rest publishing =>
    exact recorded.goOn fun cycle running => running.land publishing rfl
  | remove market rest publishing =>
    have busy := resolveNext_ne_idle (state.polling.tracker.active.erase market) rest
    show Recorded (state.record _ _ _)
    rw [State.record, if_neg busy]
    exact recorded.goOn fun cycle running => running.remove publishing rfl
  | landSave snapshot saving =>
    exact recorded.goOn fun cycle running => running.landSave saving rfl
  | saved snapshot saving =>
    refine ⟨nofun, ?_⟩
    intro ended member
    rcases List.mem_append.mp member with before | new
    · exact recorded.ended ended before
    · obtain ⟨cycle, isRunning, rfl⟩ := Option.map_eq_some_iff.mp (Option.mem_toList.mp new)
      exact (recorded.running cycle isRunning).saved saving
  | fail => exact ⟨nofun, recorded.ended⟩

end Steps

/-- In every run of the pollers, with failures anywhere, a cycle of the
resolution poller that ends without an exception has published and taken out
every tracked market that Gamma lists as closed exactly when each of them has an
id and a record that, like every record listed before it, did not close further
back than the overlap. -/
theorem closed_markets_are_resolved_iff {active : ActiveMarkets} {polls : List Poll}
    {final : State} (completed : Runs.run step (start active) polls = some final) :
    ∀ cycle ∈ final.cycles, cycle.Resolved ↔ cycle.InTime := by
  have recorded : Recorded final :=
    Runs.invariant (fun _ _ _ taken holds => Recorded.step holds taken) completed ⟨nofun, nofun⟩
  intro cycle member
  exact (recorded.ended cycle member).resolved_iff

/-- Two markets, each with its two assets. -/
def twoTracked : ActiveMarkets :=
  Tracker.activeMarkets [⟨"m1", "y1", "n1"⟩, ⟨"m2", "y2", "n2"⟩]

/-- One of them closed at minute 0 and the other a minute later. -/
def bothClosed : List ClosedMarket := [⟨"m2", some 60000000⟩, ⟨"m1", some 0⟩]

/-- A cycle ten minutes later that resolves both. -/
def tenMinutesLater : List Poll :=
  [.fetchClosed 600000000 bothClosed, .readPage, .readPage,
    .take .landResolution, .take .resumeResolution,
    .take .landResolution, .take .resumeResolution,
    .take .landResolution, .take .resumeResolution]

theorem both_are_resolved_in_time :
    ∃ final, Runs.run step (start twoTracked) tenMinutesLater = some final ∧
      final.cycles.length = 1 ∧ ∀ cycle ∈ final.cycles, cycle.Resolved := by
  have inTime : ∃ final, Runs.run step (start twoTracked) tenMinutesLater = some final ∧
      final.cycles.length = 1 ∧ ∀ cycle ∈ final.cycles, cycle.InTime := by
    refine ⟨_, rfl, rfl, ?_⟩
    intro cycle member
    obtain rfl := List.mem_singleton.mp member
    decide
  obtain ⟨final, completed, one, each⟩ := inTime
  refine ⟨final, completed, one, ?_⟩
  intro cycle member
  exact (closed_markets_are_resolved_iff completed cycle member).mpr (each cycle member)

/-- Polling fails for an hour. The next cycle succeeds, and resolves neither. -/
theorem closed_in_an_outage_is_never_resolved :
    NewestFirst bothClosed ∧
    ∃ final, Runs.run step (start twoTracked)
        [.failResolution, .fetchClosed 3600000000 bothClosed, .readPage,
          .take .landResolution, .take .resumeResolution] = some final ∧
      ∃ cycle ∈ final.cycles, ¬ cycle.Resolved := by
  refine ⟨by decide, _, rfl, _, List.mem_singleton_self _, ?_⟩
  decide

end Collector.Outages
