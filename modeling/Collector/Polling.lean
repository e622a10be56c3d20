import Collector.Tracker

/-!
# Polling that fails

The pollers of the tracker catch every exception of a cycle, log it and start
over after the interval. A cycle fails at a fetch, at a publish or at the save
of the cache, and a publish or a save that raises may or may not have arrived.
What a failed cycle has done to the set of active markets stays.

The resolution poller reads the closed markets page by page, newest first. It
stops at the first one that closed before a cut-off, which lies a fixed time
before the clock reading at the start of the fetch.
-/

namespace Collector

/-- A closed market as Gamma lists it, with its closing time where that can be read. -/
structure ClosedMarket where
  conditionId : String
  closedTime : Option Int
deriving DecidableEq

namespace ClosedMarket

/-- The market closed before the cut-off. -/
def older (cutoff : Int) (market : ClosedMarket) : Bool :=
  market.closedTime.any fun closedTime => closedTime < cutoff

/-- A listing by closing time, newest first, wherever a market without one stands. -/
def NewestFirst (listing : List ClosedMarket) : Prop :=
  listing.Pairwise fun earlier later => ∀ closedTime, earlier.closedTime = some closedTime →
    ∀ laterTime, later.closedTime = some laterTime → laterTime ≤ closedTime

instance : DecidablePred NewestFirst := fun listing =>
  decidable_of_iff (listing.Pairwise fun earlier later =>
      earlier.closedTime.all fun closedTime =>
        later.closedTime.all fun laterTime => laterTime ≤ closedTime) <| by
    simp [NewestFirst, Option.all_eq_true]

/-- In such a listing every market that closed behind an older one is older. -/
theorem NewestFirst.older {first later : ClosedMarket} {rest : List ClosedMarket} {cutoff : Int}
    (newestFirst : NewestFirst (first :: rest)) (isOlder : first.older cutoff = true)
    (member : later ∈ rest) {laterTime : Int} (closed : later.closedTime = some laterTime) :
    later.older cutoff = true := by
  obtain ⟨closedTime, same, before⟩ := Option.any_eq_true _ _ |>.mp isOlder
  have lower := (List.pairwise_cons.mp newestFirst).1 later member closedTime same laterTime closed
  rw [ClosedMarket.older, closed, Option.any_some, decide_eq_true_eq]
  exact lt_of_le_of_lt lower (of_decide_eq_true before)

end ClosedMarket

namespace Tracker

/-- `CLOSED_TIME_OVERLAP` in microseconds. -/
def closedTimeOverlap : Int := 30 * 60 * 1000000

/-- `FETCH_BATCH_SIZE`. -/
def fetchBatchSize : Nat := 100

/-- Read a page up to the first older market; the tracked ones match. -/
def scanBatch (active : ActiveMarkets) (cutoff : Int) (matched : List String) :
    List ClosedMarket → List String × Bool
  | [] => (matched, false)
  | market :: rest =>
    if market.older cutoff then (matched, true)
    else
      scanBatch active cutoff
        (if market.conditionId ≠ "" ∧ market.conditionId ∈ active then
          matched ++ [market.conditionId]
        else matched) rest

/-- A fetch of closed markets: what Gamma lists and how far it has been read. -/
structure ClosedFetch where
  cutoff : Int
  listing : List ClosedMarket
  offset : Nat
  matched : List String
deriving DecidableEq

namespace ClosedFetch

/-- The page that Gamma returns next. -/
def batch (fetch : ClosedFetch) : List ClosedMarket :=
  (fetch.listing.drop fetch.offset).take fetchBatchSize

/-- Read one page, and whether it was the last one. -/
def readPage (active : ActiveMarkets) (fetch : ClosedFetch) : ClosedFetch × Bool :=
  if fetch.batch = [] then (fetch, true)
  else
    let (matched, stop) := scanBatch active fetch.cutoff fetch.matched fetch.batch
    ({ fetch with
      offset := fetch.offset + fetch.batch.length
      matched := matched }, stop)

end ClosedFetch

end Tracker

/-- The tracker with its resolution poller possibly in the middle of a fetch. -/
structure Polling where
  tracker : Tracker
  fetch : Option Tracker.ClosedFetch

namespace Polling

open Tracker (ClosedFetch Write)

/-- The pollers are about to start. -/
def start (active : ActiveMarkets) : Polling where
  tracker := Tracker.start active
  fetch := none

/-- The steps of the pollers. A fetch of closed markets starts at a time of the
clock and is read page by page, and a cycle of either poller may fail anywhere. -/
inductive Poll where
  | fetchClosed (now : Int) (listing : List ClosedMarket)
  | readPage
  | failResolution
  | failNewMarkets
  | take (action : Tracker.Action)
deriving DecidableEq

/-- The resolution poller has read a page and goes on with what matched after the
last one. -/
def readPage (polling : Polling) (fetch : ClosedFetch) : Polling :=
  let (fetch, last) := fetch.readPage polling.tracker.active
  if last then
    { tracker := { polling.tracker with
        resolution := Tracker.resolveNext polling.tracker.active fetch.matched }
      fetch := none }
  else { polling with fetch := some fetch }

/-- One step and what it writes. -/
def step (polling : Polling) : Poll → Option (Polling × Write)
  | .fetchClosed now listing =>
    if polling.tracker.resolution = .idle ∧ polling.fetch = none then
      some ({ polling with
        fetch := some ⟨now - Tracker.closedTimeOverlap, listing, 0, []⟩ }, .nothing)
    else none
  | .readPage => polling.fetch.map fun fetch => (polling.readPage fetch, .nothing)
  | .failResolution =>
    some ({ tracker := { polling.tracker with resolution := .idle }
            fetch := none }, .nothing)
  | .failNewMarkets =>
    some ({ polling with tracker := { polling.tracker with newMarkets := .idle } }, .nothing)
  | .take (.fetchClosed _) => none
  | .take action =>
    (polling.tracker.step action).map fun (tracker, write) =>
      ({ polling with tracker := tracker }, write)

/-- A cycle of the poller of new markets ends without an exception after its
batch or after its save. -/
def ends (next : Polling) : Poll → Bool
  | .take (.fetchNew _) => next.tracker.newMarkets = .idle
  | .take .resumeNewMarkets => next.tracker.newMarkets = .idle
  | _ => false

/-- A cycle ends with nothing left to publish. -/
theorem ends_idle {next : Polling} {poll : Poll} (ended : next.ends poll = true) :
    next.tracker.newMarkets = .idle := by
  unfold ends at ended
  split at ended
  · exact of_decide_eq_true ended
  · exact of_decide_eq_true ended
  · exact absurd ended nofun

/-- A step of the poller of new markets. -/
def Poll.AddsMarkets : Poll → Prop
  | .failNewMarkets => True
  | .take (.fetchNew _) => True
  | .take .landNewMarkets => True
  | .take .resumeNewMarkets => True
  | _ => False

section Views

variable {polling next : Polling} {poll : Poll} {write : Write}

/-- The steps as the poller of new markets sees them. The other poller only takes
markets out. -/
inductive AddMoves (polling : Polling) : Poll → Polling → Write → Prop where
  | aside (poll : Poll) (next : Polling) (write : Write) (other : ¬ poll.AddsMarkets)
      (same : next.tracker.newMarkets = polling.tracker.newMarkets)
      (kept : ∀ market ∈ next.tracker.active, market ∈ polling.tracker.active) :
      AddMoves polling poll next write
  | begin (listed : List RawMarket) (next : Polling)
      (idle : polling.tracker.newMarkets = .idle)
      (added : Tracker.Next listed polling.tracker.active 0 (parseMarkets listed)
        (next.tracker.active, next.tracker.newMarkets)) :
      AddMoves polling (.take (.fetchNew listed)) next .nothing
  | land (raw : RawMarket) (rest : List Market) (rawMarkets : List RawMarket) (added : Nat)
      (publishing : polling.tracker.newMarkets = .publishing raw rest rawMarkets added false) :
      AddMoves polling (.take .landNewMarkets)
        { polling with tracker := { polling.tracker with
            newMarkets := .publishing raw rest rawMarkets added true } }
        (.xadd (serializeNewMarketEvent raw))
  | goOn (raw : RawMarket) (rest : List Market) (rawMarkets : List RawMarket) (added : Nat)
      (next : Polling)
      (publishing : polling.tracker.newMarkets = .publishing raw rest rawMarkets added true)
      (added : (∀ market ∈ rest, market ∈ parseMarkets rawMarkets) →
        Tracker.Next rawMarkets polling.tracker.active added rest
          (next.tracker.active, next.tracker.newMarkets)) :
      AddMoves polling (.take .resumeNewMarkets) next .nothing
  | landSave (snapshot : List Market)
      (saving : polling.tracker.newMarkets = .saving snapshot false) :
      AddMoves polling (.take .landNewMarkets)
        { polling with tracker := { polling.tracker with newMarkets := .saving snapshot true } }
        (.set snapshot)
  | saved (snapshot : List Market)
      (saving : polling.tracker.newMarkets = .saving snapshot true) :
      AddMoves polling (.take .resumeNewMarkets)
        { polling with tracker := { polling.tracker with newMarkets := .idle } } .nothing
  | fail :
      AddMoves polling .failNewMarkets
        { polling with tracker := { polling.tracker with newMarkets := .idle } } .nothing

/-- A step of the tracker that was taken. -/
theorem step_take {action : Tracker.Action}
    (taken : step polling (.take action) = some (next, write)) :
    ∃ tracker, polling.tracker.step action = some (tracker, write) ∧
      next = { polling with tracker := tracker } := by
  cases action with
  | fetchClosed closed => exact absurd taken (by simp [step])
  | landResolution | resumeResolution | fetchNew listed | landNewMarkets | resumeNewMarkets =>
    obtain ⟨⟨tracker, wrote⟩, stepped, same⟩ := Option.map_eq_some_iff.mp taken
    obtain ⟨rfl, rfl⟩ := Prod.mk.inj same
    exact ⟨tracker, stepped, rfl⟩

/-- A page changes neither the markets nor the poller of new ones. -/
theorem readPage_tracker (polling : Polling) (fetch : ClosedFetch) :
    (polling.readPage fetch).tracker.newMarkets = polling.tracker.newMarkets ∧
      (polling.readPage fetch).tracker.active = polling.tracker.active := by
  rw [readPage]
  split
  split <;> exact ⟨rfl, rfl⟩

/-- A step that was taken is one of these. -/
theorem addMoves_of_step (taken : step polling poll = some (next, write)) :
    AddMoves polling poll next write := by
  cases poll with
  | fetchClosed now listing =>
    obtain ⟨-, same⟩ := Runs.guarded taken
    obtain ⟨rfl, rfl⟩ := Prod.mk.inj same
    exact .aside _ _ _ nofun rfl fun market member => member
  | readPage =>
    obtain ⟨fetch, -, same⟩ := Option.map_eq_some_iff.mp taken
    obtain ⟨rfl, rfl⟩ := Prod.mk.inj same
    obtain ⟨newMarkets, active⟩ := readPage_tracker polling fetch
    exact .aside _ _ _ nofun newMarkets fun market member => active ▸ member
  | failResolution =>
    obtain ⟨rfl, rfl⟩ := Prod.mk.inj (Option.some.inj taken)
    exact .aside _ _ _ nofun rfl fun market member => member
  | failNewMarkets =>
    obtain ⟨rfl, rfl⟩ := Prod.mk.inj (Option.some.inj taken)
    exact .fail
  | take action =>
    obtain ⟨tracker, stepped, rfl⟩ := step_take taken
    cases Tracker.effect_of_step stepped with
    | fetchClosed closed => exact absurd taken nofun
    | landResolved | landResolvedSave | resolvedSaved =>
      exact .aside _ _ _ nofun rfl fun market member => member
    | remove market rest publishing =>
      exact .aside _ _ _ nofun rfl fun other member => (AList.mem_erase.mp member).2
    | fetchNew listed idle =>
      exact .begin listed _ idle (Tracker.next_addNext 0 fun market member => member)
    | landNew raw rest rawMarkets added publishing =>
      exact .land raw rest rawMarkets added publishing
    | landNewSave snapshot saving => exact .landSave snapshot saving
    | addMore raw rest rawMarkets added publishing =>
      exact .goOn raw rest rawMarkets added _ publishing (Tracker.next_addNext added)
    | newSaved snapshot saving => exact .saved snapshot saving

/-- A step of the resolution poller. -/
def Poll.Resolves : Poll → Prop
  | .fetchClosed _ _ => True
  | .readPage => True
  | .failResolution => True
  | .take .landResolution => True
  | .take .resumeResolution => True
  | _ => False

/-- The steps as the resolution poller sees them. The other poller takes no
market out and publishes no resolution. -/
inductive ResolveMoves (polling : Polling) : Poll → Polling → Write → Prop where
  | aside (poll : Poll) (tracker : Tracker) (write : Write) (other : ¬ poll.Resolves)
      (same : tracker.resolution = polling.tracker.resolution)
      (kept : ∀ market ∈ polling.tracker.active, market ∈ tracker.active)
      (silent : ∀ market, serializeResolvedEvent market ∉ write.published) :
      ResolveMoves polling poll { polling with tracker := tracker } write
  | begin (now : Int) (listing : List ClosedMarket)
      (idle : polling.tracker.resolution = .idle) :
      ResolveMoves polling (.fetchClosed now listing)
        { polling with fetch := some ⟨now - Tracker.closedTimeOverlap, listing, 0, []⟩ } .nothing
  | read (fetch : ClosedFetch) (fetching : polling.fetch = some fetch) :
      ResolveMoves polling .readPage (polling.readPage fetch) .nothing
  | land (market : String) (rest : List String)
      (publishing : polling.tracker.resolution = .publishing market rest false) :
      ResolveMoves polling (.take .landResolution)
        { polling with tracker := { polling.tracker with
            resolution := .publishing market rest true } }
        (.xadd (serializeResolvedEvent market))
  | remove (market : String) (rest : List String)
      (publishing : polling.tracker.resolution = .publishing market rest true) :
      ResolveMoves polling (.take .resumeResolution)
        { polling with tracker := { polling.tracker with
            active := polling.tracker.active.erase market
            resolution := Tracker.resolveNext (polling.tracker.active.erase market) rest } }
        .nothing
  | landSave (snapshot : List Market)
      (saving : polling.tracker.resolution = .saving snapshot false) :
      ResolveMoves polling (.take .landResolution)
        { polling with tracker := { polling.tracker with resolution := .saving snapshot true } }
        (.set snapshot)
  | saved (snapshot : List Market)
      (saving : polling.tracker.resolution = .saving snapshot true) :
      ResolveMoves polling (.take .resumeResolution)
        { polling with tracker := { polling.tracker with resolution := .idle } } .nothing
  | fail :
      ResolveMoves polling .failResolution
        { tracker := { polling.tracker with resolution := .idle }
          fetch := none } .nothing

/-- A step that was taken is one of these. -/
theorem resolveMoves_of_step (taken : step polling poll = some (next, write)) :
    ResolveMoves polling poll next write := by
  cases poll with
  | fetchClosed now listing =>
    obtain ⟨idle, same⟩ := Runs.guarded taken
    obtain ⟨rfl, rfl⟩ := Prod.mk.inj same
    exact .begin now listing idle.1
  | readPage =>
    obtain ⟨fetch, fetching, same⟩ := Option.map_eq_some_iff.mp taken
    obtain ⟨rfl, rfl⟩ := Prod.mk.inj same
    exact .read fetch fetching
  | failResolution =>
    obtain ⟨rfl, rfl⟩ := Prod.mk.inj (Option.some.inj taken)
    exact .fail
  | failNewMarkets =>
    obtain ⟨rfl, rfl⟩ := Prod.mk.inj (Option.some.inj taken)
    exact .aside _ { polling.tracker with newMarkets := .idle } _ nofun rfl
      (fun market member => member) nofun
  | take action =>
    obtain ⟨tracker, stepped, rfl⟩ := step_take taken
    cases Tracker.effect_of_step stepped with
    | fetchClosed closed => exact absurd taken nofun
    | landResolved market rest publishing => exact .land market rest publishing
    | landResolvedSave snapshot saving => exact .landSave snapshot saving
    | remove market rest publishing => exact .remove market rest publishing
    | resolvedSaved snapshot saving => exact .saved snapshot saving
    | fetchNew | addMore =>
      exact .aside _ _ _ nofun rfl (fun market member => Tracker.mem_addNext member) nofun
    | landNew raw rest rawMarkets added publishing =>
      refine .aside _ _ _ nofun rfl (fun market member => member) ?_
      intro market published
      exact absurd (List.mem_singleton.mp published) nofun
    | landNewSave snapshot saving =>
      exact .aside _ _ _ nofun rfl (fun market member => member) fun market => List.not_mem_nil
    | newSaved snapshot saving =>
      exact .aside _ { polling.tracker with newMarkets := .idle } _ nofun rfl
        (fun market member => member) nofun

end Views

end Polling

end Collector
