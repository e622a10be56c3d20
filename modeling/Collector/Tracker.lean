import Collector.Markets
import Collector.Library.Runs
import Mathlib.Data.List.AList

/-!
# The active markets tracker

The tracker keeps the set of active markets in memory. One poller publishes a
resolution for each closed market of the set and takes the market out once the
publish has returned. The other puts new markets into the set and publishes each
before it goes on. Both save the whole set to the cache at the end of a cycle.

The pollers share the set and give way to each other only where they wait. A
publish or a save is sent, arrives at the server at some later moment, and
returns after that, so there are two steps for each: landing and resuming.
Between them the other poller may take any number of steps.
-/

namespace Collector

open Replay (Delta replay)

/-- The markets tracked, by condition id; nothing depends on the order. -/
abbrev ActiveMarkets := AList (fun _ : String => Market)

namespace Tracker

/-- The markets that a save of the cache writes. -/
def cacheData (active : ActiveMarkets) : List Market := active.entries.map fun entry => entry.2

/-- Where the resolution poller is. -/
inductive Resolution where
  | idle
  | publishing (market : String) (rest : List String) (landed : Bool)
  | saving (snapshot : List Market) (landed : Bool)
deriving DecidableEq

/-- Where the poller of new markets is; a batch keeps its raw records. -/
inductive NewMarkets where
  | idle
  | publishing (raw : RawMarket) (rest : List Market) (rawMarkets : List RawMarket) (added : Nat)
    (landed : Bool)
  | saving (snapshot : List Market) (landed : Bool)
deriving DecidableEq

/-- What reaches the server in a step. -/
inductive Write where
  | nothing
  | xadd (entry : Entry)
  | set (markets : List Market)

/-- The entries a write appends to the stream. -/
def Write.published : Write → List Entry
  | .nothing => []
  | .xadd entry => [entry]
  | .set _ => []

/-- The cache after a write. -/
def Write.saved (cache : List Market) : Write → List Market
  | .nothing => cache
  | .xadd _ => cache
  | .set markets => markets

end Tracker

/-- The set of active markets and its two pollers. -/
structure Tracker where
  active : ActiveMarkets
  resolution : Tracker.Resolution
  newMarkets : Tracker.NewMarkets

namespace Tracker

/-- The active markets of a listing. -/
def activeMarkets (markets : List Market) : ActiveMarkets :=
  markets.foldl (fun active market => active.insert market.hash market) ∅

/-- A tracker whose pollers are about to start. -/
def start (active : ActiveMarkets) : Tracker where
  active := active
  resolution := .idle
  newMarkets := .idle

/-- Closed markets that are tracked. -/
def fetchRecentlyClosedMarkets (active : ActiveMarkets) (closed : List String) : List String :=
  closed.filter fun market => market ≠ "" ∧ market ∈ active

/-- Go on with the closed markets of a cycle: publish the next tracked one, or
save the cache. -/
def resolveNext (active : ActiveMarkets) : List String → Resolution
  | [] => .saving (cacheData active) false
  | market :: rest =>
    if market ∈ active then .publishing market rest false else resolveNext active rest

/-- The record of a market in a batch; the last one counts. -/
def rawByMarket (rawMarkets : List RawMarket) (market : String) : Option RawMarket :=
  rawMarkets.reverse.find? fun raw => raw.conditionId = market

/-- Go on with the markets of a batch: track the next new one and publish it, or
save the cache if there was any. -/
def addNext (rawMarkets : List RawMarket) (active : ActiveMarkets) (added : Nat) :
    List Market → ActiveMarkets × NewMarkets
  | [] => (active, if 0 < added then .saving (cacheData active) false else .idle)
  | market :: rest =>
    if market.hash ∈ active then addNext rawMarkets active added rest
    else
      match rawByMarket rawMarkets market.hash with
      | some raw =>
        (active.insert market.hash market, .publishing raw rest rawMarkets (added + 1) false)
      | none => addNext rawMarkets (active.insert market.hash market) (added + 1) rest

/-- What the resolution poller sent arrives. -/
def Resolution.land : Resolution → Option (Resolution × Write)
  | .publishing market rest false =>
    some (.publishing market rest true, .xadd (serializeResolvedEvent market))
  | .saving snapshot false => some (.saving snapshot true, .set snapshot)
  | _ => none

/-- What the poller of new markets sent arrives. -/
def NewMarkets.land : NewMarkets → Option (NewMarkets × Write)
  | .publishing raw rest rawMarkets added false =>
    some (.publishing raw rest rawMarkets added true, .xadd (serializeNewMarketEvent raw))
  | .saving snapshot false => some (.saving snapshot true, .set snapshot)
  | _ => none

/-- The resolution poller goes on after what it waited for. -/
def resumeResolution (tracker : Tracker) : Option Tracker :=
  match tracker.resolution with
  | .publishing market rest true => some { tracker with
      active := tracker.active.erase market
      resolution := resolveNext (tracker.active.erase market) rest }
  | .saving _ true => some { tracker with resolution := .idle }
  | _ => none

/-- The poller of new markets goes on after what it waited for. -/
def resumeNewMarkets (tracker : Tracker) : Option Tracker :=
  match tracker.newMarkets with
  | .publishing _ rest rawMarkets added true =>
    let (active, newMarkets) := addNext rawMarkets tracker.active added rest
    some { tracker with
      active := active
      newMarkets := newMarkets }
  | .saving _ true => some { tracker with newMarkets := .idle }
  | _ => none

/-- The steps of the pollers, with what Gamma answers. -/
inductive Action where
  | fetchClosed (closed : List String)
  | landResolution
  | resumeResolution
  | fetchNew (listed : List RawMarket)
  | landNewMarkets
  | resumeNewMarkets
deriving DecidableEq

/-- One step and what it writes. -/
def step (tracker : Tracker) : Action → Option (Tracker × Write)
  | .fetchClosed closed =>
    if tracker.resolution = .idle then
      some ({ tracker with
        resolution := resolveNext tracker.active
          (fetchRecentlyClosedMarkets tracker.active closed) }, .nothing)
    else none
  | .landResolution =>
    tracker.resolution.land.map fun (resolution, write) =>
      ({ tracker with resolution := resolution }, write)
  | .resumeResolution => tracker.resumeResolution.map fun next => (next, .nothing)
  | .fetchNew listed =>
    if tracker.newMarkets = .idle then
      let (active, newMarkets) := addNext listed tracker.active 0 (parseMarkets listed)
      some ({ tracker with
        active := active
        newMarkets := newMarkets }, .nothing)
    else none
  | .landNewMarkets =>
    tracker.newMarkets.land.map fun (newMarkets, write) =>
      ({ tracker with newMarkets := newMarkets }, write)
  | .resumeNewMarkets => tracker.resumeNewMarkets.map fun next => (next, .nothing)

/-- The market whose resolution is sent and has not arrived. -/
def Resolution.inFlight : Resolution → Option String
  | .publishing market _ false => some market
  | _ => none

/-- The market whose resolution has arrived while it is still tracked. -/
def Resolution.landed : Resolution → Option String
  | .publishing market _ true => some market
  | _ => none

/-- The new market whose entry is sent and has not arrived. -/
def NewMarkets.inFlight : NewMarkets → Option String
  | .publishing raw _ _ _ false => some raw.conditionId
  | _ => none

/-- No publish is on its way, and none has returned without its effect. -/
def Settled (tracker : Tracker) : Prop :=
  tracker.resolution.inFlight = none ∧ tracker.resolution.landed = none ∧
    tracker.newMarkets.inFlight = none

/-- All records of a market in an answer of Gamma are binary, or none is. -/
def Consistent (rawMarkets : List RawMarket) : Prop :=
  ∀ raw ∈ rawMarkets, ∀ other ∈ rawMarkets, raw.conditionId = other.conditionId →
    (parseMarket raw).isSome → (parseMarket other).isSome

/-- A resolution does not arrive while the entry that adds its market is still on
its way, and an answer of Gamma does not contradict itself. -/
def Orderly (tracker : Tracker) : Action → Prop
  | .landResolution => ∀ market, tracker.resolution.inFlight = some market →
      tracker.newMarkets.inFlight ≠ some market
  | .fetchNew listed => Consistent listed
  | _ => True

/-- Consistent records, with markets parsed from them. -/
structure Listed (rawMarkets : List RawMarket) (markets : List Market) : Prop where
  consistent : Consistent rawMarkets
  parsed : ∀ market ∈ markets, ∃ raw ∈ rawMarkets, parseMarket raw = some market

/-- The resolution poller publishes what is tracked and named. -/
def Resolution.Sound (active : ActiveMarkets) : Resolution → Prop
  | .publishing market rest _ => market ∈ active ∧ market ≠ "" ∧ ∀ other ∈ rest, other ≠ ""
  | _ => True

/-- The poller of new markets publishes binary markets. -/
def NewMarkets.Sound : NewMarkets → Prop
  | .publishing raw rest rawMarkets _ _ =>
    (parseMarket raw).isSome ∧ Listed rawMarkets rest
  | _ => True

/-- The set of active markets is what the published entries make of the starting
set, except for a new market whose entry has not arrived and a resolved market
that is not taken out yet. -/
structure Tracked (base : Finset String) (published : List Entry)
    (tracker : Tracker) : Prop where
  active_iff : ∀ market, market ∈ tracker.active ↔
    market ∈ replay base (published.map Entry.delta) ∨
      tracker.newMarkets.inFlight = some market ∨ tracker.resolution.landed = some market
  resolving : tracker.resolution.Sound tracker.active
  adding : tracker.newMarkets.Sound
  gone : ∀ market, tracker.resolution.landed = some market →
    market ∉ replay base (published.map Entry.delta) ∧
      tracker.newMarkets.inFlight ≠ some market

section Pollers

variable {active : ActiveMarkets}

/-- The markets of an answer. -/
theorem listed_fetched {listed : List RawMarket} (consistent : Consistent listed) :
    Listed listed (parseMarkets listed) where
  consistent := consistent
  parsed := fun _ member => List.mem_filterMap.mp member

/-- The rest of a batch comes from the same records. -/
theorem Listed.suffix {rawMarkets : List RawMarket} {skipped rest : List Market}
    (listed : Listed rawMarkets (skipped ++ rest)) : Listed rawMarkets rest where
  consistent := listed.consistent
  parsed := fun other member => listed.parsed other (List.mem_append_right skipped member)

/-- The rest of a batch comes from the same records. -/
theorem Listed.tail {rawMarkets : List RawMarket} {market : Market} {rest : List Market}
    (listed : Listed rawMarkets (market :: rest)) : Listed rawMarkets rest :=
  @Listed.suffix rawMarkets [market] rest listed

/-- The record that is found for a market bears its id. -/
theorem rawByMarket_named {rawMarkets : List RawMarket} {market : String} {raw : RawMarket}
    (found : rawByMarket rawMarkets market = some raw) : raw.conditionId = market := by
  have holds := List.find?_some found
  simpa using holds

/-- A market parsed from a record of the batch has a record in it. -/
theorem rawByMarket_of_parsed {rawMarkets : List RawMarket} {raw : RawMarket} {market : Market}
    (member : raw ∈ rawMarkets) (parsed : parseMarket raw = some market) :
    ∃ last ∈ rawMarkets, rawByMarket rawMarkets market.hash = some last ∧
      last.conditionId = market.hash := by
  have named := hash_parseMarket parsed
  cases found : rawByMarket rawMarkets market.hash with
  | none =>
    rw [rawByMarket, List.find?_eq_none] at found
    have missing := found raw (List.mem_reverse.mpr member)
    exact absurd named.symm (by simpa using missing)
  | some last =>
    have lastMember : last ∈ rawMarkets :=
      List.mem_reverse.mp (List.mem_of_find?_eq_some found)
    exact ⟨last, lastMember, rfl, rawByMarket_named found⟩

/-- A parsed market finds a record that can be parsed. -/
theorem Listed.rawByMarket {rawMarkets : List RawMarket} {market : Market} {rest : List Market}
    (listed : Listed rawMarkets (market :: rest)) :
    ∃ raw, Tracker.rawByMarket rawMarkets market.hash = some raw ∧ raw.conditionId = market.hash ∧
      (parseMarket raw).isSome := by
  obtain ⟨raw, member, parsed⟩ := listed.parsed market List.mem_cons_self
  obtain ⟨last, lastMember, found, same⟩ := rawByMarket_of_parsed member parsed
  refine ⟨last, found, same, ?_⟩
  -- the last record need not be the one that was parsed
  have named := hash_parseMarket parsed
  apply listed.consistent raw member last lastMember (named.symm.trans same.symm)
  rw [parsed]
  rfl

/-- How the poller goes on with the markets of a batch. -/
inductive Next (rawMarkets : List RawMarket) (active : ActiveMarkets) (added : Nat)
    (markets : List Market) : ActiveMarkets × NewMarkets → Prop where
  | put (skipped : List Market) (market : Market) (rest : List Market) (raw : RawMarket)
      (split : markets = skipped ++ market :: rest) (known : ∀ other ∈ skipped, other.hash ∈ active)
      (fresh : market.hash ∉ active) (found : rawByMarket rawMarkets market.hash = some raw) :
      Next rawMarkets active added markets
        (active.insert market.hash market, .publishing raw rest rawMarkets (added + 1) false)
  | done (known : ∀ other ∈ markets, other.hash ∈ active) :
      Next rawMarkets active added markets
        (active, if 0 < added then .saving (cacheData active) false else .idle)

/-- The poller takes nothing out of the set. -/
theorem mem_addNext {rawMarkets : List RawMarket} {markets : List Market} {added : Nat}
    {market : String} (member : market ∈ active) :
    market ∈ (addNext rawMarkets active added markets).1 := by
  induction markets generalizing active added with
  | nil => exact member
  | cons other rest inductionHypothesis =>
    rw [addNext]
    split
    · exact inductionHypothesis member
    · split
      · exact (AList.mem_insert active).mpr (Or.inr member)
      · exact inductionHypothesis ((AList.mem_insert active).mpr (Or.inr member))

/-- The poller puts the market that it publishes and no other. -/
theorem Next.active_iff {rawMarkets : List RawMarket} {added : Nat} {markets : List Market}
    {result : ActiveMarkets × NewMarkets} (next : Next rawMarkets active added markets result)
    (market : String) :
    market ∈ result.1 ↔ market ∈ active ∨ result.2.inFlight = some market := by
  cases next with
  | put skipped other rest raw split known fresh found =>
    simp only [AList.mem_insert, NewMarkets.inFlight, rawByMarket_named found, Option.some.injEq]
    rw [or_comm, eq_comm]
  | done known => split <;> simp [NewMarkets.inFlight]

/-- The poller puts the first market that is not tracked, or is through with them. -/
theorem next_addNext {rawMarkets : List RawMarket} {markets : List Market} (added : Nat)
    (batched : ∀ market ∈ markets, market ∈ parseMarkets rawMarkets) :
    Next rawMarkets active added markets (addNext rawMarkets active added markets) := by
  induction markets with
  | nil => exact .done nofun
  | cons market rest inductionHypothesis =>
    have batchedRest : ∀ other ∈ rest, other ∈ parseMarkets rawMarkets :=
      fun other member => batched other (List.mem_cons_of_mem market member)
    rw [addNext]
    split
    · rename_i tracked
      have next := inductionHypothesis batchedRest
      generalize addNext rawMarkets active added rest = result at next ⊢
      cases next with
      | put skipped other later raw split known fresh found =>
        refine .put (market :: skipped) other later raw (congrArg (market :: ·) split) ?_ fresh found
        exact List.forall_mem_cons.mpr ⟨tracked, known⟩
      | done known => exact .done (List.forall_mem_cons.mpr ⟨tracked, known⟩)
    · rename_i untracked
      obtain ⟨raw, member, parsed⟩ := List.mem_filterMap.mp (batched market List.mem_cons_self)
      obtain ⟨last, -, found, -⟩ := rawByMarket_of_parsed member parsed
      rw [found]
      exact .put [] market rest last rfl nofun untracked found

/-- The closed markets of a cycle are named. -/
theorem fetchRecentlyClosedMarkets_named (active : ActiveMarkets) (closed : List String) :
    ∀ market ∈ fetchRecentlyClosedMarkets active closed, market ≠ "" := by
  intro market member
  have kept := (List.mem_filter.mp member).2
  simp only [decide_eq_true_eq] at kept
  exact kept.1

/-- The resolution poller goes on soundly and with nothing landed. -/
theorem resolveNext_spec (active : ActiveMarkets) {closed : List String}
    (named : ∀ market ∈ closed, market ≠ "") :
    (resolveNext active closed).Sound active ∧ (resolveNext active closed).landed = none := by
  induction closed with
  | nil => exact ⟨trivial, rfl⟩
  | cons market rest inductionHypothesis =>
    have namedRest : ∀ other ∈ rest, other ≠ "" :=
      fun other member => named other (List.mem_cons_of_mem market member)
    rw [resolveNext]
    split
    · rename_i tracked
      exact ⟨⟨tracked, named market List.mem_cons_self, namedRest⟩, rfl⟩
    · exact inductionHypothesis namedRest

/-- What is left of a batch after one more market is tracked. -/
structure Added (active : ActiveMarkets) (result : ActiveMarkets × NewMarkets) :
    Prop where
  sound : result.2.Sound
  active_iff : ∀ market, market ∈ result.1 ↔ market ∈ active ∨ result.2.inFlight = some market
  fresh : ∀ market, result.2.inFlight = some market → market ∉ active

/-- A poller with nothing on its way tracks nothing more. -/
theorem added_unchanged {newMarkets : NewMarkets} (sound : newMarkets.Sound)
    (none : newMarkets.inFlight = none) : Added active (active, newMarkets) where
  sound := sound
  active_iff := by
    intro market
    simp [none]
  fresh := by
    intro market flying
    exact absurd flying (by simp [none])

/-- The poller of new markets tracks at most the market it publishes. -/
theorem added_addNext {rawMarkets : List RawMarket} {markets : List Market}
    (listed : Listed rawMarkets markets) (added : Nat) :
    Added active (addNext rawMarkets active added markets) := by
  have batched : ∀ market ∈ markets, market ∈ parseMarkets rawMarkets :=
    fun market member => List.mem_filterMap.mpr (listed.parsed market member)
  have next : Next rawMarkets active added markets _ := next_addNext added batched
  generalize addNext rawMarkets active added markets = result at next ⊢
  refine ⟨?_, next.active_iff, ?_⟩
  · cases next with
    | put skipped market rest raw split known fresh found =>
      rw [split] at listed
      obtain ⟨last, alsoFound, named, parsed⟩ := listed.suffix.rawByMarket
      obtain rfl : raw = last := Option.some.inj (found.symm.trans alsoFound)
      exact ⟨parsed, listed.suffix.tail⟩
    | done known =>
      split <;> trivial
  · intro other flying
    cases next with
    | put skipped market rest raw split known fresh found =>
      simp only [NewMarkets.inFlight, rawByMarket_named found, Option.some.injEq] at flying
      exact flying ▸ fresh
    | done known =>
      split at flying <;> exact absurd flying (by simp [NewMarkets.inFlight])

/-- A larger set keeps the resolution poller sound. -/
theorem Resolution.Sound.mono {resolution : Resolution} {larger : ActiveMarkets}
    (sound : resolution.Sound active) (kept : ∀ market ∈ active, market ∈ larger) :
    resolution.Sound larger := by
  cases resolution with
  | publishing market rest landed => exact ⟨kept market sound.1, sound.2⟩
  | idle => trivial
  | saving snapshot landed => trivial

/-- A landed resolution is about a tracked market. -/
theorem Resolution.Sound.landed {resolution : Resolution} (sound : resolution.Sound active)
    {market : String} (landed : resolution.landed = some market) : market ∈ active := by
  cases resolution with
  | publishing other rest arrived =>
    cases arrived with
    | true => exact Option.some.inj landed ▸ sound.1
    | false => exact absurd landed (by simp [Resolution.landed])
  | idle => exact absurd landed (by simp [Resolution.landed])
  | saving snapshot arrived => exact absurd landed (by simp [Resolution.landed])

end Pollers

section Steps

variable {base : Finset String} {published : List Entry} {tracker : Tracker}

/-- What arrives is a publish or a save that was sent. -/
theorem Resolution.land_some {resolution next : Resolution} {write : Write}
    (landed : resolution.land = some (next, write)) :
    (∃ market rest, resolution = .publishing market rest false ∧
      next = .publishing market rest true ∧ write = .xadd (serializeResolvedEvent market)) ∨
    ∃ snapshot, resolution = .saving snapshot false ∧ next = .saving snapshot true ∧
      write = .set snapshot := by
  unfold Resolution.land at landed
  split at landed
  · rename_i market rest
    obtain ⟨rfl, rfl⟩ := Prod.mk.inj (Option.some.inj landed)
    exact Or.inl ⟨market, rest, rfl, rfl, rfl⟩
  · rename_i snapshot
    obtain ⟨rfl, rfl⟩ := Prod.mk.inj (Option.some.inj landed)
    exact Or.inr ⟨snapshot, rfl, rfl, rfl⟩
  · exact absurd landed (by simp)

/-- What arrives is a publish or a save that was sent. -/
theorem NewMarkets.land_some {newMarkets next : NewMarkets} {write : Write}
    (landed : newMarkets.land = some (next, write)) :
    (∃ raw rest rawMarkets added, newMarkets = .publishing raw rest rawMarkets added false ∧
      next = .publishing raw rest rawMarkets added true ∧
      write = .xadd (serializeNewMarketEvent raw)) ∨
    ∃ snapshot, newMarkets = .saving snapshot false ∧ next = .saving snapshot true ∧
      write = .set snapshot := by
  unfold NewMarkets.land at landed
  split at landed
  · rename_i raw rest rawMarkets added
    obtain ⟨rfl, rfl⟩ := Prod.mk.inj (Option.some.inj landed)
    exact Or.inl ⟨raw, rest, rawMarkets, added, rfl, rfl, rfl⟩
  · rename_i snapshot
    obtain ⟨rfl, rfl⟩ := Prod.mk.inj (Option.some.inj landed)
    exact Or.inr ⟨snapshot, rfl, rfl, rfl⟩
  · exact absurd landed (by simp)

/-- A poller goes on after a publish or after a save. -/
theorem resumeResolution_some {tracker next : Tracker}
    (resumed : tracker.resumeResolution = some next) :
    (∃ market rest, tracker.resolution = .publishing market rest true ∧
      next = { tracker with
        active := tracker.active.erase market
        resolution := resolveNext (tracker.active.erase market) rest }) ∨
    ∃ snapshot, tracker.resolution = .saving snapshot true ∧
      next = { tracker with resolution := .idle } := by
  unfold Tracker.resumeResolution at resumed
  split at resumed
  · rename_i market rest publishing
    exact Or.inl ⟨market, rest, publishing, (Option.some.inj resumed).symm⟩
  · rename_i snapshot saving
    exact Or.inr ⟨snapshot, saving, (Option.some.inj resumed).symm⟩
  · exact absurd resumed (by simp)

/-- A poller goes on after a publish or after a save. -/
theorem resumeNewMarkets_some {tracker next : Tracker}
    (resumed : tracker.resumeNewMarkets = some next) :
    (∃ raw rest rawMarkets added, tracker.newMarkets = .publishing raw rest rawMarkets added true ∧
      next = { tracker with
        active := (addNext rawMarkets tracker.active added rest).1
        newMarkets := (addNext rawMarkets tracker.active added rest).2 }) ∨
    ∃ snapshot, tracker.newMarkets = .saving snapshot true ∧
      next = { tracker with newMarkets := .idle } := by
  unfold Tracker.resumeNewMarkets at resumed
  split at resumed
  · rename_i raw rest rawMarkets added publishing
    exact Or.inl ⟨raw, rest, rawMarkets, added, publishing, (Option.some.inj resumed).symm⟩
  · rename_i snapshot saving
    exact Or.inr ⟨snapshot, saving, (Option.some.inj resumed).symm⟩
  · exact absurd resumed (by simp)

/-- The steps one by one, each with where it starts, what it leaves and what it writes. -/
inductive Effect (tracker : Tracker) : Action → Tracker → Write → Prop where
  | fetchClosed (closed : List String) (idle : tracker.resolution = .idle) :
      Effect tracker (.fetchClosed closed)
        { tracker with
          resolution := resolveNext tracker.active
            (fetchRecentlyClosedMarkets tracker.active closed) } .nothing
  | landResolved (market : String) (rest : List String)
      (publishing : tracker.resolution = .publishing market rest false) :
      Effect tracker .landResolution
        { tracker with resolution := .publishing market rest true }
        (.xadd (serializeResolvedEvent market))
  | landResolvedSave (snapshot : List Market) (saving : tracker.resolution = .saving snapshot false) :
      Effect tracker .landResolution { tracker with resolution := .saving snapshot true }
        (.set snapshot)
  | remove (market : String) (rest : List String)
      (publishing : tracker.resolution = .publishing market rest true) :
      Effect tracker .resumeResolution
        { tracker with
          active := tracker.active.erase market
          resolution := resolveNext (tracker.active.erase market) rest } .nothing
  | resolvedSaved (snapshot : List Market) (saving : tracker.resolution = .saving snapshot true) :
      Effect tracker .resumeResolution { tracker with resolution := .idle } .nothing
  | fetchNew (listed : List RawMarket) (idle : tracker.newMarkets = .idle) :
      Effect tracker (.fetchNew listed)
        { tracker with
          active := (addNext listed tracker.active 0 (parseMarkets listed)).1
          newMarkets := (addNext listed tracker.active 0 (parseMarkets listed)).2 } .nothing
  | landNew (raw : RawMarket) (rest : List Market) (rawMarkets : List RawMarket) (added : Nat)
      (publishing : tracker.newMarkets = .publishing raw rest rawMarkets added false) :
      Effect tracker .landNewMarkets
        { tracker with newMarkets := .publishing raw rest rawMarkets added true }
        (.xadd (serializeNewMarketEvent raw))
  | landNewSave (snapshot : List Market) (saving : tracker.newMarkets = .saving snapshot false) :
      Effect tracker .landNewMarkets { tracker with newMarkets := .saving snapshot true }
        (.set snapshot)
  | addMore (raw : RawMarket) (rest : List Market) (rawMarkets : List RawMarket) (added : Nat)
      (publishing : tracker.newMarkets = .publishing raw rest rawMarkets added true) :
      Effect tracker .resumeNewMarkets
        { tracker with
          active := (addNext rawMarkets tracker.active added rest).1
          newMarkets := (addNext rawMarkets tracker.active added rest).2 } .nothing
  | newSaved (snapshot : List Market) (saving : tracker.newMarkets = .saving snapshot true) :
      Effect tracker .resumeNewMarkets { tracker with newMarkets := .idle } .nothing

/-- A step that was taken is one of these. -/
theorem effect_of_step {tracker next : Tracker} {action : Action} {write : Write}
    (taken : Tracker.step tracker action = some (next, write)) :
    Effect tracker action next write := by
  cases action with
  | fetchClosed closed =>
    obtain ⟨idle, same⟩ := Runs.guarded taken
    obtain ⟨rfl, rfl⟩ := Prod.mk.inj same
    exact .fetchClosed closed idle
  | landResolution =>
    obtain ⟨⟨resolution, arrived⟩, landed, same⟩ := Option.map_eq_some_iff.mp taken
    obtain ⟨rfl, rfl⟩ := Prod.mk.inj same
    rcases Resolution.land_some landed with
      ⟨market, rest, publishing, rfl, rfl⟩ | ⟨snapshot, saving, rfl, rfl⟩
    · exact .landResolved market rest publishing
    · exact .landResolvedSave snapshot saving
  | resumeResolution =>
    obtain ⟨after, resumed, same⟩ := Option.map_eq_some_iff.mp taken
    obtain ⟨rfl, rfl⟩ := Prod.mk.inj same
    rcases resumeResolution_some resumed with
      ⟨market, rest, publishing, rfl⟩ | ⟨snapshot, saving, rfl⟩
    · exact .remove market rest publishing
    · exact .resolvedSaved snapshot saving
  | fetchNew listed =>
    obtain ⟨idle, same⟩ := Runs.guarded taken
    obtain ⟨rfl, rfl⟩ := Prod.mk.inj same
    exact .fetchNew listed idle
  | landNewMarkets =>
    obtain ⟨⟨newMarkets, arrived⟩, landed, same⟩ := Option.map_eq_some_iff.mp taken
    obtain ⟨rfl, rfl⟩ := Prod.mk.inj same
    rcases NewMarkets.land_some landed with
      ⟨raw, rest, rawMarkets, added, publishing, rfl, rfl⟩ | ⟨snapshot, saving, rfl, rfl⟩
    · exact .landNew raw rest rawMarkets added publishing
    · exact .landNewSave snapshot saving
  | resumeNewMarkets =>
    obtain ⟨after, resumed, same⟩ := Option.map_eq_some_iff.mp taken
    obtain ⟨rfl, rfl⟩ := Prod.mk.inj same
    rcases resumeNewMarkets_some resumed with
      ⟨raw, rest, rawMarkets, added, publishing, rfl⟩ | ⟨snapshot, saving, rfl⟩
    · exact .addMore raw rest rawMarkets added publishing
    · exact .newSaved snapshot saving

/-- A tracker that just started tracks its listing. -/
theorem tracked_start (active : ActiveMarkets) :
    Tracked active.keys.toFinset [] (start active) where
  active_iff := by
    intro market
    simp [start, NewMarkets.inFlight, Resolution.landed, AList.mem_keys]
  resolving := trivial
  adding := trivial
  gone := by
    intro market landed
    exact absurd landed (by simp [start, Resolution.landed])

/-- Between publishes the set is what the published entries make of the start. -/
theorem Tracked.settled (tracked : Tracked base published tracker)
    (settled : tracker.Settled) (market : String) :
    market ∈ tracker.active ↔ market ∈ replay base (published.map Entry.delta) := by
  obtain ⟨-, landed, flying⟩ := settled
  rw [tracked.active_iff, landed, flying]
  simp only [reduceCtorEq, or_false]

/-- The resolution poller may go on to anything sound when nothing has landed. -/
theorem Tracked.resolve (tracked : Tracked base published tracker)
    (before : tracker.resolution.landed = none) {resolution : Resolution}
    (sound : resolution.Sound tracker.active) (after : resolution.landed = none) :
    Tracked base published { tracker with resolution := resolution } where
  active_iff := by
    intro market
    rw [tracked.active_iff, before, after]
  resolving := sound
  adding := tracked.adding
  gone := by
    intro market landed
    exact absurd landed (by simp [after])

/-- The poller of new markets may go on with its batch when its last entry has
landed. -/
theorem Tracked.add (tracked : Tracked base published tracker)
    (before : tracker.newMarkets.inFlight = none) {result : ActiveMarkets × NewMarkets}
    (added : Added tracker.active result) :
    Tracked base published { tracker with
      active := result.1
      newMarkets := result.2 } where
  active_iff := by
    intro market
    simp only [added.active_iff, tracked.active_iff, before]
    simp only [reduceCtorEq, false_or]
    rw [or_right_comm, or_assoc]
  resolving := tracked.resolving.mono fun market member => (added.active_iff market).mpr (.inl member)
  adding := added.sound
  gone := by
    intro market landed
    refine ⟨(tracked.gone market landed).1, ?_⟩
    intro flying
    exact added.fresh market flying (tracked.resolving.landed landed)

/-- A resolution that arrives takes its market out of what is published. -/
theorem Tracked.landResolution {market : String} {rest : List String}
    (tracked : Tracked base published tracker)
    (publishing : tracker.resolution = .publishing market rest false)
    (ordered : tracker.newMarkets.inFlight ≠ some market) :
    Tracked base (published ++ [serializeResolvedEvent market])
      { tracker with resolution := .publishing market rest true } := by
  have sound := tracked.resolving
  rw [publishing] at sound
  have replayed : ∀ other, other ∈ replay base
      ((published ++ [serializeResolvedEvent market]).map Entry.delta) ↔
        other ∈ replay base (published.map Entry.delta) ∧ other ≠ market := by
    intro other
    rw [List.map_append, Replay.replay_append, List.map_singleton,
      delta_serializeResolvedEvent sound.2.1, Replay.replay_cons, Replay.replay_nil,
      Delta.apply, Finset.mem_sdiff, List.mem_toFinset, List.mem_singleton]
  refine ⟨?_, sound, tracked.adding, ?_⟩
  · intro other
    have before := tracked.active_iff other
    rw [publishing] at before
    simp only [Resolution.landed, reduceCtorEq, or_false] at before
    rw [replayed]
    simp only [Resolution.landed, Option.some.injEq]
    by_cases same : other = market
    · rw [same]
      exact iff_of_true sound.1 (Or.inr (Or.inr rfl))
    · rw [before]
      simp [same, Ne.symm same]
  · intro other landed
    obtain rfl := Option.some.inj landed
    refine ⟨?_, ordered⟩
    rw [replayed]
    exact fun impossible => impossible.2 rfl

/-- Once a resolution has returned its market is no longer tracked. -/
theorem Tracked.remove {market : String} {rest : List String}
    (tracked : Tracked base published tracker)
    (publishing : tracker.resolution = .publishing market rest true) :
    Tracked base published { tracker with
      active := tracker.active.erase market
      resolution := resolveNext (tracker.active.erase market) rest } := by
  have sound := tracked.resolving
  rw [publishing] at sound
  obtain ⟨removed, other⟩ := tracked.gone market (by rw [publishing]; rfl)
  obtain ⟨next, none⟩ := resolveNext_spec (tracker.active.erase market) sound.2.2
  refine ⟨?_, next, tracked.adding, ?_⟩
  · intro tested
    have before := tracked.active_iff tested
    rw [publishing] at before
    simp only [Resolution.landed, Option.some.injEq] at before
    rw [AList.mem_erase, before, none]
    by_cases same : tested = market
    · rw [same]
      simp [removed, other]
    · simp [same, Ne.symm same]
  · intro tested landed
    exact absurd landed (by simp [none])

/-- The entry of a new market that arrives adds it to what is published. -/
theorem Tracked.landNewMarkets {raw : RawMarket} {rest : List Market}
    {rawMarkets : List RawMarket} {added : Nat} (tracked : Tracked base published tracker)
    (publishing : tracker.newMarkets = .publishing raw rest rawMarkets added false) :
    Tracked base (published ++ [serializeNewMarketEvent raw])
      { tracker with newMarkets := .publishing raw rest rawMarkets added true } := by
  have sound := tracked.adding
  rw [publishing] at sound
  obtain ⟨binary, listed⟩ := sound
  obtain ⟨market, parsed⟩ := Option.isSome_iff_exists.mp binary
  have replayed : ∀ other, other ∈ replay base
      ((published ++ [serializeNewMarketEvent raw]).map Entry.delta) ↔
        other ∈ replay base (published.map Entry.delta) ∨ other = raw.conditionId := by
    intro other
    rw [List.map_append, Replay.replay_append, List.map_singleton,
      delta_serializeNewMarketEvent parsed, Replay.replay_cons, Replay.replay_nil,
      Delta.apply, Finset.mem_union, List.mem_toFinset, List.mem_singleton]
  refine ⟨?_, tracked.resolving, ⟨binary, listed⟩, ?_⟩
  · intro other
    have before := tracked.active_iff other
    rw [publishing] at before
    simp only [NewMarkets.inFlight, Option.some.injEq] at before
    rw [replayed, before]
    simp only [NewMarkets.inFlight, reduceCtorEq, false_or, or_assoc]
    rw [eq_comm]
  · intro other landed
    obtain ⟨absent, different⟩ := tracked.gone other landed
    rw [publishing] at different
    refine ⟨?_, by simp [NewMarkets.inFlight]⟩
    rw [replayed]
    rintro (present | same)
    · exact absent present
    · exact different (congrArg some same.symm)

/-- What a step can do: go on with one of the pollers without anything arriving,
let an entry arrive, or take a resolved market out. -/
inductive Moves (tracker : Tracker) : Action → Tracker → Write → Prop where
  | resolve (action : Action) (resolution : Resolution) (write : Write)
      (silent : write.published = []) (kept : tracker.resolution.landed = none)
      (sound : resolution.Sound tracker.active) (after : resolution.landed = none) :
      Moves tracker action { tracker with resolution := resolution } write
  | landResolution (market : String) (rest : List String)
      (publishing : tracker.resolution = .publishing market rest false) :
      Moves tracker .landResolution
        { tracker with resolution := .publishing market rest true }
        (.xadd (serializeResolvedEvent market))
  | remove (action : Action) (market : String) (rest : List String)
      (publishing : tracker.resolution = .publishing market rest true) :
      Moves tracker action
        { tracker with
          active := tracker.active.erase market
          resolution := resolveNext (tracker.active.erase market) rest } .nothing
  | add (action : Action) (result : ActiveMarkets × NewMarkets) (write : Write)
      (silent : write.published = []) (waiting : tracker.newMarkets.inFlight = none)
      (added : Orderly tracker action → tracker.newMarkets.Sound → Added tracker.active result) :
      Moves tracker action
        { tracker with
          active := result.1
          newMarkets := result.2 } write
  | landNewMarkets (action : Action) (raw : RawMarket) (rest : List Market)
      (rawMarkets : List RawMarket) (added : Nat)
      (publishing : tracker.newMarkets = .publishing raw rest rawMarkets added false) :
      Moves tracker action
        { tracker with newMarkets := .publishing raw rest rawMarkets added true }
        (.xadd (serializeNewMarketEvent raw))

/-- A step that was taken did one of these. -/
theorem moves_of_step {next : Tracker} {action : Action} {write : Write}
    (taken : Tracker.step tracker action = some (next, write)) :
    Moves tracker action next write := by
  cases effect_of_step taken with
  | fetchClosed closed idle =>
    obtain ⟨sound, none⟩ := resolveNext_spec tracker.active
      (fetchRecentlyClosedMarkets_named tracker.active closed)
    exact .resolve _ _ _ rfl (by rw [idle]; rfl) sound none
  | landResolved market rest publishing => exact .landResolution market rest publishing
  | landResolvedSave snapshot saving =>
    exact .resolve _ _ _ rfl (by rw [saving]; rfl) trivial rfl
  | remove market rest publishing => exact .remove _ market rest publishing
  | resolvedSaved snapshot saving => exact .resolve _ _ _ rfl (by rw [saving]; rfl) trivial rfl
  | fetchNew listed idle =>
    exact .add _ _ _ rfl (by rw [idle]; rfl)
      fun consistent _ => added_addNext (listed_fetched consistent) 0
  | landNew raw rest rawMarkets added publishing =>
    exact .landNewMarkets _ raw rest rawMarkets added publishing
  | landNewSave snapshot saving =>
    have sound : (NewMarkets.saving snapshot true).Sound := trivial
    exact .add _ (tracker.active, .saving snapshot true) _ rfl (by rw [saving]; rfl)
      fun _ _ => added_unchanged sound rfl
  | addMore raw rest rawMarkets added publishing =>
    apply Moves.add _ (addNext rawMarkets tracker.active added rest) _ rfl
    · rw [publishing]
      rfl
    · intro _ sound
      rw [publishing] at sound
      exact added_addNext sound.2 added
  | newSaved snapshot saving =>
    have sound : NewMarkets.idle.Sound := trivial
    exact .add _ (tracker.active, .idle) _ rfl (by rw [saving]; rfl)
      fun _ _ => added_unchanged sound rfl

/-- Every step keeps the set in step with what is published. -/
theorem Tracked.step {next : Tracker} {action : Action} {write : Write}
    (tracked : Tracked base published tracker) (orderly : Orderly tracker action)
    (taken : Tracker.step tracker action = some (next, write)) :
    Tracked base (published ++ write.published) next := by
  cases moves_of_step taken with
  | resolve _ resolution _ silent kept sound after =>
    rw [silent, List.append_nil]
    exact tracked.resolve kept sound after
  | landResolution market rest publishing =>
    exact tracked.landResolution publishing (orderly market (by rw [publishing]; rfl))
  | remove _ market rest publishing =>
    rw [Write.published, List.append_nil]
    exact tracked.remove publishing
  | add _ result _ silent waiting added =>
    rw [silent, List.append_nil]
    exact tracked.add waiting (added orderly tracked.adding)
  | landNewMarkets _ raw rest rawMarkets added publishing =>
    exact tracked.landNewMarkets publishing

end Steps

end Tracker

end Collector
