import Collector.KalshiCache

/-!
# A replacement that stops between two round trips

The tickers that a snapshot keeps are in the set of their kind until the set is
deleted, and again from the batch on that adds them. In between their keys are
stored and not listed, and `load` goes by the set. A ticker that changes its kind is
in neither set between the two batches that delete and add it.

What a stopped call has done is a first part of its round trips. For one kind it is
either some of the deletions, or all of them, the deletion of the set, and some of
the additions.
-/

namespace Collector.KalshiCache

/-- The tickers that some round trips delete. -/
def deletedIn (trips : List RoundTrip) : List String :=
  trips.flatMap fun
    | .deleteMarketBatch tickers => tickers
    | _ => []

/-- The markets that some round trips add. -/
def addedIn (trips : List RoundTrip) : List KalshiMarket :=
  trips.flatMap fun
    | .upsertMarketBatch markets => markets
    | _ => []

/-- Those of some round trips that are about one kind. -/
def tripsOf (kind : MarketKind) (trips : List (MarketKind × RoundTrip)) : List RoundTrip :=
  (trips.filter fun trip => trip.1 = kind).map Prod.snd

/-- The markets that a call puts in place of those of a kind, if it does. -/
def Call.replaces : Call → MarketKind → Option (List KalshiMarket)
  | .replaceAll data, kind => some (data.markets kind)
  | .replaceMarkets kind markets, tested => if tested = kind then some markets else none

/-- The tickers of a kind in the new snapshot. A kind that is not replaced stays. -/
def Call.snapshot (cache : Cache) (call : Call) (kind : MarketKind) : Finset String :=
  ((call.replaces kind).map tickersOf).getD (cache kind).activeMarkets

/-- The set of a kind lists its stored keys, and each of them holds a market with
its ticker. -/
structure Slot.Consistent (library : Library) (slot : Slot) : Prop where
  listed : ∀ ticker, ticker ∈ slot.activeMarkets ↔ slot.marketKeys ticker ≠ none
  read : ∀ ticker raw, slot.marketKeys ticker = some raw → raw ≠ "" ∧
    ∃ market, library.modelValidateJson raw = some market ∧ market.ticker = ticker

/-- What a stopped call may leave: every ticker of both snapshots is loaded, and
every stored key is listed. -/
structure Safe (library : Library) (cache : Cache) (call : Call) (now : Cache) : Prop where
  loaded : ∀ ticker, (∃ kind, ticker ∈ (cache kind).activeMarkets) →
    (∃ kind, ticker ∈ call.snapshot cache kind) →
    ∃ market, (∃ data ∈ load library now, ∃ kind, market ∈ data.markets kind) ∧
      market.ticker = ticker
  listed : ∀ kind ticker, (now kind).marketKeys ticker ≠ none →
    ticker ∈ (now kind).activeMarkets

/-- The round trips that were made have closed what they opened: where the set of a
kind was deleted, the tickers that stay in the kind have been added again, and a
ticker that was deleted from one kind and comes into the other has been added there. -/
structure Closed (cache : Cache) (call : Call) (trips : List (MarketKind × RoundTrip)) :
    Prop where
  kept : ∀ kind, .deleteSet ∈ tripsOf kind trips → ∀ ticker ∈ (cache kind).activeMarkets,
    ticker ∈ call.snapshot cache kind → ticker ∈ tickersOf (addedIn (tripsOf kind trips))
  moved : ∀ kind, ∀ ticker ∈ deletedIn (tripsOf kind trips),
    ticker ∉ (cache kind.other).activeMarkets → ticker ∈ call.snapshot cache kind.other →
    ticker ∈ tickersOf (addedIn (tripsOf kind.other trips))

section Trips

variable {iteration : MarketKind → Iteration} {cache : Cache}

theorem tripsOf_append (kind : MarketKind) (left right : List (MarketKind × RoundTrip)) :
    tripsOf kind (left ++ right) = tripsOf kind left ++ tripsOf kind right := by
  rw [tripsOf, List.filter_append, List.map_append]
  rfl

theorem tripsOf_map_self (kind : MarketKind) (trips : List RoundTrip) :
    tripsOf kind (trips.map fun trip => (kind, trip)) = trips := by
  rw [tripsOf, List.filter_eq_self.mpr]
  · rw [List.map_map]
    exact List.map_id trips
  · intro trip member
    obtain ⟨_, -, rfl⟩ := List.mem_map.mp member
    exact decide_eq_true rfl

theorem tripsOf_map_ne {kind other : MarketKind} (different : other ≠ kind)
    (trips : List RoundTrip) : tripsOf kind (trips.map fun trip => (other, trip)) = [] := by
  rw [tripsOf, List.filter_eq_nil_iff.mpr]
  · rfl
  · intro trip member
    obtain ⟨_, -, rfl⟩ := List.mem_map.mp member
    simpa using different

/-- The round trips that replace the markets of one kind. -/
def slotTrips (deletes : List (List String)) (upserts : List (List KalshiMarket)) :
    List RoundTrip :=
  deletes.map .deleteMarketBatch ++ .deleteSet :: upserts.map .upsertMarketBatch

/-- Of the round trips of a call, those of a kind replace its markets, if any. -/
theorem tripsOf_roundTrips (call : Call) (kind : MarketKind) :
    tripsOf kind (call.roundTrips iteration cache) =
      match call.replaces kind with
      | none => []
      | some markets => slotTrips
          (chunks ((iteration kind).order ((cache kind).activeMarkets \ tickersOf markets))
            batchSize) (chunks markets batchSize) := by
  have deletes (tested : MarketKind) (tickers : Finset String) :
      deleteMarketKeys (iteration tested) tested tickers =
        ((chunks ((iteration tested).order tickers) batchSize).map
          RoundTrip.deleteMarketBatch).map fun trip => (tested, trip) := by
    rw [deleteMarketKeys, List.map_map]
    rfl
  have replaces (tested : MarketKind) (markets : List KalshiMarket) :
      replaceKind tested markets = (RoundTrip.deleteSet ::
        (chunks markets batchSize).map RoundTrip.upsertMarketBatch).map
          fun trip => (tested, trip) := by
    rw [replaceKind, List.map_cons, List.map_map]
    rfl
  cases call with
  | replaceAll data =>
    simp only [Call.roundTrips, Call.replaces, tripsOf_append, deletes, replaces]
    cases kind with
    | regular =>
      rw [tripsOf_map_self, tripsOf_map_self, tripsOf_map_ne (by decide),
        tripsOf_map_ne (by decide), List.append_nil, List.append_nil]
      rfl
    | multivariate =>
      rw [tripsOf_map_self, tripsOf_map_self, tripsOf_map_ne (by decide),
        tripsOf_map_ne (by decide), List.nil_append, List.append_nil]
      rfl
  | replaceMarkets replaced markets =>
    simp only [Call.roundTrips, Call.replaces, tripsOf_append, deletes, replaces]
    by_cases same : kind = replaced
    · subst same
      rw [tripsOf_map_self, tripsOf_map_self, if_pos rfl]
      rfl
    · rw [tripsOf_map_ne (Ne.symm same), tripsOf_map_ne (Ne.symm same), if_neg same]
      rfl

/-- A first part of them is some deletions, or all of them, the deletion of the set
and some additions. -/
theorem slotTrips_prefix {deletes : List (List String)} {upserts : List (List KalshiMarket)}
    {trips : List RoundTrip} (isPrefix : trips <+: slotTrips deletes upserts) :
    (∃ some, some <+: deletes ∧ trips = some.map .deleteMarketBatch) ∨
      ∃ some, some <+: upserts ∧ trips = slotTrips deletes some := by
  obtain ⟨rest, whole⟩ := isPrefix
  rcases List.append_eq_append_iff.mp whole with ⟨more, split, -⟩ | ⟨more, rfl, split⟩
  · obtain ⟨first, second, rfl, rfl, -⟩ := List.map_eq_append_iff.mp split
    exact Or.inl ⟨first, List.prefix_append first second, rfl⟩
  · cases more with
    | nil => exact Or.inl ⟨deletes, List.prefix_refl deletes, by rw [List.append_nil]⟩
    | cons trip later =>
      obtain ⟨rfl, added⟩ := List.cons.inj split
      obtain ⟨first, second, rfl, rfl, -⟩ := List.map_eq_append_iff.mp added
      exact Or.inr ⟨first, List.prefix_append first second, rfl⟩

@[simp]
theorem deletedIn_deletes (batches : List (List String)) :
    deletedIn (batches.map .deleteMarketBatch) = batches.flatten := by
  rw [deletedIn, List.flatMap_map]
  exact List.flatMap_id

@[simp]
theorem addedIn_deletes (batches : List (List String)) :
    addedIn (batches.map .deleteMarketBatch) = [] := by
  rw [addedIn, List.flatMap_map]
  exact List.flatMap_eq_nil_iff.mpr fun _ _ => rfl

@[simp]
theorem deletedIn_slotTrips (deletes : List (List String)) (upserts : List (List KalshiMarket)) :
    deletedIn (slotTrips deletes upserts) = deletes.flatten := by
  have none : deletedIn (upserts.map .upsertMarketBatch) = [] := by
    rw [deletedIn, List.flatMap_map]
    exact List.flatMap_eq_nil_iff.mpr fun _ _ => rfl
  have split : deletedIn (slotTrips deletes upserts) =
      deletedIn (deletes.map .deleteMarketBatch) ++
        deletedIn (upserts.map .upsertMarketBatch) :=
    List.flatMap_append
  rw [split, none, List.append_nil, deletedIn_deletes]

@[simp]
theorem addedIn_slotTrips (deletes : List (List String)) (upserts : List (List KalshiMarket)) :
    addedIn (slotTrips deletes upserts) = upserts.flatten := by
  have added : addedIn (upserts.map .upsertMarketBatch) = upserts.flatten := by
    rw [addedIn, List.flatMap_map]
    exact List.flatMap_id
  have split : addedIn (slotTrips deletes upserts) =
      addedIn (deletes.map .deleteMarketBatch) ++ addedIn (upserts.map .upsertMarketBatch) :=
    List.flatMap_append
  rw [split, added, addedIn_deletes, List.nil_append]

end Trips

section Stages

variable {library : Library} {slot now : Slot} {fresh : Finset String} {trips : List RoundTrip}

/-- The set of the kind has not been deleted: some stale tickers are gone, and the
others are as they were. -/
structure Deleting (slot : Slot) (fresh : Finset String) (trips : List RoundTrip) (now : Slot) :
    Prop where
  uncleared : .deleteSet ∉ trips
  added : addedIn trips = []
  stale : ∀ ticker ∈ deletedIn trips, ticker ∈ slot.activeMarkets ∧ ticker ∉ fresh
  active : ∀ ticker, ticker ∈ now.activeMarkets ↔
    ticker ∈ slot.activeMarkets ∧ ticker ∉ deletedIn trips
  keys : ∀ ticker, now.marketKeys ticker =
    if ticker ∈ deletedIn trips then none else slot.marketKeys ticker

/-- The set of the kind has been deleted: all stale tickers are gone, and the set
lists what has been added since. -/
structure Replacing (library : Library) (slot : Slot) (fresh : Finset String)
    (trips : List RoundTrip) (now : Slot) : Prop where
  cleared : .deleteSet ∈ trips
  added : tickersOf (addedIn trips) ⊆ fresh
  stale : ∀ ticker, ticker ∈ deletedIn trips ↔ ticker ∈ slot.activeMarkets ∧ ticker ∉ fresh
  active : now.activeMarkets = tickersOf (addedIn trips)
  keys : ∀ ticker, (∃ market ∈ addedIn trips, library.Reads market ∧ market.ticker = ticker ∧
      now.marketKeys ticker = some (library.modelDumpJson market)) ∨
    ticker ∉ tickersOf (addedIn trips) ∧ now.marketKeys ticker =
      if ticker ∈ deletedIn trips then none else slot.marketKeys ticker

/-- A kind is in one of the two stages when a call stops. -/
def Stage (library : Library) (slot : Slot) (fresh : Finset String) (trips : List RoundTrip)
    (now : Slot) : Prop :=
  Deleting slot fresh trips now ∨ Replacing library slot fresh trips now

/-- A kind that is not replaced stays as it is. -/
theorem stage_untouched (library : Library) (slot : Slot) :
    Stage library slot slot.activeMarkets [] slot := by
  refine Or.inl ⟨List.not_mem_nil, rfl, ?_, ?_, ?_⟩
  · exact fun ticker impossible => absurd impossible List.not_mem_nil
  · exact fun ticker => (and_iff_left List.not_mem_nil).symm
  · exact fun ticker => (if_neg List.not_mem_nil).symm

/-- The stages of a kind whose markets are replaced. -/
theorem stage_replaced {iteration : Iteration} {markets : List KalshiMarket}
    (reads : ∀ market ∈ markets, library.Reads market)
    (isPrefix : trips <+: slotTrips
      (chunks (iteration.order (slot.activeMarkets \ tickersOf markets)) batchSize)
      (chunks markets batchSize)) :
    Stage library slot (tickersOf markets) trips (trips.foldl (Slot.apply library) slot) := by
  rcases slotTrips_prefix isPrefix with ⟨deletes, some, rfl⟩ | ⟨upserts, some, rfl⟩
  · left
    have stale : ∀ ticker ∈ deletes.flatten,
        ticker ∈ slot.activeMarkets ∧ ticker ∉ tickersOf markets := by
      intro ticker member
      obtain ⟨batch, inDeletes, inBatch⟩ := List.mem_flatten.mp member
      have listed := List.mem_flatten.mpr ⟨batch, some.subset inDeletes, inBatch⟩
      rw [flatten_chunks, iteration.lists, Finset.mem_sdiff] at listed
      exact listed
    rw [foldl_deletes]
    refine ⟨by simp, by simp, ?_, ?_, ?_⟩
    · rw [deletedIn_deletes]
      exact stale
    · intro ticker
      rw [deletedIn_deletes, Finset.mem_sdiff, List.mem_toFinset]
    · intro ticker
      rw [deletedIn_deletes]
  · right
    have added : ∀ market ∈ upserts.flatten, market ∈ markets := by
      intro market member
      obtain ⟨batch, inUpserts, inBatch⟩ := List.mem_flatten.mp member
      have listed := List.mem_flatten.mpr ⟨batch, some.subset inUpserts, inBatch⟩
      rw [flatten_chunks] at listed
      exact listed
    rw [slotTrips, List.foldl_append, List.foldl_cons, foldl_deletes, foldl_upserts,
      ← slotTrips]
    refine ⟨by simp [slotTrips], ?_, ?_, ?_, ?_⟩
    · intro ticker member
      rw [addedIn_slotTrips, tickersOf, List.mem_toFinset] at member
      obtain ⟨market, inUpserts, rfl⟩ := List.mem_map.mp member
      exact List.mem_toFinset.mpr (List.mem_map_of_mem (added market inUpserts))
    · intro ticker
      rw [deletedIn_slotTrips, flatten_chunks, iteration.lists, Finset.mem_sdiff]
    · rw [addedIn_slotTrips]
      exact Finset.empty_union _
    · intro ticker
      rw [addedIn_slotTrips, deletedIn_slotTrips]
      rcases storeMarkets_cases library upserts.flatten
        (fun ticker => if ticker ∈ (chunks (iteration.order
          (slot.activeMarkets \ tickersOf markets)) batchSize).flatten then none
          else slot.marketKeys ticker) ticker with ⟨market, member, same, stored⟩ | kept
      · exact Or.inl ⟨market, member, reads market (added market member), same, stored⟩
      · exact Or.inr kept

/-- Whatever the stage, each active ticker has a key with a market of that ticker. -/
theorem Stage.read (stage : Stage library slot fresh trips now)
    (consistent : slot.Consistent library) {ticker : String} (active : ticker ∈ now.activeMarkets) :
    ∃ raw, now.marketKeys ticker = some raw ∧ raw ≠ "" ∧
      ∃ market, library.modelValidateJson raw = some market ∧ market.ticker = ticker := by
  rcases stage with deleting | replacing
  · obtain ⟨before, present⟩ := (deleting.active ticker).mp active
    obtain ⟨raw, stored⟩ :=
      Option.ne_none_iff_exists'.mp ((consistent.listed ticker).mp before)
    refine ⟨raw, ?_, consistent.read ticker raw stored⟩
    rw [deleting.keys, if_neg present, stored]
  · rcases replacing.keys ticker with
      ⟨market, -, ⟨nonempty, read⟩, same, stored⟩ | ⟨absent, -⟩
    · exact ⟨_, stored, nonempty, market, read, same⟩
    · rw [replacing.active] at active
      exact absurd active absent

/-- So the active tickers are those that are loaded. -/
theorem Stage.loaded_iff (stage : Stage library slot fresh trips now)
    (consistent : slot.Consistent library) (ticker : String) :
    (∃ market ∈ loadKind library now, market.ticker = ticker) ↔ ticker ∈ now.activeMarkets := by
  constructor
  · rintro ⟨market, loaded, rfl⟩
    obtain ⟨other, active, raw, stored, -, read⟩ := (mem_loadKind market).mp loaded
    obtain ⟨_, alsoStored, -, _, alsoRead, rfl⟩ := stage.read consistent active
    obtain rfl := Option.some.inj (stored.symm.trans alsoStored)
    obtain rfl := Option.some.inj (read.symm.trans alsoRead)
    exact active
  · intro active
    obtain ⟨raw, stored, nonempty, market, read, same⟩ := stage.read consistent active
    exact ⟨market, (mem_loadKind market).mpr ⟨ticker, active, raw, stored, nonempty, read⟩, same⟩

/-- Every stored key is listed exactly when a deleted set has its kept tickers back. -/
theorem Stage.listed_iff (stage : Stage library slot fresh trips now)
    (consistent : slot.Consistent library) :
    (∀ ticker, now.marketKeys ticker ≠ none → ticker ∈ now.activeMarkets) ↔
      (.deleteSet ∈ trips → ∀ ticker ∈ slot.activeMarkets, ticker ∈ fresh →
        ticker ∈ tickersOf (addedIn trips)) := by
  rcases stage with deleting | replacing
  · refine iff_of_true ?_ (fun cleared => absurd cleared deleting.uncleared)
    intro ticker stored
    rw [deleting.keys] at stored
    split at stored
    · exact absurd rfl stored
    · next present =>
      exact (deleting.active ticker).mpr ⟨(consistent.listed ticker).mpr stored, present⟩
  · constructor
    · intro listed _ ticker before kept
      rw [← replacing.active]
      apply listed
      rcases replacing.keys ticker with ⟨market, -, -, -, stored⟩ | ⟨-, stored⟩
      · rw [stored]
        exact Option.some_ne_none _
      · rw [stored, if_neg (fun stale => ((replacing.stale ticker).mp stale).2 kept)]
        exact (consistent.listed ticker).mp before
    · intro closed ticker stored
      rw [replacing.active]
      by_contra absent
      rcases replacing.keys ticker with ⟨market, member, -, rfl, -⟩ | ⟨-, kept⟩
      · exact absent (List.mem_toFinset.mpr (List.mem_map_of_mem member))
      · rw [kept] at stored
        split at stored
        · exact stored rfl
        · next present =>
          have before := (consistent.listed ticker).mpr stored
          by_cases stays : ticker ∈ fresh
          · exact absent (closed replacing.cleared ticker before stays)
          · exact present ((replacing.stale ticker).mpr ⟨before, stays⟩)

/-- A deleted ticker was there, stays out of the new snapshot, and is gone. -/
theorem Stage.deleted (stage : Stage library slot fresh trips now) {ticker : String}
    (deleted : ticker ∈ deletedIn trips) :
    ticker ∈ slot.activeMarkets ∧ ticker ∉ fresh ∧ ticker ∉ now.activeMarkets := by
  rcases stage with deleting | replacing
  · obtain ⟨before, stale⟩ := deleting.stale ticker deleted
    exact ⟨before, stale, fun active => ((deleting.active ticker).mp active).2 deleted⟩
  · obtain ⟨before, stale⟩ := (replacing.stale ticker).mp deleted
    refine ⟨before, stale, fun active => stale ?_⟩
    rw [replacing.active] at active
    exact replacing.added active

/-- An added ticker is active, and an active one was there or has been added. -/
theorem Stage.added (stage : Stage library slot fresh trips now) {ticker : String} :
    (ticker ∈ tickersOf (addedIn trips) → ticker ∈ now.activeMarkets) ∧
      (ticker ∈ now.activeMarkets →
        ticker ∈ slot.activeMarkets ∨ ticker ∈ tickersOf (addedIn trips)) := by
  rcases stage with deleting | replacing
  · refine ⟨?_, fun active => Or.inl ((deleting.active ticker).mp active).1⟩
    rw [deleting.added]
    exact fun impossible => absurd impossible (Finset.notMem_empty ticker)
  · rw [replacing.active]
    exact ⟨id, Or.inr⟩

/-- A ticker that was there and has not been deleted is active, unless the set was
deleted and the ticker is one to be added again. -/
theorem Stage.remains (stage : Stage library slot fresh trips now) {ticker : String}
    (before : ticker ∈ slot.activeMarkets) (present : ticker ∉ deletedIn trips)
    (closed : .deleteSet ∈ trips → ticker ∈ fresh → ticker ∈ tickersOf (addedIn trips)) :
    ticker ∈ now.activeMarkets := by
  rcases stage with deleting | replacing
  · exact (deleting.active ticker).mpr ⟨before, present⟩
  · rw [replacing.active]
    apply closed replacing.cleared
    by_contra stale
    exact present ((replacing.stale ticker).mpr ⟨before, stale⟩)

end Stages

/-- Each kind is in a stage when a call stops. -/
theorem stage_stopped {library : Library} (iteration : MarketKind → Iteration) (cache : Cache)
    (call : Call) (count : Nat)
    (reads : ∀ kind, ∀ markets ∈ call.replaces kind, ∀ market ∈ markets, library.Reads market)
    (kind : MarketKind) :
    Stage library (cache kind) (call.snapshot cache kind)
      (tripsOf kind ((call.roundTrips iteration cache).take count))
      (call.stopped library iteration cache count kind) := by
  have isPrefix : tripsOf kind ((call.roundTrips iteration cache).take count) <+:
      tripsOf kind (call.roundTrips iteration cache) :=
    ((List.take_prefix count _).filter _).map Prod.snd
  rw [tripsOf_roundTrips] at isPrefix
  rw [Call.stopped, foldl_apply, ← tripsOf]
  cases replaced : call.replaces kind with
  | none =>
    rw [replaced] at isPrefix
    have stays : call.snapshot cache kind = (cache kind).activeMarkets := by
      rw [Call.snapshot, replaced]
      rfl
    rw [List.prefix_nil.mp isPrefix, stays]
    exact stage_untouched library (cache kind)
  | some markets =>
    rw [replaced] at isPrefix
    have isNew : call.snapshot cache kind = tickersOf markets := by
      rw [Call.snapshot, replaced]
      rfl
    rw [isNew]
    exact stage_replaced (reads kind markets replaced) isPrefix

/-- A kind and a different one are the two kinds. -/
theorem MarketKind.eq_or_eq_other (kind tested : MarketKind) :
    tested = kind ∨ tested = kind.other := by
  cases kind <;> cases tested <;> decide

/-- Wherever a replacement of a consistent cache stops, it is safe exactly when the
round trips that were made have closed what they opened. -/
theorem replacement_safe_iff (library : Library) (iteration : MarketKind → Iteration)
    (cache : Cache) (call : Call) (count : Nat)
    (consistent : ∀ kind, (cache kind).Consistent library)
    (reads : ∀ kind, ∀ markets ∈ call.replaces kind, ∀ market ∈ markets,
      library.Reads market) :
    Safe library cache call (call.stopped library iteration cache count) ↔
      Closed cache call ((call.roundTrips iteration cache).take count) := by
  have stage := stage_stopped iteration cache call count reads
  have loads : ∀ ticker, (∃ market, (∃ data ∈ load library
        (call.stopped library iteration cache count), ∃ kind, market ∈ data.markets kind) ∧
        market.ticker = ticker) ↔
      ∃ kind, ticker ∈ (call.stopped library iteration cache count kind).activeMarkets := by
    intro ticker
    constructor
    · rintro ⟨market, loaded, same⟩
      obtain ⟨kind, member⟩ := (mem_load _ market).mp loaded
      exact ⟨kind, ((stage kind).loaded_iff (consistent kind) ticker).mp ⟨market, member, same⟩⟩
    · rintro ⟨kind, active⟩
      obtain ⟨market, member, same⟩ :=
        ((stage kind).loaded_iff (consistent kind) ticker).mpr active
      exact ⟨market, (mem_load _ market).mpr ⟨kind, member⟩, same⟩
  constructor
  · rintro ⟨loaded, listed⟩
    refine ⟨fun kind => ((stage kind).listed_iff (consistent kind)).mp (listed kind), ?_⟩
    intro kind ticker deleted isNew comes
    obtain ⟨before, -, gone⟩ := (stage kind).deleted deleted
    obtain ⟨found, active⟩ := (loads ticker).mp (loaded ticker ⟨kind, before⟩ ⟨kind.other, comes⟩)
    rcases kind.eq_or_eq_other found with rfl | rfl
    · exact absurd active gone
    · rcases (stage kind.other).added.2 active with old | added
      · exact absurd old isNew
      · exact added
  · rintro ⟨kept, moved⟩
    refine ⟨?_, fun kind => ((stage kind).listed_iff (consistent kind)).mpr (kept kind)⟩
    rintro ticker ⟨kind, before⟩ ⟨newKind, new⟩
    apply (loads ticker).mpr
    -- a ticker that stays in a kind is active there
    have stays : ∀ kind, ticker ∈ (cache kind).activeMarkets →
        ticker ∈ call.snapshot cache kind →
        ticker ∈ (call.stopped library iteration cache count kind).activeMarkets := by
      intro kind before fresh
      apply (stage kind).remains before
      · exact fun deleted => ((stage kind).deleted deleted).2.1 fresh
      · exact fun cleared _ => kept kind cleared ticker before fresh
    rcases kind.eq_or_eq_other newKind with rfl | rfl
    · exact ⟨newKind, stays newKind before new⟩
    · by_cases there : ticker ∈ (cache kind.other).activeMarkets
      · exact ⟨kind.other, stays kind.other there new⟩
      · by_cases deleted : ticker ∈ deletedIn
            (tripsOf kind ((call.roundTrips iteration cache).take count))
        · exact ⟨kind.other, (stage kind.other).added.1 (moved kind ticker deleted there new)⟩
        · refine ⟨kind, (stage kind).remains before deleted ?_⟩
          exact fun cleared fresh => kept kind cleared ticker before fresh

/-- A market of the new snapshot. -/
def sampleMarket : KalshiMarket where
  ticker := "T1"
  eventTicker := ""
  title := ""
  status := ""
  openTs := none
  closeTs := none
  createdTs := none
  settledTs := none

/-- One that is gone in the new snapshot. -/
def staleMarket : KalshiMarket := { sampleMarket with ticker := "T0" }

def sampleText (ticker : String) : String :=
  "\x7b\"ticker\":\"" ++ ticker ++ "\",\"event_ticker\":\"\",\"title\":\"\"," ++
    "\"status\":\"\",\"open_ts\":null,\"close_ts\":null,\"created_ts\":null," ++
    "\"settled_ts\":null\x7d"

/-- A library that writes and reads the two as the real one does. -/
def sampleLibrary : Library where
  modelDumpJson := fun market => sampleText market.ticker
  modelValidateJson := fun raw =>
    if raw = sampleText "T1" then some sampleMarket
    else if raw = sampleText "T0" then some staleMarket else none

/-- The cache holds the market of the new snapshot. -/
def sampleCache : Cache
  | .regular => {
      activeMarkets := {"T1"}
      marketKeys := fun ticker =>
        if ticker = "T1" then some (sampleText ticker) else none }
  | .multivariate => ⟨∅, fun _ => none⟩

theorem sampleLibrary_reads : sampleLibrary.Reads sampleMarket :=
  ⟨by decide, by simp [sampleLibrary, sampleMarket]⟩

theorem sampleCache_consistent (kind : MarketKind) :
    (sampleCache kind).Consistent sampleLibrary := by
  cases kind with
  | regular =>
    constructor
    · intro ticker
      simp [sampleCache]
    · intro ticker raw stored
      obtain ⟨rfl, rfl⟩ : ticker = "T1" ∧ sampleText ticker = raw := by
        simpa [sampleCache] using stored
      exact ⟨sampleLibrary_reads.1, sampleMarket, sampleLibrary_reads.2, rfl⟩
  | multivariate =>
    constructor
    · intro ticker
      simp [sampleCache]
    · intro ticker raw stored
      cases stored

/-- The call replaces the market by itself: the set is deleted, then it is added. -/
def sampleCall : Call := .replaceMarkets .regular [sampleMarket]

theorem sampleCall_roundTrips :
    sampleCall.roundTrips (fun _ => sortedIteration) sampleCache =
      [(.regular, .deleteSet), (.regular, .upsertMarketBatch [sampleMarket])] := by
  have nothingStale : (sampleCache .regular).activeMarkets \ tickersOf [sampleMarket] = ∅ := by
    decide
  rw [sampleCall, Call.roundTrips, nothingStale]
  simp [deleteMarketKeys, sortedIteration, replaceKind, chunks, chunksFrom, batchSize]

/-- The cache holds the other market as well. -/
def agedCache : Cache
  | .regular => {
      activeMarkets := {"T0", "T1"}
      marketKeys := fun ticker =>
        if ticker = "T0" ∨ ticker = "T1" then some (sampleText ticker) else none }
  | .multivariate => ⟨∅, fun _ => none⟩

theorem sampleLibrary_reads_stale : sampleLibrary.Reads staleMarket := by
  have different : sampleText "T0" ≠ sampleText "T1" := by decide
  exact ⟨by decide, by simp [sampleLibrary, staleMarket, different]⟩

theorem agedCache_consistent (kind : MarketKind) :
    (agedCache kind).Consistent sampleLibrary := by
  cases kind with
  | regular =>
    constructor
    · intro ticker
      simp [agedCache, or_iff_not_imp_left]
    · intro ticker raw stored
      obtain ⟨rfl | rfl, rfl⟩ : (ticker = "T0" ∨ ticker = "T1") ∧ sampleText ticker = raw := by
        simpa [agedCache] using stored
      · exact ⟨sampleLibrary_reads_stale.1, staleMarket, sampleLibrary_reads_stale.2, rfl⟩
      · exact ⟨sampleLibrary_reads.1, sampleMarket, sampleLibrary_reads.2, rfl⟩
  | multivariate =>
    constructor
    · intro ticker
      simp [agedCache]
    · intro ticker raw stored
      cases stored

/-- The call deletes the market that is gone, then the set, and adds the one that stays. -/
theorem agedCall_roundTrips :
    sampleCall.roundTrips (fun _ => sortedIteration) agedCache =
      [(.regular, .deleteMarketBatch ["T0"]), (.regular, .deleteSet),
        (.regular, .upsertMarketBatch [sampleMarket])] := by
  have stale : (agedCache .regular).activeMarkets \ tickersOf [sampleMarket] = {"T0"} := by
    decide
  rw [sampleCall, Call.roundTrips, stale]
  simp [deleteMarketKeys, sortedIteration, replaceKind, chunks, chunksFrom, batchSize]

/-- Stopped between its batches, with one market deleted and the set still there. -/
theorem stopped_call_is_safe :
    (sampleCall.roundTrips (fun _ => sortedIteration) agedCache).length = 3 ∧
      Safe sampleLibrary agedCache sampleCall
        (sampleCall.stopped sampleLibrary (fun _ => sortedIteration) agedCache 1) := by
  have reads : ∀ kind, ∀ markets ∈ sampleCall.replaces kind, ∀ market ∈ markets,
      sampleLibrary.Reads market := by
    intro kind markets replaced market member
    cases kind with
    | regular =>
      obtain rfl := Option.some.inj replaced
      obtain rfl := List.mem_singleton.mp member
      exact sampleLibrary_reads
    | multivariate => cases replaced
  refine ⟨by rw [agedCall_roundTrips]; rfl, ?_⟩
  apply (replacement_safe_iff sampleLibrary (fun _ => sortedIteration) agedCache sampleCall 1
    agedCache_consistent reads).mpr
  rw [agedCall_roundTrips]
  constructor
  · intro kind cleared
    cases kind <;> simp [tripsOf] at cleared
  · intro kind ticker deleted _ comes
    cases kind with
    | regular => exact absurd comes (Finset.notMem_empty ticker)
    | multivariate => exact absurd deleted List.not_mem_nil

/-- Stopped between the two round trips, the cache is empty for `load`, and the key
of the market is stored without being listed. -/
theorem interrupted_call_loses_market :
    (∀ kind, (sampleCache kind).Consistent sampleLibrary) ∧
    load sampleLibrary
      (sampleCall.stopped sampleLibrary (fun _ => sortedIteration) sampleCache 1) = none ∧
    ¬ Safe sampleLibrary sampleCache sampleCall
      (sampleCall.stopped sampleLibrary (fun _ => sortedIteration) sampleCache 1) := by
  have stopped : sampleCall.stopped sampleLibrary (fun _ => sortedIteration) sampleCache 1 =
      Cache.apply sampleLibrary sampleCache (.regular, .deleteSet) := by
    rw [Call.stopped, sampleCall_roundTrips]
    rfl
  refine ⟨sampleCache_consistent, ?_, ?_⟩
  · rw [stopped]
    simp [load, loadKind, Cache.apply, Slot.apply, sampleCache, chunks, chunksFrom,
      Function.update]
  · rintro ⟨-, listed⟩
    rw [stopped] at listed
    exact absurd (listed .regular "T1" (by simp [Cache.apply, Slot.apply, sampleCache]))
      (Finset.notMem_empty "T1")

end Collector.KalshiCache
