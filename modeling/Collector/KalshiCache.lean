import Mathlib.Data.Finset.Sort
import Mathlib.Data.String.Basic

/-!
# The cache of active Kalshi markets

Redis holds for each kind of market a set of active tickers and one key for each
market. Snapshots are replaced in several round trips: stale markets are deleted in
batches, the set of a kind is deleted, and the new markets are added in batches. A
batch touches the set and its keys in one transaction.

Redis is represented by what stands under the keys of each kind, which no other
key shares. The JSON text of a market is written and read by the model library, and
the order in which a set is iterated is left open.
-/

namespace Collector.KalshiCache

/-- The kinds of markets. -/
inductive MarketKind where
  | regular
  | multivariate
deriving DecidableEq

/-- The word of a kind in keys. -/
def MarketKind.text : MarketKind → String
  | .regular => "regular"
  | .multivariate => "multivariate"

/-- The other one of the two kinds. -/
def MarketKind.other : MarketKind → MarketKind
  | .regular => .multivariate
  | .multivariate => .regular

/-- The configured parts of the keys. -/
structure Keys where
  keyActiveMarkets : String
  keyMarketPrefix : String

/-- The keys of the snapshots. -/
inductive Key where
  | kindSet (kind : MarketKind)
  | market (kind : MarketKind) (ticker : String)
deriving DecidableEq

/-- `_kind_set_key` and `_market_key`. -/
def Key.text (keys : Keys) : Key → String
  | .kindSet kind => keys.keyActiveMarkets ++ ":" ++ kind.text
  | .market kind ticker => keys.keyMarketPrefix ++ ":" ++ kind.text ++ ":" ++ ticker

/-- The keys that are used unless configured otherwise. -/
def defaultKeys : Keys where
  keyActiveMarkets := "kalshi:active_markets"
  keyMarketPrefix := "kalshi:market"

/-- No two of them are the same, whatever the tickers are. -/
theorem key_text_injective : Function.Injective (Key.text defaultKeys) := by
  intro left right same
  have chars := congrArg String.toList same
  cases left with
  | kindSet kind =>
    cases right with
    | kindSet other =>
      cases kind <;> cases other
      · rfl
      · exact absurd same (by decide)
      · exact absurd same (by decide)
      · rfl
    | market other ticker => simp [Key.text, defaultKeys] at chars
  | market kind ticker =>
    cases right with
    | kindSet other => simp [Key.text, defaultKeys] at chars
    | market other next =>
      cases kind <;> cases other <;> simp [Key.text, defaultKeys, MarketKind.text] at chars
      · rw [String.toList_inj.mp chars]
      · rw [String.toList_inj.mp chars]

/-- A market as the cache stores it. An instant is counted in microseconds. -/
structure KalshiMarket where
  ticker : String
  eventTicker : String
  title : String
  status : String
  openTs : Option Int
  closeTs : Option Int
  createdTs : Option Int
  settledTs : Option Int
deriving DecidableEq

/-- A snapshot of both kinds, without the time it was fetched at. -/
structure KalshiCacheData where
  regularMarkets : List KalshiMarket
  multivariateMarkets : List KalshiMarket
deriving DecidableEq

/-- The markets of one kind. -/
def KalshiCacheData.markets (data : KalshiCacheData) : MarketKind → List KalshiMarket
  | .regular => data.regularMarkets
  | .multivariate => data.multivariateMarkets

/-- How the model library writes a market and what it reads from a text. -/
structure Library where
  modelDumpJson : KalshiMarket → String
  modelValidateJson : String → Option KalshiMarket

/-- The market is read from its own text, which is not empty. -/
def Library.Reads (library : Library) (market : KalshiMarket) : Prop :=
  library.modelDumpJson market ≠ "" ∧
    library.modelValidateJson (library.modelDumpJson market) = some market

/-- Some order in which a set is iterated. -/
structure Iteration where
  order : Finset String → List String
  lists : ∀ tickers ticker, ticker ∈ order tickers ↔ ticker ∈ tickers

/-- A set iterated in the order of its tickers. -/
def sortedIteration : Iteration where
  order := fun tickers => tickers.sort
  lists := fun _ _ => Finset.mem_sort _

/-- What stands under the keys of one kind. -/
structure Slot where
  activeMarkets : Finset String
  marketKeys : String → Option String

/-- What stands in Redis. -/
abbrev Cache := MarketKind → Slot

/-- The size of a batch. -/
def batchSize : Nat := 1000

/-- The batches of some items while one is being filled. -/
def chunksFrom {α : Type} (size : Nat) : List α → List α → List (List α)
  | batch, [] => if batch.isEmpty then [] else [batch]
  | batch, item :: rest =>
    if size ≤ (batch ++ [item]).length then (batch ++ [item]) :: chunksFrom size [] rest
    else chunksFrom size (batch ++ [item]) rest

/-- `_chunks`, and the loop of `delete_markets`. -/
def chunks {α : Type} (items : List α) (size : Nat) : List (List α) := chunksFrom size [] items

/-- A writing round trip on the keys of one kind. -/
inductive RoundTrip where
  | deleteMarketBatch (tickers : List String)
  | deleteSet
  | upsertMarketBatch (markets : List KalshiMarket)

/-- Store the texts of some markets, one after another. -/
def storeMarkets (library : Library) (keys : String → Option String)
    (markets : List KalshiMarket) : String → Option String :=
  markets.foldl (fun keys market =>
    Function.update keys market.ticker (some (library.modelDumpJson market))) keys

/-- The tickers of some markets. -/
def tickersOf (markets : List KalshiMarket) : Finset String :=
  (markets.map KalshiMarket.ticker).toFinset

/-- What a round trip does. -/
def Slot.apply (library : Library) (slot : Slot) : RoundTrip → Slot
  | .deleteMarketBatch tickers => {
      activeMarkets := slot.activeMarkets \ tickers.toFinset
      marketKeys := fun ticker => if ticker ∈ tickers then none else slot.marketKeys ticker }
  | .deleteSet => { slot with activeMarkets := ∅ }
  | .upsertMarketBatch markets => {
      activeMarkets := slot.activeMarkets ∪ tickersOf markets
      marketKeys := storeMarkets library slot.marketKeys markets }

/-- One round trip. -/
def Cache.apply (library : Library) (cache : Cache) (trip : MarketKind × RoundTrip) : Cache :=
  Function.update cache trip.1 ((cache trip.1).apply library trip.2)

/-- The two calls that replace a snapshot. -/
inductive Call where
  | replaceAll (data : KalshiCacheData)
  | replaceMarkets (marketKind : MarketKind) (markets : List KalshiMarket)

/-- `_delete_market_keys`: the stale markets of one kind, in batches. -/
def deleteMarketKeys (iteration : Iteration) (kind : MarketKind) (tickers : Finset String) :
    List (MarketKind × RoundTrip) :=
  (chunks (iteration.order tickers) batchSize).map fun batch => (kind, .deleteMarketBatch batch)

/-- `_replace_kind`. -/
def replaceKind (kind : MarketKind) (markets : List KalshiMarket) :
    List (MarketKind × RoundTrip) :=
  (kind, .deleteSet) ::
    (chunks markets batchSize).map fun batch => (kind, .upsertMarketBatch batch)

/-- The writing round trips of a call. The tickers are read before the first one. -/
def Call.roundTrips (iteration : MarketKind → Iteration) (cache : Cache) :
    Call → List (MarketKind × RoundTrip)
  | .replaceAll data =>
    deleteMarketKeys (iteration .regular) .regular
        ((cache .regular).activeMarkets \ tickersOf data.regularMarkets) ++
      deleteMarketKeys (iteration .multivariate) .multivariate
        ((cache .multivariate).activeMarkets \ tickersOf data.multivariateMarkets) ++
      replaceKind .regular data.regularMarkets ++
      replaceKind .multivariate data.multivariateMarkets
  | .replaceMarkets kind markets =>
    deleteMarketKeys (iteration kind) kind ((cache kind).activeMarkets \ tickersOf markets) ++
      replaceKind kind markets

/-- What Redis holds when a call stops after some of its round trips. -/
def Call.stopped (library : Library) (iteration : MarketKind → Iteration) (cache : Cache)
    (call : Call) (count : Nat) : Cache :=
  ((call.roundTrips iteration cache).take count).foldl (Cache.apply library) cache

/-- `_load_kind`: markets without a text, or with one that is not read, are skipped. -/
def loadKind (library : Library) (slot : Slot) : List KalshiMarket :=
  (chunks slot.activeMarkets.sort batchSize).flatMap fun batch =>
    batch.filterMap fun ticker => (slot.marketKeys ticker).bind fun raw =>
      if raw = "" then none else library.modelValidateJson raw

/-- `load`. -/
def load (library : Library) (cache : Cache) : Option KalshiCacheData :=
  let regularMarkets := loadKind library (cache .regular)
  let multivariateMarkets := loadKind library (cache .multivariate)
  if regularMarkets.isEmpty && multivariateMarkets.isEmpty then none
  else some ⟨regularMarkets, multivariateMarkets⟩

section Chunks

variable {α : Type}

/-- Batches hold the items in their order and no others. -/
theorem flatten_chunksFrom (size : Nat) (batch items : List α) :
    (chunksFrom size batch items).flatten = batch ++ items := by
  induction items generalizing batch with
  | nil =>
    unfold chunksFrom
    split
    · rename_i empty
      rw [List.isEmpty_iff.mp empty]
      rfl
    · simp
  | cons item rest inductionHypothesis =>
    unfold chunksFrom
    split
    · rw [List.flatten_cons, inductionHypothesis, List.nil_append, List.append_assoc,
        List.singleton_append]
    · rw [inductionHypothesis, List.append_assoc, List.singleton_append]

@[simp]
theorem flatten_chunks (items : List α) (size : Nat) : (chunks items size).flatten = items :=
  flatten_chunksFrom size [] items

end Chunks

section Slots

variable {library : Library} {slot : Slot}

/-- Round trips on other kinds leave a kind as it is. -/
theorem foldl_apply (cache : Cache) (trips : List (MarketKind × RoundTrip)) (kind : MarketKind) :
    trips.foldl (Cache.apply library) cache kind =
      ((trips.filter fun trip => trip.1 = kind).map Prod.snd).foldl (Slot.apply library)
        (cache kind) := by
  induction trips generalizing cache with
  | nil => rfl
  | cons trip rest inductionHypothesis =>
    rw [List.foldl_cons, inductionHypothesis, Cache.apply]
    by_cases same : trip.1 = kind
    · rw [List.filter_cons_of_pos (by simp [same]), List.map_cons, List.foldl_cons, ← same,
        Function.update_self]
    · rw [List.filter_cons_of_neg (by simp [same]), Function.update_of_ne (Ne.symm same)]

/-- Deleting batches deletes what is in them. -/
theorem foldl_deletes (batches : List (List String)) (slot : Slot) :
    (batches.map RoundTrip.deleteMarketBatch).foldl (Slot.apply library) slot = {
      activeMarkets := slot.activeMarkets \ batches.flatten.toFinset
      marketKeys := fun ticker =>
        if ticker ∈ batches.flatten then none else slot.marketKeys ticker } := by
  induction batches generalizing slot with
  | nil => simp
  | cons batch rest inductionHypothesis =>
    rw [List.map_cons, List.foldl_cons, inductionHypothesis, Slot.apply, List.flatten_cons]
    congr 1
    · ext ticker
      simp only [Finset.mem_sdiff, List.mem_toFinset, List.mem_append]
      tauto
    · funext ticker
      simp only [List.mem_append]
      by_cases first : ticker ∈ batch
      · simp [first]
      · simp [first]

/-- Adding batches lists the markets in them and stores the last text of each. -/
theorem foldl_upserts (batches : List (List KalshiMarket)) (slot : Slot) :
    (batches.map RoundTrip.upsertMarketBatch).foldl (Slot.apply library) slot = {
      activeMarkets := slot.activeMarkets ∪ tickersOf batches.flatten
      marketKeys := storeMarkets library slot.marketKeys batches.flatten } := by
  induction batches generalizing slot with
  | nil => simp [tickersOf, storeMarkets]
  | cons batch rest inductionHypothesis =>
    rw [List.map_cons, List.foldl_cons, inductionHypothesis, Slot.apply, List.flatten_cons,
      storeMarkets, storeMarkets, storeMarkets, List.foldl_append]
    congr 1
    rw [tickersOf, tickersOf, tickersOf, List.map_append, List.toFinset_append,
      Finset.union_assoc]

/-- A stored text is that of a market with the ticker, or was there before. -/
theorem storeMarkets_cases (library : Library) (markets : List KalshiMarket)
    (keys : String → Option String) (ticker : String) :
    (∃ market ∈ markets, market.ticker = ticker ∧
        storeMarkets library keys markets ticker = some (library.modelDumpJson market)) ∨
      ticker ∉ tickersOf markets ∧ storeMarkets library keys markets ticker = keys ticker := by
  induction markets generalizing keys with
  | nil => exact Or.inr ⟨by simp [tickersOf], rfl⟩
  | cons market rest inductionHypothesis =>
    rcases inductionHypothesis (Function.update keys market.ticker
      (some (library.modelDumpJson market))) with ⟨later, member, same, stored⟩ | ⟨absent, kept⟩
    · exact Or.inl ⟨later, List.mem_cons_of_mem market member, same, stored⟩
    · by_cases same : market.ticker = ticker
      · refine Or.inl ⟨market, List.mem_cons_self, same, kept.trans ?_⟩
        rw [← same, Function.update_self]
      · refine Or.inr ⟨?_, kept.trans (Function.update_of_ne (Ne.symm same) _ _)⟩
        simp only [tickersOf, List.map_cons, List.toFinset_cons, Finset.mem_insert]
        rintro (isFirst | later)
        · exact same isFirst.symm
        · exact absent later

/-- A market is loaded when its ticker is active and its text is read. -/
theorem mem_loadKind (market : KalshiMarket) :
    market ∈ loadKind library slot ↔ ∃ ticker ∈ slot.activeMarkets, ∃ raw,
      slot.marketKeys ticker = some raw ∧ raw ≠ "" ∧
        library.modelValidateJson raw = some market := by
  rw [loadKind, List.flatMap_def, ← List.filterMap_flatten, flatten_chunks, List.mem_filterMap]
  simp only [Finset.mem_sort, Option.bind_eq_some_iff]
  constructor
  · rintro ⟨ticker, active, raw, stored, read⟩
    split at read
    · cases read
    · next nonempty => exact ⟨ticker, active, raw, stored, nonempty, read⟩
  · rintro ⟨ticker, active, raw, stored, nonempty, read⟩
    exact ⟨ticker, active, raw, stored, by rw [if_neg nonempty]; exact read⟩

/-- Loading finds the markets of both kinds. -/
theorem mem_load (cache : Cache) (market : KalshiMarket) :
    (∃ data ∈ load library cache, ∃ kind, market ∈ data.markets kind) ↔
      ∃ kind, market ∈ loadKind library (cache kind) := by
  unfold load
  simp only
  split
  · next empty =>
    obtain ⟨noRegular, noMultivariate⟩ := Bool.and_eq_true_iff.mp empty
    refine iff_of_false (by simp) ?_
    rintro ⟨kind, member⟩
    cases kind with
    | regular =>
      rw [List.isEmpty_iff.mp noRegular] at member
      exact List.not_mem_nil member
    | multivariate =>
      rw [List.isEmpty_iff.mp noMultivariate] at member
      exact List.not_mem_nil member
  · constructor
    · rintro ⟨data, found, kind, member⟩
      obtain rfl := Option.some.inj found
      refine ⟨kind, ?_⟩
      cases kind with
      | regular => exact member
      | multivariate => exact member
    · rintro ⟨kind, member⟩
      refine ⟨_, rfl, kind, ?_⟩
      cases kind with
      | regular => exact member
      | multivariate => exact member

end Slots

end Collector.KalshiCache
