import Collector.Interruption
import Collector.Library.Runs
import Mathlib

/-!
# The Kalshi cache as a map

What the cache is for: a map from tickers to markets for each kind, in which a market
replaces the one that had its ticker before, and the highest timestamps seen.
Every completed call of the cache is an operation on that map, and what is loaded
is the map, sorted by ticker. The interruption of a call is the subject of
`Interruption`; here every call runs to its end.
-/

namespace Collector.KalshiCache

/-- The calls that write. A set is iterated in some order within each call; the
watermark has any name. -/
inductive Write where
  | call (iteration : MarketKind → Iteration) (call : Call)
  | upsertMarkets (marketKind : MarketKind) (markets : List KalshiMarket)
  | deleteMarkets (marketKind : MarketKind) (tickers : List String)
  | setWatermark (marketKind : MarketKind) (watermark : String) (value : Int)

/-- The snapshots and the hash of watermarks. -/
structure Store where
  cache : Cache
  watermarks : String → Option String

/-- `_watermark_field`. -/
def watermarkField (marketKind : MarketKind) (watermark : String) : String :=
  marketKind.text ++ ":" ++ watermark

/-- `upsert_markets`. -/
def upsertMarkets (kind : MarketKind) (markets : List KalshiMarket) :
    List (MarketKind × RoundTrip) :=
  (chunks markets batchSize).map fun batch => (kind, .upsertMarketBatch batch)

/-- `delete_markets`. -/
def deleteMarkets (kind : MarketKind) (tickers : List String) : List (MarketKind × RoundTrip) :=
  (chunks tickers batchSize).map fun batch => (kind, .deleteMarketBatch batch)

namespace Store

/-- Nothing is stored. -/
def empty : Store := ⟨fun _ => ⟨∅, fun _ => none⟩, fun _ => none⟩

/-- A call that runs to its end. -/
def write (library : Library) (store : Store) : Write → Store
  | .call iteration call =>
    { store with
      cache := (call.roundTrips iteration store.cache).foldl (Cache.apply library) store.cache }
  | .upsertMarkets kind markets =>
    { store with cache := (upsertMarkets kind markets).foldl (Cache.apply library) store.cache }
  | .deleteMarkets kind tickers =>
    { store with cache := (deleteMarkets kind tickers).foldl (Cache.apply library) store.cache }
  | .setWatermark kind watermark value =>
    { store with
      watermarks := Function.update store.watermarks (watermarkField kind watermark)
        (some value.repr) }

/-- `refresh_count`. -/
def refreshCount (store : Store) : Nat :=
  (store.cache .regular).activeMarkets.card + (store.cache .multivariate).activeMarkets.card

/-- The fields that `load_watermarks` returns. -/
def watermarkFields : List (MarketKind × String) :=
  [(.regular, "created_ts"), (.regular, "settled_ts"), (.multivariate, "created_ts"),
    (.multivariate, "settled_ts")]

/-- `load_watermarks`: a field that is missing or no number counts as zero. -/
def loadWatermarks (store : Store) : List (String × Int) :=
  watermarkFields.map fun (kind, watermark) =>
    (watermarkField kind watermark,
      ((store.watermarks (watermarkField kind watermark)).bind String.toInt?).getD 0)

end Store

/-- What the cache is for. -/
structure Contents where
  markets : MarketKind → String → Option KalshiMarket
  watermarks : MarketKind → String → Option Int

namespace Contents

/-- Nothing is known. -/
def empty : Contents := ⟨fun _ _ => none, fun _ _ => none⟩

/-- Put some markets into a map, one after another. -/
def put (known : String → Option KalshiMarket) (markets : List KalshiMarket) :
    String → Option KalshiMarket :=
  markets.foldl (fun known market => Function.update known market.ticker (some market)) known

/-- What a call does to the map. -/
def write (contents : Contents) : Write → Contents
  | .call _ call =>
    { contents with
      markets := fun kind => match call.replaces kind with
        | some markets => put (fun _ => none) markets
        | none => contents.markets kind }
  | .upsertMarkets kind markets =>
    { contents with
      markets := Function.update contents.markets kind (put (contents.markets kind) markets) }
  | .deleteMarkets kind tickers =>
    { contents with
      markets := Function.update contents.markets kind fun ticker =>
        if ticker ∈ tickers then none else contents.markets kind ticker }
  | .setWatermark kind watermark value =>
    { contents with
      watermarks := Function.update contents.watermarks kind
        (Function.update (contents.watermarks kind) watermark (some value)) }

end Contents

/-- The markets that a call brings. -/
def Write.markets : Write → List KalshiMarket
  | .call _ (.replaceAll data) => data.regularMarkets ++ data.multivariateMarkets
  | .call _ (.replaceMarkets _ markets) => markets
  | .upsertMarkets _ markets => markets
  | _ => []

/-- What stands under the keys of a kind is a map: its tickers are listed, and each
has the text of its market. -/
structure Slot.Holds (library : Library) (slot : Slot) (known : String → Option KalshiMarket) :
    Prop where
  listed : ∀ ticker, ticker ∈ slot.activeMarkets ↔ (known ticker).isSome
  texts : ∀ ticker, slot.marketKeys ticker = (known ticker).map library.modelDumpJson
  named : ∀ ticker market, known ticker = some market →
    market.ticker = ticker ∧ library.Reads market

/-- The store is the map that it is for. -/
structure Represents (library : Library) (store : Store) (contents : Contents) : Prop where
  slots : ∀ kind, (store.cache kind).Holds library (contents.markets kind)
  watermarks : ∀ kind watermark, store.watermarks (watermarkField kind watermark) =
    (contents.watermarks kind watermark).map Int.repr

section Slots

variable {library : Library} {slot : Slot} {known : String → Option KalshiMarket}

/-- What a map has under a ticker after some markets were put in. -/
theorem put_cases (known : String → Option KalshiMarket) (markets : List KalshiMarket)
    (ticker : String) :
    (∃ market ∈ markets, market.ticker = ticker ∧
        Contents.put known markets ticker = some market) ∨
      ticker ∉ tickersOf markets ∧ Contents.put known markets ticker = known ticker := by
  induction markets generalizing known with
  | nil => exact Or.inr ⟨by simp [tickersOf], rfl⟩
  | cons market rest inductionHypothesis =>
    rcases inductionHypothesis (Function.update known market.ticker (some market)) with
      ⟨later, member, same, found⟩ | ⟨absent, kept⟩
    · exact Or.inl ⟨later, List.mem_cons_of_mem market member, same, found⟩
    · by_cases same : market.ticker = ticker
      · refine Or.inl ⟨market, List.mem_cons_self, same, kept.trans ?_⟩
        rw [← same, Function.update_self]
      · refine Or.inr ⟨?_, kept.trans (Function.update_of_ne (Ne.symm same) _ _)⟩
        simp only [tickersOf, List.map_cons, List.toFinset_cons, Finset.mem_insert]
        rintro (isFirst | later)
        · exact same isFirst.symm
        · exact absent later

/-- The tickers of a map after some markets were put in. -/
theorem put_isSome (known : String → Option KalshiMarket) (markets : List KalshiMarket)
    (ticker : String) :
    (Contents.put known markets ticker).isSome ↔
      ticker ∈ tickersOf markets ∨ (known ticker).isSome := by
  rcases put_cases known markets ticker with ⟨market, member, same, found⟩ | ⟨absent, kept⟩
  · have listed : ticker ∈ tickersOf markets :=
      List.mem_toFinset.mpr (List.mem_map.mpr ⟨market, member, same⟩)
    simp [found, listed]
  · simp [kept, absent]

/-- The texts of some markets are stored as the markets are put into the map. -/
theorem storeMarkets_put {keys : String → Option String} {known : String → Option KalshiMarket}
    (texts : ∀ ticker, keys ticker = (known ticker).map library.modelDumpJson)
    (markets : List KalshiMarket) (ticker : String) :
    storeMarkets library keys markets ticker =
      (Contents.put known markets ticker).map library.modelDumpJson := by
  induction markets generalizing keys known with
  | nil => exact texts ticker
  | cons market rest inductionHypothesis =>
    apply inductionHypothesis
    intro tested
    by_cases same : tested = market.ticker
    · simp [same]
    · simp [Function.update_of_ne same, texts tested]

/-- What stood under the tickers of the stored markets does not matter. -/
theorem storeMarkets_congr {left right : String → Option String} (markets : List KalshiMarket)
    (agree : ∀ ticker, ticker ∉ tickersOf markets → left ticker = right ticker) :
    storeMarkets library left markets = storeMarkets library right markets := by
  induction markets generalizing left right with
  | nil => exact funext fun ticker => agree ticker (by simp [tickersOf])
  | cons market rest inductionHypothesis =>
    apply inductionHypothesis
    intro ticker absent
    by_cases same : ticker = market.ticker
    · simp [same]
    · dsimp only
      rw [Function.update_of_ne same, Function.update_of_ne same]
      apply agree
      simp only [tickersOf, List.map_cons, List.toFinset_cons, Finset.mem_insert, not_or]
      exact ⟨same, absent⟩

/-- A market under a ticker was there before or was put in. -/
theorem named_put (named : ∀ ticker market, known ticker = some market →
      market.ticker = ticker ∧ library.Reads market)
    {markets : List KalshiMarket} (reads : ∀ market ∈ markets, library.Reads market)
    (ticker : String) (market : KalshiMarket)
    (found : Contents.put known markets ticker = some market) :
    market.ticker = ticker ∧ library.Reads market := by
  rcases put_cases known markets ticker with ⟨other, member, same, stored⟩ | ⟨_, kept⟩
  · obtain rfl := Option.some.inj (stored.symm.trans found)
    exact ⟨same, reads other member⟩
  · exact named ticker market (kept.symm.trans found)

/-- Adding markets in batches puts them into the map. -/
theorem Slot.Holds.upsert (holds : slot.Holds library known) {markets : List KalshiMarket}
    (reads : ∀ market ∈ markets, library.Reads market) :
    (((chunks markets batchSize).map RoundTrip.upsertMarketBatch).foldl (Slot.apply library)
      slot).Holds library (Contents.put known markets) := by
  rw [foldl_upserts, flatten_chunks]
  refine ⟨?_, storeMarkets_put holds.texts markets, named_put holds.named reads⟩
  intro ticker
  rw [put_isSome, Finset.mem_union, holds.listed, or_comm]

/-- Deleting markets in batches removes them from the map. -/
theorem Slot.Holds.delete (holds : slot.Holds library known) (tickers : List String) :
    (((chunks tickers batchSize).map RoundTrip.deleteMarketBatch).foldl (Slot.apply library)
      slot).Holds library fun ticker => if ticker ∈ tickers then none else known ticker := by
  rw [foldl_deletes, flatten_chunks]
  refine ⟨?_, ?_, ?_⟩
  · intro ticker
    by_cases deleted : ticker ∈ tickers <;> simp [deleted, holds.listed]
  · intro ticker
    by_cases deleted : ticker ∈ tickers <;> simp [deleted, holds.texts]
  · intro ticker market found
    by_cases deleted : ticker ∈ tickers
    · simp [deleted] at found
    · exact holds.named ticker market (by simpa [deleted] using found)

/-- Replacing the markets of a kind leaves the new ones. -/
theorem Slot.Holds.replace (holds : slot.Holds library known) (iteration : Iteration)
    {markets : List KalshiMarket} (reads : ∀ market ∈ markets, library.Reads market) :
    ((slotTrips
        (chunks (iteration.order (slot.activeMarkets \ tickersOf markets)) batchSize)
        (chunks markets batchSize)).foldl (Slot.apply library) slot).Holds library
      (Contents.put (fun _ => none) markets) := by
  rw [slotTrips, List.foldl_append, foldl_deletes, List.foldl_cons, Slot.apply, foldl_upserts,
    flatten_chunks, flatten_chunks]
  refine ⟨?_, ?_, named_put (fun _ _ found => absurd found (by simp)) reads⟩
  · intro ticker
    rw [put_isSome]
    simp
  · intro ticker
    rw [← storeMarkets_put (fun _ => rfl)]
    -- what is not stale was deleted with the stale markets, or has no text
    refine congrFun (storeMarkets_congr markets ?_) ticker
    intro tested absent
    simp only [iteration.lists, Finset.mem_sdiff, holds.texts]
    by_cases active : tested ∈ slot.activeMarkets
    · simp [active, absent]
    · have unknown : known tested = none := by
        rw [← Option.not_isSome_iff_eq_none, ← holds.listed]
        exact active
      simp [unknown]

end Slots

/-- Fields of different kinds or names are different. -/
theorem watermarkField_injective {left right : MarketKind} {name other : String}
    (same : watermarkField left name = watermarkField right other) : left = right ∧ name = other := by
  have chars := congrArg String.toList same
  cases left <;> cases right <;> simp [watermarkField, MarketKind.text] at chars
  · exact ⟨rfl, String.toList_inj.mp chars⟩
  · exact ⟨rfl, String.toList_inj.mp chars⟩

/-- Round trips on the keys of one kind change the map of that kind only. -/
theorem Represents.changed {library : Library} {store : Store} {contents : Contents}
    (represents : Represents library store contents) {changed : MarketKind}
    {trips : List (MarketKind × RoundTrip)} {slotTrips : List RoundTrip}
    (all : trips = slotTrips.map fun trip => (changed, trip))
    {known : String → Option KalshiMarket}
    (does : (store.cache changed).Holds library (contents.markets changed) →
      (slotTrips.foldl (Slot.apply library) (store.cache changed)).Holds library known)
    (kind : MarketKind) :
    (trips.foldl (Cache.apply library) store.cache kind).Holds library
      (Function.update contents.markets changed known kind) := by
  rw [foldl_apply]
  change Slot.Holds library ((tripsOf kind trips).foldl _ _) _
  rw [all]
  by_cases same : kind = changed
  · subst same
    rw [tripsOf_map_self, Function.update_self]
    exact does (represents.slots kind)
  · rw [tripsOf_map_ne (Ne.symm same), Function.update_of_ne same]
    exact represents.slots kind

/-- Every call that runs to its end is the operation on the map that it is for. -/
theorem Represents.write {library : Library} {store : Store} {contents : Contents}
    (represents : Represents library store contents) (write : Write)
    (reads : ∀ market ∈ write.markets, library.Reads market) :
    Represents library (store.write library write) (contents.write write) := by
  cases write with
  | call iteration call =>
    refine ⟨?_, represents.watermarks⟩
    intro kind
    have slot := represents.slots kind
    have trips : tripsOf kind (call.roundTrips iteration store.cache) = _ :=
      tripsOf_roundTrips call kind
    simp only [Store.write, Contents.write, foldl_apply]
    change Slot.Holds library ((tripsOf kind _).foldl _ _) _
    rw [trips]
    cases replaced : call.replaces kind with
    | none => exact slot
    | some markets =>
      refine slot.replace (iteration kind) ?_
      intro market member
      apply reads
      cases call with
      | replaceAll data =>
        obtain rfl := Option.some.inj replaced
        cases kind with
        | regular => exact List.mem_append_left _ member
        | multivariate => exact List.mem_append_right _ member
      | replaceMarkets other added =>
        obtain ⟨_, rfl⟩ := Runs.guarded replaced
        exact member
  | upsertMarkets changed markets =>
    refine ⟨?_, represents.watermarks⟩
    intro kind
    have trips : upsertMarkets changed markets =
        ((chunks markets batchSize).map RoundTrip.upsertMarketBatch).map
          fun trip => (changed, trip) := by
      rw [upsertMarkets, List.map_map]
      rfl
    exact represents.changed trips (fun slot => slot.upsert reads) kind
  | deleteMarkets changed tickers =>
    refine ⟨?_, represents.watermarks⟩
    intro kind
    have trips : deleteMarkets changed tickers =
        ((chunks tickers batchSize).map RoundTrip.deleteMarketBatch).map
          fun trip => (changed, trip) := by
      rw [deleteMarkets, List.map_map]
      rfl
    exact represents.changed trips (fun slot => slot.delete tickers) kind
  | setWatermark changed name value =>
    refine ⟨represents.slots, ?_⟩
    intro kind watermark
    simp only [Store.write, Contents.write]
    by_cases field : watermarkField kind watermark = watermarkField changed name
    · obtain ⟨rfl, rfl⟩ := watermarkField_injective field
      simp
    · rw [Function.update_of_ne field, represents.watermarks]
      by_cases sameKind : kind = changed
      · subst sameKind
        have other : watermark ≠ name := fun same => field (by rw [same])
        simp [Function.update_of_ne other]
      · rw [Function.update_of_ne sameKind]

/-- The store and the map after some calls. -/
def Store.after (library : Library) (writes : List Write) : Store :=
  writes.foldl (Store.write library) .empty

def Contents.after (writes : List Write) : Contents := writes.foldl Contents.write .empty

/-- A store that nobody has written to is the empty map. -/
theorem represents_empty (library : Library) : Represents library .empty .empty where
  slots _ := ⟨fun _ => by simp [Store.empty, Contents.empty], fun _ => rfl,
    fun _ _ found => absurd found (by simp [Contents.empty])⟩
  watermarks _ _ := rfl

theorem represents_after {library : Library} (writes : List Write)
    (reads : ∀ write ∈ writes, ∀ market ∈ write.markets, library.Reads market) :
    Represents library (.after library writes) (.after writes) := by
  have continued : ∀ (store : Store) (contents : Contents), Represents library store contents →
      Represents library (writes.foldl (Store.write library) store)
        (writes.foldl Contents.write contents) := by
    induction writes with
    | nil => exact fun _ _ represents => represents
    | cons write rest inductionHypothesis =>
      intro store contents represents
      apply inductionHypothesis fun later member => reads later (List.mem_cons_of_mem write member)
      exact represents.write write (reads write List.mem_cons_self)
  exact continued .empty .empty (represents_empty library)

section Loading

variable {library : Library} {slot : Slot} {known : String → Option KalshiMarket}

/-- What is loaded is the map, in the order of the tickers. -/
theorem Slot.Holds.loadKind_eq (holds : slot.Holds library known) :
    loadKind library slot = slot.activeMarkets.sort.filterMap known := by
  rw [loadKind, List.flatMap_def, ← List.filterMap_flatten, flatten_chunks]
  apply List.filterMap_congr
  intro ticker _
  rw [holds.texts]
  cases found : known ticker with
  | none => rfl
  | some market =>
    obtain ⟨nonempty, read⟩ := (holds.named ticker market found).2
    simp [nonempty, read]

theorem Slot.Holds.mem_loadKind (holds : slot.Holds library known) (market : KalshiMarket) :
    market ∈ loadKind library slot ↔ known market.ticker = some market := by
  rw [holds.loadKind_eq, List.mem_filterMap]
  constructor
  · rintro ⟨ticker, _, found⟩
    rw [(holds.named ticker market found).1]
    exact found
  · intro found
    exact ⟨market.ticker, (Finset.mem_sort _).mpr ((holds.listed _).mpr (by simp [found])), found⟩

/-- No ticker is loaded twice, and they come in their order. -/
theorem Slot.Holds.sorted (holds : slot.Holds library known) :
    (loadKind library slot).Pairwise fun earlier later => earlier.ticker < later.ticker := by
  rw [holds.loadKind_eq, List.pairwise_filterMap]
  refine (Finset.sortedLT_sort slot.activeMarkets).pairwise.imp ?_
  intro ticker next less first isFirst second isSecond
  rw [(holds.named ticker first isFirst).1, (holds.named next second isSecond).1]
  exact less

/-- Every listed ticker is loaded. -/
theorem Slot.Holds.length_loadKind (holds : slot.Holds library known) :
    (loadKind library slot).length = slot.activeMarkets.card := by
  rw [holds.loadKind_eq, ← Finset.length_sort (· ≤ ·), List.length_filterMap_eq_countP,
    List.countP_eq_length]
  intro ticker member
  exact (holds.listed ticker).mp ((Finset.mem_sort _).mp member)

/-- Nothing is loaded for a kind just when its map is empty. -/
theorem Slot.Holds.loadKind_eq_nil (holds : slot.Holds library known) :
    loadKind library slot = [] ↔ ∀ ticker, known ticker = none := by
  rw [← List.length_eq_zero_iff, holds.length_loadKind, Finset.card_eq_zero,
    Finset.eq_empty_iff_forall_notMem]
  refine forall_congr' fun ticker => ?_
  rw [holds.listed, Option.not_isSome_iff_eq_none]

end Loading

/-- After any calls that ran to their end, on markets that the library reads back, the cache
is the map that the calls describe: it loads every market of the map once, in the order of the
tickers, and nothing exactly when the map is empty; it counts what it loads; and
its watermarks are the values set last, or zero. -/
theorem cache_is_the_map (library : Library) (writes : List Write)
    (reads : ∀ write ∈ writes, ∀ market ∈ write.markets, library.Reads market) :
    (load library (Store.after library writes).cache = none ↔
        ∀ kind ticker, (Contents.after writes).markets kind ticker = none) ∧
      (∀ data, load library (Store.after library writes).cache = some data →
        ∀ kind, (data.markets kind).Pairwise (fun earlier later => earlier.ticker < later.ticker) ∧
          ∀ market, market ∈ data.markets kind ↔
            (Contents.after writes).markets kind market.ticker = some market) ∧
      (Store.after library writes).refreshCount =
        ((load library (Store.after library writes).cache).map fun data =>
          data.regularMarkets.length + data.multivariateMarkets.length).getD 0 ∧
      (Store.after library writes).loadWatermarks =
        Store.watermarkFields.map fun (kind, watermark) =>
          (watermarkField kind watermark,
            ((Contents.after writes).watermarks kind watermark).getD 0) := by
  have represents := represents_after writes reads
  have slots := represents.slots
  have none_iff : load library (Store.after library writes).cache = none ↔
      ∀ kind, loadKind library ((Store.after library writes).cache kind) = [] := by
    unfold load
    simp only
    split
    · next empty =>
      obtain ⟨noRegular, noMultivariate⟩ := Bool.and_eq_true_iff.mp empty
      refine iff_of_true rfl ?_
      rintro (_ | _)
      · exact List.isEmpty_iff.mp noRegular
      · exact List.isEmpty_iff.mp noMultivariate
    · next some =>
      refine iff_of_false nofun ?_
      intro empty
      exact some (by simp [empty])
  have loaded {data : KalshiCacheData}
      (found : load library (Store.after library writes).cache = some data) (kind : MarketKind) :
      data.markets kind = loadKind library ((Store.after library writes).cache kind) := by
    unfold load at found
    simp only at found
    split at found <;> cases found
    cases kind <;> rfl
  refine ⟨?_, ?_, ?_, ?_⟩
  · rw [none_iff]
    exact forall_congr' fun kind => (slots kind).loadKind_eq_nil
  · intro data found kind
    rw [loaded found kind]
    exact ⟨(slots kind).sorted, (slots kind).mem_loadKind⟩
  · rw [Store.refreshCount, ← (slots .regular).length_loadKind,
      ← (slots .multivariate).length_loadKind]
    cases found : load library (Store.after library writes).cache with
    | none => simp [none_iff.mp found]
    | some data =>
      rw [← loaded found .regular, ← loaded found .multivariate]
      rfl
  · refine List.map_congr_left ?_
    rintro ⟨kind, watermark⟩ _
    simp only [represents.watermarks]
    cases (Contents.after writes).watermarks kind watermark with
    | none => rfl
    | some value => simp [Int.toInt?_repr]

/-- A market is added, the kind is replaced, and a watermark is set. -/
def sampleWrites : List Write :=
  [.upsertMarkets .regular [sampleMarket], .setWatermark .regular "created_ts" 7,
    .call (fun _ => sortedIteration) sampleCall]

theorem sample_writes_are_the_map :
    ∃ data, load sampleLibrary (Store.after sampleLibrary sampleWrites).cache = some data ∧
      sampleMarket ∈ data.regularMarkets ∧
      (Store.after sampleLibrary sampleWrites).loadWatermarks =
        [("regular:created_ts", 7), ("regular:settled_ts", 0), ("multivariate:created_ts", 0),
          ("multivariate:settled_ts", 0)] := by
  have reads : ∀ write ∈ sampleWrites, ∀ market ∈ write.markets, sampleLibrary.Reads market := by
    simp [sampleWrites, Write.markets, sampleCall, sampleLibrary_reads]
  have known : (Contents.after sampleWrites).markets .regular "T1" = some sampleMarket := rfl
  obtain ⟨nothing, exact', _, watermarks⟩ := cache_is_the_map sampleLibrary sampleWrites reads
  cases loaded : load sampleLibrary (Store.after sampleLibrary sampleWrites).cache with
  | none => exact absurd (nothing.mp loaded .regular "T1") (by simp [known])
  | some data =>
    exact ⟨data, rfl, ((exact' data loaded .regular).2 sampleMarket).mpr known,
      watermarks.trans (by decide)⟩

end Collector.KalshiCache
