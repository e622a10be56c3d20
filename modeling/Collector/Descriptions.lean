import Collector.Gamma
import Collector.StreamRun
import Collector.Library.JsonNesting

/-!
# What the stream and the cache say of a new market

A cycle of the poller for new markets tracks the first record of an id that
`parse_markets` reads, and publishes the last record with that id. The cache is
saved from what is tracked. A consumer decodes the entry, and one that starts
later decodes the cache. Publishing and saving succeed here; what a failure
leaves behind is the subject of `Delivery`.

`json.dumps` is a parameter. A text is read back as the value that was written,
and every text without numbers and not nested too deep is read. The members of
the two documents that no consumer has a field for are left out.
-/

namespace Collector.Descriptions

open Serde
open Gamma (Library MarketSubscription RawField parseRecord Readers)
open StreamRun (StreamId decodeNewMarketPayload decodeText entryOf streamEntryToMap)

section Cycle

variable (python : Library) (dumps : PyValue → String)

/-- A field for the entry: a text that is no JSON becomes the empty list. -/
def loadOrEmpty : RawField → PyValue
  | .absent => .list []
  | .null => .null
  | .array items => .ofStrings items
  | .string text => (python.loads text).getD (.list [])

/-- The payload of a new market. -/
def newMarketPayload (raw : Gamma.RawMarket) : PyValue :=
  .dict [(PyValue.points "question", raw.question.getD (.ofString "")),
    (PyValue.points "market", .ofString raw.id),
    (PyValue.points "assets_ids", loadOrEmpty python raw.clobTokenIds),
    (PyValue.points "outcomes", loadOrEmpty python raw.outcomes)]

/-- `_serialize_new_market_event`. -/
def serializeNewMarketEvent (raw : Gamma.RawMarket) : StreamId :=
  entryOf "new_market" (dumps (newMarketPayload python raw))

/-- The record of a market in a batch; the last one counts. -/
def rawByMarket (rawMarkets : List Gamma.RawMarket) (market : String) : Option Gamma.RawMarket :=
  rawMarkets.reverse.find? fun raw => raw.id = market

/-- The active markets, and the markets added with the entry published for each. -/
structure Cycle where
  active : AList (fun _ : String => MarketSubscription)
  added : List (MarketSubscription × Option StreamId)

/-- Track a market that is not tracked, and publish its entry. -/
def addMarket (rawMarkets : List Gamma.RawMarket) (cycle : Cycle) (market : MarketSubscription) :
    Cycle :=
  if market.market ∈ cycle.active then cycle
  else
    { active := cycle.active.insert market.market market
      added := cycle.added ++ [(market,
        (rawByMarket rawMarkets market.market).map (serializeNewMarketEvent python dumps))] }

/-- A cycle of `_new_markets_poller`; it adds nothing when `parse_markets` raises. -/
def newMarketsCycle (active : AList (fun _ : String => MarketSubscription))
    (rawMarkets : List Gamma.RawMarket) : Option Cycle :=
  (Gamma.parseMarkets python rawMarkets).map fun parsed =>
    parsed.markets.foldl (addMarket python dumps rawMarkets) ⟨active, []⟩

/-- One market of the cache. -/
def cacheEntry (subscription : MarketSubscription) : PyValue :=
  .dict [(PyValue.points "market", .ofString subscription.market),
    (PyValue.points "yes_asset_id", subscription.yesAssetId),
    (PyValue.points "no_asset_id", subscription.noAssetId)]

/-- What `_save_cache` writes. -/
def cacheDocument (subscriptions : List MarketSubscription) : PyValue :=
  .dict [(PyValue.points "markets", .list (subscriptions.map cacheEntry))]

/-- The active markets, the newest first. The cache has them the other way round, but what is
said of it here does not depend on their order. -/
def values (active : AList (fun _ : String => MarketSubscription)) : List MarketSubscription :=
  active.entries.map fun entry => entry.2

end Cycle

section Consumers

variable (read : String → Option Json)

/-- The market that `dispatch` builds from an entry of a new market. -/
def builtMarket (entry : StreamId) : Option Market :=
  match decodeText read decodeNewMarketPayload
      ((streamEntryToMap entry "payload").getD "\x7b\x7d") with
  | .ok payload => binaryMarketFromOutcomes payload.market payload.outcomes payload.assetsIds
  | .error _ => none

def decodeCacheEntry (value : Json) : Except Error Market := do
  let fields ← fields "struct CacheEntry" value
  let market ← requiredField 0 "market" string fields
  let yesAssetId ← requiredField 1 "yes_asset_id" string fields
  let noAssetId ← requiredField 2 "no_asset_id" string fields
  closed 3 fields
  .ok ⟨market, yesAssetId, noAssetId⟩

def decodeCacheDocument (value : Json) : Except Error (List Market) := do
  let fields ← fields "struct CacheDocument" value
  let markets ← requiredField 0 "markets" (list decodeCacheEntry) fields
  closed 1 fields
  .ok markets

/-- `redis_cache::load`. -/
def load (raw : String) : Option (List Market) :=
  (decodeText read decodeCacheDocument raw).toOption

end Consumers

/-- What `json.dumps` writes is read back, if there are no numbers in it and it is
not nested too deep; and nothing else is read. -/
structure Carries (read : String → Option Json) (dumps : PyValue → String) : Prop where
  faithful : ∀ value json, read (dumps value) = some json → value.toJson = some json
  complete : ∀ value json, value.toJson = some json → json.nesting ≤ recursionLimit →
    json.numbers = [] → read (dumps value) = some json

/-- The entry and the cache describe the market that is tracked. -/
def Described (read : String → Option Json) (dumps : PyValue → String) (cycle : Cycle)
    (added : MarketSubscription × Option StreamId) : Prop :=
  ∃ entry market, added.2 = some entry ∧ builtMarket read entry = some market ∧
    cycle.active.lookup added.1.market = some (.ofMarket market) ∧
    ∃ loaded, load read (dumps (cacheDocument (values cycle.active))) = some loaded ∧
      market ∈ loaded

/-- The question of a record can be decoded: it is absent, null or a text. -/
def QuestionDecodes (raw : Gamma.RawMarket) : Prop :=
  raw.question.getD (.ofString "") = .null ∨
    ∃ text, raw.question.getD (.ofString "") = .ofString text

/-- The first record of an id that `parse_markets` reads as a market. -/
def firstParsed (python : Library) (rawMarkets : List Gamma.RawMarket) (id : String) :
    Option MarketSubscription :=
  (rawMarkets.filterMap fun raw => (parseRecord python raw).join).find? fun subscription =>
    subscription.market = id

/-- The last record of the id is, for the Rust parser, the given subscription, and
its question can be decoded. -/
def LastDescribes (read : String → Option Json) (rawMarkets : List Gamma.RawMarket)
    (subscription : MarketSubscription) : Prop :=
  ∃ last market, rawByMarket rawMarkets subscription.market = some last ∧
    Gamma.parseMarket read last = some market ∧ subscription = .ofMarket market ∧
    QuestionDecodes last

section Documents

variable {read : String → Option Json} {dumps : PyValue → String}

/-- A cache entry is written if its ids can be. -/
theorem cacheEntry_toJson (subscription : MarketSubscription) (json : Json) :
    (cacheEntry subscription).toJson = some json ↔
      ∃ yes no, subscription.yesAssetId.toJson = some yes ∧
        subscription.noAssetId.toJson = some no ∧
        json = .object [("market", .string subscription.market), ("yes_asset_id", yes),
          ("no_asset_id", no)] := by
  simp only [cacheEntry, PyValue.toJson, PyValue.membersToJson, PyValue.textOf_points,
    PyValue.toJson_ofString, Option.bind_eq_bind, Option.bind_some, Option.map_eq_some_iff,
    Option.bind_eq_some_iff]
  grind

/-- A cache entry with texts only is decoded. -/
theorem decodeCacheEntry_ok_iff (market yes no : Json) (decoded : Market) :
    decodeCacheEntry (.object [("market", market), ("yes_asset_id", yes), ("no_asset_id", no)]) =
        .ok decoded ↔
      market = .string decoded.hash ∧ yes = .string decoded.yes ∧ no = .string decoded.no := by
  have fieldwise : decodeCacheEntry (.object [("market", market), ("yes_asset_id", yes),
      ("no_asset_id", no)]) = (do .ok ⟨← string market, ← string yes, ← string no⟩) := rfl
  rw [fieldwise, ← string_ok_iff, ← string_ok_iff, ← string_ok_iff]
  obtain ⟨hash, yesText, noText⟩ := decoded
  cases string market <;> cases string yes <;> cases string no <;> simp [bind, Except.bind]

/-- A cache entry decodes exactly if it is that of a market. -/
theorem cacheEntry_iff (subscription : MarketSubscription) (market : Market) :
    (∃ json, (cacheEntry subscription).toJson = some json ∧ decodeCacheEntry json = .ok market) ↔
      subscription = .ofMarket market := by
  obtain ⟨hash, yes, no⟩ := subscription
  simp only [MarketSubscription.ofMarket, Gamma.MarketSubscription.mk.injEq,
    ← PyValue.toJson_eq_string_iff, cacheEntry_toJson]
  constructor
  · rintro ⟨json, ⟨yesJson, noJson, writtenYes, writtenNo, rfl⟩, decoded⟩
    obtain ⟨sameHash, rfl, rfl⟩ := (decodeCacheEntry_ok_iff _ _ _ _).mp decoded
    exact ⟨Json.string.inj sameHash, writtenYes, writtenNo⟩
  · rintro ⟨rfl, writtenYes, writtenNo⟩
    exact ⟨_, ⟨_, _, writtenYes, writtenNo, rfl⟩, rfl⟩

/-- The entries of the cache decode exactly if they are those of the markets. -/
theorem cacheEntries_iff (subscriptions : List MarketSubscription) (markets : List Market) :
    (∃ items, PyValue.itemsToJson (subscriptions.map cacheEntry) = some items ∧
        items.mapM decodeCacheEntry = .ok markets) ↔
      subscriptions = markets.map .ofMarket := by
  simp only [mapM_ok_iff]
  induction subscriptions generalizing markets with
  | nil => cases markets <;> simp [PyValue.itemsToJson]
  | cons subscription subscriptions inductionHypothesis =>
    simp only [List.map_cons, PyValue.itemsToJson]
    constructor
    · rintro ⟨items, written, decoded⟩
      obtain ⟨first, writtenFirst, rest⟩ := Option.bind_eq_some_iff.mp written
      obtain ⟨others, writtenOthers, same⟩ := Option.bind_eq_some_iff.mp rest
      obtain rfl := Option.some.inj same
      cases decoded with
      | cons firstDecoded othersDecoded =>
        rw [List.map_cons, (cacheEntry_iff _ _).mp ⟨first, writtenFirst, firstDecoded⟩,
          (inductionHypothesis _).mp ⟨others, writtenOthers, othersDecoded⟩]
    · intro same
      cases markets with
      | nil => cases same
      | cons market markets =>
        obtain ⟨sameFirst, sameOthers⟩ := List.cons.inj same
        obtain ⟨first, writtenFirst, firstDecoded⟩ := (cacheEntry_iff _ _).mpr sameFirst
        obtain ⟨others, writtenOthers, othersDecoded⟩ := (inductionHypothesis _).mpr sameOthers
        refine ⟨first :: others, ?_, .cons firstDecoded othersDecoded⟩
        rw [writtenFirst, writtenOthers]
        rfl

/-- The entries of markets are flat and hold no numbers. -/
theorem cacheEntries_flat {markets : List Market} {items : List Json}
    (written : PyValue.itemsToJson ((markets.map .ofMarket).map cacheEntry) = some items) :
    Json.nestingItems items ≤ 1 ∧ Json.numbersItems items = [] := by
  induction markets generalizing items with
  | nil =>
    obtain rfl := Option.some.inj written
    exact ⟨Nat.zero_le 1, rfl⟩
  | cons market markets inductionHypothesis =>
    obtain ⟨first, writtenFirst, rest⟩ := Option.bind_eq_some_iff.mp written
    obtain ⟨others, writtenOthers, same⟩ := Option.bind_eq_some_iff.mp rest
    obtain rfl := Option.some.inj same
    obtain ⟨yes, no, writtenYes, writtenNo, rfl⟩ := (cacheEntry_toJson _ _).mp writtenFirst
    rw [MarketSubscription.ofMarket, PyValue.toJson_ofString] at writtenYes writtenNo
    obtain rfl := Option.some.inj writtenYes
    obtain rfl := Option.some.inj writtenNo
    obtain ⟨shallow, numberless⟩ := inductionHypothesis writtenOthers
    constructor
    · simp only [Json.nestingItems, Json.nesting, Json.nestingMembers]
      omega
    · simp [Json.numbersItems, Json.numbers, Json.numbersMembers, numberless]

theorem cacheDocument_toJson (subscriptions : List MarketSubscription) (json : Json) :
    (cacheDocument subscriptions).toJson = some json ↔
      ∃ items, PyValue.itemsToJson (subscriptions.map cacheEntry) = some items ∧
        json = .object [("markets", .array items)] := by
  simp only [cacheDocument, PyValue.toJson, PyValue.membersToJson, PyValue.textOf_points,
    Option.bind_eq_bind, Option.bind_some, Option.map_eq_some_iff, Option.bind_eq_some_iff]
  grind

theorem decodeCacheDocument_object (items : List Json) :
    decodeCacheDocument (.object [("markets", .array items)]) = items.mapM decodeCacheEntry := by
  have fieldwise : decodeCacheDocument (.object [("markets", .array items)]) =
      (do .ok (← items.mapM decodeCacheEntry)) := rfl
  rw [fieldwise]
  cases items.mapM decodeCacheEntry <;> rfl

/-- The cache is read back as the markets whose subscriptions were saved, and is
not read if another subscription was saved. -/
theorem load_iff (carries : Carries read dumps) (subscriptions : List MarketSubscription)
    (markets : List Market) :
    load read (dumps (cacheDocument subscriptions)) = some markets ↔
      subscriptions = markets.map .ofMarket := by
  unfold load decodeText
  constructor
  · intro loaded
    cases found : read (dumps (cacheDocument subscriptions)) with
    | none =>
      rw [found] at loaded
      cases loaded
    | some json =>
      rw [found] at loaded
      obtain ⟨items, written, rfl⟩ :=
        (cacheDocument_toJson _ _).mp (carries.faithful _ _ found)
      refine (cacheEntries_iff _ _).mp ⟨items, written, ?_⟩
      simp only [decodeCacheDocument_object] at loaded
      cases decoded : items.mapM decodeCacheEntry with
      | error error =>
        rw [decoded] at loaded
        cases loaded
      | ok others =>
        rw [decoded] at loaded
        rw [Option.some.inj loaded]
  · rintro rfl
    obtain ⟨items, written, decoded⟩ := (cacheEntries_iff _ markets).mpr rfl
    obtain ⟨shallow, numberless⟩ := cacheEntries_flat written
    have found : read (dumps (cacheDocument (markets.map .ofMarket))) =
        some (.object [("markets", .array items)]) := by
      refine carries.complete _ _ ((cacheDocument_toJson _ _).mpr ⟨items, written, rfl⟩) ?_ ?_
      · simp only [Json.nesting, Json.nestingMembers, recursionLimit]
        omega
      · simp [Json.numbers, Json.numbersMembers, numberless]
    rw [found]
    simp only [decodeCacheDocument_object, decoded]
    rfl

end Documents

section Payloads

variable {read : String → Option Json} {python : Library} {dumps : PyValue → String}

/-- A payload is written if its three values can be. -/
theorem newMarketPayload_toJson (raw : Gamma.RawMarket) (json : Json) :
    (newMarketPayload python raw).toJson = some json ↔
      ∃ question tokens names, (raw.question.getD (.ofString "")).toJson = some question ∧
        (loadOrEmpty python raw.clobTokenIds).toJson = some tokens ∧
        (loadOrEmpty python raw.outcomes).toJson = some names ∧
        json = .object [("question", question), ("market", .string raw.id),
          ("assets_ids", tokens), ("outcomes", names)] := by
  simp only [newMarketPayload, PyValue.toJson, PyValue.membersToJson, PyValue.textOf_points,
    PyValue.toJson_ofString, Option.bind_eq_bind, Option.bind_some, Option.map_eq_some_iff,
    Option.bind_eq_some_iff]
  grind

theorem nullable_string_isOk_iff (value : Json) :
    (∃ text, nullable string value = .ok text) ↔
      value = .null ∨ ∃ text, value = .string text := by
  cases value <;> simp [nullable, string, Except.map]

/-- A payload with a market, two lists of texts and a question is decoded. -/
theorem decodeNewMarketPayload_ok_iff (question market tokens names : Json)
    (payload : NewMarketPayload) :
    decodeNewMarketPayload (.object [("question", question), ("market", market),
        ("assets_ids", tokens), ("outcomes", names)]) = .ok payload ↔
      (question = .null ∨ ∃ text, question = .string text) ∧ market = .string payload.market ∧
        tokens = .array (payload.assetsIds.map .string) ∧
        names = .array (payload.outcomes.map .string) := by
  have fieldwise : decodeNewMarketPayload (.object [("question", question), ("market", market),
      ("assets_ids", tokens), ("outcomes", names)]) = (do
        let hash ← string market
        let assetsIds ← list string tokens
        let outcomes ← list string names
        let _question ← nullable string question
        .ok ⟨hash, assetsIds, outcomes⟩) := rfl
  rw [fieldwise, ← nullable_string_isOk_iff, ← string_ok_iff, ← list_string_ok_iff,
    ← list_string_ok_iff]
  obtain ⟨hash, assetsIds, outcomes⟩ := payload
  cases string market <;> cases list string tokens <;> cases list string names <;>
    cases nullable string question <;> simp [bind, Except.bind]

/-- The text of a payload is decoded exactly if its three values are what the
decoder takes. -/
theorem decode_payload_iff (carries : Carries read dumps) (raw : Gamma.RawMarket)
    (payload : NewMarketPayload) :
    decodeText read decodeNewMarketPayload (dumps (newMarketPayload python raw)) = .ok payload ↔
      QuestionDecodes raw ∧ payload.market = raw.id ∧
        loadOrEmpty python raw.clobTokenIds = .ofStrings payload.assetsIds ∧
        loadOrEmpty python raw.outcomes = .ofStrings payload.outcomes := by
  unfold decodeText QuestionDecodes
  constructor
  · intro decoded
    cases found : read (dumps (newMarketPayload python raw)) with
    | none =>
      rw [found] at decoded
      cases decoded
    | some json =>
      rw [found] at decoded
      obtain ⟨question, tokens, names, writtenQuestion, writtenTokens, writtenNames, rfl⟩ :=
        (newMarketPayload_toJson _ _).mp (carries.faithful _ _ found)
      obtain ⟨isText, sameId, rfl, rfl⟩ := (decodeNewMarketPayload_ok_iff _ _ _ _ _).mp decoded
      refine ⟨?_, (Json.string.inj sameId).symm, PyValue.toJson_eq_strings_iff.mp writtenTokens,
        PyValue.toJson_eq_strings_iff.mp writtenNames⟩
      rcases isText with rfl | ⟨text, rfl⟩
      · exact Or.inl (PyValue.toJson_eq_null_iff.mp writtenQuestion)
      · exact Or.inr ⟨text, PyValue.toJson_eq_string_iff.mp writtenQuestion⟩
  · rintro ⟨isText, sameId, tokens, names⟩
    obtain ⟨question, writtenQuestion, flat⟩ : ∃ question,
        (raw.question.getD (.ofString "")).toJson = some question ∧
          (question = .null ∨ ∃ text, question = .string text) := by
      rcases isText with isNull | ⟨text, isText⟩
      · exact ⟨.null, PyValue.toJson_eq_null_iff.mpr isNull, Or.inl rfl⟩
      · exact ⟨.string text, PyValue.toJson_eq_string_iff.mpr isText, Or.inr ⟨text, rfl⟩⟩
    have found : read (dumps (newMarketPayload python raw)) = some (.object
        [("question", question), ("market", .string raw.id),
          ("assets_ids", .array (payload.assetsIds.map .string)),
          ("outcomes", .array (payload.outcomes.map .string))]) := by
      refine carries.complete _ _ ((newMarketPayload_toJson _ _).mpr ⟨question, _, _,
        writtenQuestion, PyValue.toJson_eq_strings_iff.mpr tokens,
        PyValue.toJson_eq_strings_iff.mpr names, rfl⟩) ?_ ?_
      · rcases flat with rfl | ⟨text, rfl⟩ <;>
          simp [Json.nesting, Json.nestingMembers, recursionLimit]
      · rcases flat with rfl | ⟨text, rfl⟩ <;> simp [Json.numbers, Json.numbersMembers]
    rw [found]
    exact (decodeNewMarketPayload_ok_iff _ _ _ _ _).mpr
      ⟨flat, congrArg Json.string sameId.symm, rfl, rfl⟩

/-- A field that is not the empty list is written as it was loaded. -/
theorem loadOrEmpty_iff {field : RawField} {items : List String} (nonempty : items ≠ []) :
    loadOrEmpty python field = .ofStrings items ↔
      field.load python = some (.ofStrings items) := by
  cases field with
  | absent => simp [loadOrEmpty, RawField.load]
  | null => simp [loadOrEmpty, RawField.load]
  | array strings => simp [loadOrEmpty, RawField.load]
  | string text =>
    simp only [loadOrEmpty, RawField.load]
    cases python.loads text with
    | some value => simp
    | none =>
      -- the empty list stands in for a text that cannot be loaded
      have different : PyValue.list [] ≠ .ofStrings items := by
        simpa [PyValue.ofStrings, eq_comm] using nonempty
      simp [different]

/-- A market of the consumer comes of two lists that are not empty. -/
theorem nonempty_of_binary {hash : String} {outcomes assetIds : List String} {market : Market}
    (binary : binaryMarketFromOutcomes hash outcomes assetIds = some market) :
    outcomes ≠ [] ∧ assetIds ≠ [] := by
  unfold binaryMarketFromOutcomes at binary
  split at binary
  · simp
  · cases binary

theorem parseMarket_iff (raw : Gamma.RawMarket) (market : Market) :
    Gamma.parseMarket read raw = some market ↔
      ∃ tokens names, raw.clobTokenIds.deserialize.intoStrings read = some tokens ∧
        raw.outcomes.deserialize.intoStrings read = some names ∧
        binaryMarketFromOutcomes raw.id names tokens = some market := by
  simp only [Gamma.parseMarket, Option.bind_eq_bind, Option.bind_eq_some_iff,
    ← binaryMarketFromOutcomes_eq]
  grind

/-- The market built from the entry of a record is that of the Rust parser, unless
the question cannot be decoded. -/
theorem builtMarket_iff (readers : Readers read python) (carries : Carries read dumps)
    (raw : Gamma.RawMarket) (market : Market) :
    builtMarket read (serializeNewMarketEvent python dumps raw) = some market ↔
      Gamma.parseMarket read raw = some market ∧ QuestionDecodes raw := by
  have payloadOf : (streamEntryToMap (serializeNewMarketEvent python dumps raw) "payload").getD
      "\x7b\x7d" = dumps (newMarketPayload python raw) := rfl
  rw [parseMarket_iff]
  unfold builtMarket
  rw [payloadOf]
  constructor
  · intro built
    split at built
    · rename_i payload decoded
      obtain ⟨isText, sameId, tokens, names⟩ := (decode_payload_iff carries raw payload).mp decoded
      obtain ⟨outcomesKnown, tokensKnown⟩ := nonempty_of_binary built
      refine ⟨⟨payload.assetsIds, payload.outcomes, ?_, ?_, sameId ▸ built⟩, isText⟩
      · exact Gamma.intoStrings_of_load readers ((loadOrEmpty_iff tokensKnown).mp tokens)
      · exact Gamma.intoStrings_of_load readers ((loadOrEmpty_iff outcomesKnown).mp names)
    · cases built
  · rintro ⟨⟨tokens, names, decodedTokens, decodedNames, binary⟩, isText⟩
    obtain ⟨outcomesKnown, tokensKnown⟩ := nonempty_of_binary binary
    have decoded : decodeText read decodeNewMarketPayload (dumps (newMarketPayload python raw)) =
        .ok ⟨raw.id, tokens, names⟩ := by
      refine (decode_payload_iff carries raw _).mpr ⟨isText, rfl, ?_, ?_⟩
      · exact (loadOrEmpty_iff tokensKnown).mpr
          (Gamma.load_of_intoStrings readers decodedTokens tokensKnown)
      · exact (loadOrEmpty_iff outcomesKnown).mpr
          (Gamma.load_of_intoStrings readers decodedNames outcomesKnown)
    rw [decoded]
    exact binary

/-- A consumer adds to its pool the market it builds. -/
theorem dispatch_builtMarket {pool : Pool} {entry : StreamId} {market : Market}
    (isNew : streamEntryToMap entry "event_type" = some "new_market")
    (built : builtMarket read entry = some market) (choice : Shuffle × Shuffle) :
    StreamRun.dispatch read pool (streamEntryToMap entry) choice =
      (pool.subscribeMarkets [market] choice.1 choice.2).map fun pool => (pool, .ok ()) := by
  unfold builtMarket at built
  split at built
  · rename_i payload decoded
    simp only [StreamRun.dispatch, isNew, Option.getD_some, if_true, decoded, built]
  · cases built

end Payloads

section Cycles

variable {python : Library} {dumps : PyValue → String} {rawMarkets : List Gamma.RawMarket}

/-- A market is found where it was tracked before, or where the first new one of
its id was tracked. -/
theorem lookup_foldl_addMarket (markets : List MarketSubscription) (cycle : Cycle) (id : String) :
    (markets.foldl (addMarket python dumps rawMarkets) cycle).active.lookup id =
      (cycle.active.lookup id).or (markets.find? fun market => market.market = id) := by
  induction markets generalizing cycle with
  | nil => simp
  | cons market markets inductionHypothesis =>
    rw [List.foldl_cons, inductionHypothesis, List.find?_cons, addMarket]
    by_cases tracked : market.market ∈ cycle.active
    · rw [if_pos tracked]
      by_cases same : market.market = id
      · obtain ⟨known, isKnown⟩ := Option.isSome_iff_exists.mp (AList.lookup_isSome.mpr tracked)
        rw [← same, isKnown, Option.some_or, Option.some_or]
      · simp [same]
    · rw [if_neg tracked]
      by_cases same : market.market = id
      · rw [← same, AList.lookup_insert, AList.lookup_eq_none.mpr tracked]
        simp
      · rw [AList.lookup_insert_ne (Ne.symm same)]
        simp [same]

/-- What is added for an id is the first market that has it. -/
theorem mem_added_foldl_addMarket (markets : List MarketSubscription) (cycle : Cycle)
    (subscription : MarketSubscription) (entry : Option StreamId) :
    (subscription, entry) ∈ (markets.foldl (addMarket python dumps rawMarkets) cycle).added ↔
      (subscription, entry) ∈ cycle.added ∨ (subscription.market ∉ cycle.active ∧
        (markets.find? fun market => market.market = subscription.market) = some subscription ∧
        entry = (rawByMarket rawMarkets subscription.market).map
          (serializeNewMarketEvent python dumps)) := by
  induction markets generalizing cycle with
  | nil => simp
  | cons market markets inductionHypothesis =>
    rw [List.foldl_cons, inductionHypothesis, List.find?_cons, addMarket]
    by_cases tracked : market.market ∈ cycle.active
    · rw [if_pos tracked]
      by_cases same : market.market = subscription.market
      · simp [← same, tracked]
      · simp [same]
    · rw [if_neg tracked]
      by_cases same : market.market = subscription.market
      · -- later markets of the id find it tracked
        have retracked : subscription.market ∈ cycle.active.insert subscription.market market :=
          (AList.mem_insert _).mpr (Or.inl rfl)
        have untracked : subscription.market ∉ cycle.active := same ▸ tracked
        simp only [retracked, untracked, same, decide_true, List.mem_append, List.mem_singleton,
          Prod.mk.injEq, Option.some.injEq, not_true_eq_false, not_false_eq_true, true_and,
          false_and, or_false]
        grind
      · have other : ∀ entry' : Option StreamId, (subscription, entry) ≠ (market, entry') := by
          intro entry' equal
          exact same (congrArg (fun pair => pair.1.market) equal).symm
        simp only [AList.mem_insert, Ne.symm same, same, other, decide_false, false_or,
          List.mem_append, List.mem_singleton, or_false]

/-- A cycle that ends tracks and adds the first market of every id. -/
theorem newMarketsCycle_eq_some {active : AList (fun _ : String => MarketSubscription)}
    {cycle : Cycle} (completed : newMarketsCycle python dumps active rawMarkets = some cycle) :
    (∀ id, cycle.active.lookup id =
        (active.lookup id).or (firstParsed python rawMarkets id)) ∧
      ∀ subscription entry, (subscription, entry) ∈ cycle.added ↔
        subscription.market ∉ active ∧
          firstParsed python rawMarkets subscription.market = some subscription ∧
          entry = (rawByMarket rawMarkets subscription.market).map
            (serializeNewMarketEvent python dumps) := by
  obtain ⟨parsed, ended, rfl⟩ := Option.map_eq_some_iff.mp completed
  have markets := (Gamma.markets_of_run ended).2
  rw [List.nil_append] at markets
  rw [markets]
  constructor
  · intro id
    exact lookup_foldl_addMarket _ _ id
  · intro subscription entry
    rw [mem_added_foldl_addMarket]
    simp [firstParsed]

theorem mem_values_iff {active : AList (fun _ : String => MarketSubscription)}
    {subscription : MarketSubscription} :
    subscription ∈ values active ↔ ∃ id, active.lookup id = some subscription := by
  unfold values
  constructor
  · intro member
    obtain ⟨⟨id, found⟩, entry, rfl⟩ := List.mem_map.mp member
    exact ⟨id, AList.mem_lookup_iff.mpr entry⟩
  · rintro ⟨id, found⟩
    exact List.mem_map.mpr ⟨⟨id, subscription⟩, AList.mem_lookup_iff.mp found, rfl⟩

theorem ofMarket_injective : Function.Injective MarketSubscription.ofMarket := by
  rintro ⟨hash, yes, no⟩ ⟨otherHash, otherYes, otherNo⟩ same
  obtain ⟨rfl, sameYes, sameNo⟩ := Gamma.MarketSubscription.mk.inj same
  obtain rfl : yes = otherYes := PyValue.ofString_injective sameYes
  obtain rfl : no = otherNo := PyValue.ofString_injective sameNo
  rfl

/-- The first market read of an id goes by that id. -/
theorem market_of_firstParsed {id : String} {subscription : MarketSubscription}
    (first : firstParsed python rawMarkets id = some subscription) : subscription.market = id := by
  have isFirst := List.find?_some first
  exact of_decide_eq_true isFirst

/-- A tracked market is described by the entry of its last record and by the cache
exactly if that record describes it and every market of the cache has texts as ids. -/
theorem described_iff {read : String → Option Json} (readers : Readers read python)
    (carries : Carries read dumps) {cycle : Cycle} {subscription : MarketSubscription}
    (found : cycle.active.lookup subscription.market = some subscription) :
    Described read dumps cycle (subscription, (rawByMarket rawMarkets subscription.market).map
        (serializeNewMarketEvent python dumps)) ↔
      LastDescribes read rawMarkets subscription ∧
        ∃ loaded : List Market, values cycle.active = loaded.map .ofMarket := by
  constructor
  · rintro ⟨entry, market, published, built, isTracked, loaded, isLoaded, -⟩
    obtain ⟨last, isLast, rfl⟩ := Option.map_eq_some_iff.mp published
    obtain ⟨parsed, isText⟩ := (builtMarket_iff readers carries last market).mp built
    have same : subscription = .ofMarket market := Option.some.inj (found.symm.trans isTracked)
    exact ⟨⟨last, market, isLast, parsed, same, isText⟩, loaded, (load_iff carries _ _).mp isLoaded⟩
  · rintro ⟨⟨last, market, isLast, parsed, rfl, isText⟩, loaded, saved⟩
    have isSaved : MarketSubscription.ofMarket market ∈ values cycle.active :=
      mem_values_iff.mpr ⟨_, found⟩
    rw [saved] at isSaved
    exact ⟨_, market, by rw [isLast]; rfl,
      (builtMarket_iff readers carries last market).mpr ⟨parsed, isText⟩, found, loaded,
      (load_iff carries _ loaded).mpr saved,
      (List.mem_map_of_injective ofMarket_injective).mp isSaved⟩

/-- Where the new markets have texts as ids, all markets of the cache do if those
tracked before do. -/
theorem exists_saved_iff {active : AList (fun _ : String => MarketSubscription)} {cycle : Cycle}
    (tracked : ∀ id, cycle.active.lookup id =
      (active.lookup id).or (firstParsed python rawMarkets id))
    (new : ∀ id ∉ active, ∀ subscription ∈ firstParsed python rawMarkets id,
      ∃ market, subscription = .ofMarket market) :
    (∃ loaded : List Market, values cycle.active = loaded.map .ofMarket) ↔
      ∀ known ∈ values active, ∃ market, known = .ofMarket market := by
  constructor
  · rintro ⟨loaded, saved⟩ known member
    obtain ⟨id, found⟩ := mem_values_iff.mp member
    have stillKnown : known ∈ values cycle.active :=
      mem_values_iff.mpr ⟨id, by rw [tracked, found, Option.some_or]⟩
    rw [saved] at stillKnown
    obtain ⟨market, -, same⟩ := List.mem_map.mp stillKnown
    exact ⟨market, same.symm⟩
  · intro before
    have all : ∀ known ∈ values cycle.active, known ∈ Set.range .ofMarket := by
      intro known member
      obtain ⟨id, found⟩ := mem_values_iff.mp member
      rw [tracked, Option.or_eq_some_iff] at found
      rcases found with old | ⟨absent, first⟩
      · obtain ⟨market, same⟩ := before known (mem_values_iff.mpr ⟨id, old⟩)
        exact ⟨market, same.symm⟩
      · obtain ⟨market, same⟩ := new id (AList.lookup_eq_none.mp absent) known first
        exact ⟨market, same.symm⟩
    obtain ⟨loaded, saved⟩ : values cycle.active ∈ Set.range (List.map .ofMarket) := by
      rw [Set.range_list_map]
      exact all
    exact ⟨loaded, saved.symm⟩

/-- In a batch of records that both parsers read alike, and that are the same
wherever they have the same id, the last record of an id describes the first market. -/
theorem lastDescribes_of_consistent {read : String → Option Json} (readers : Readers read python)
    (agreeable : ∀ raw ∈ rawMarkets, Gamma.Agreeable python raw)
    (texts : ∀ raw ∈ rawMarkets, QuestionDecodes raw)
    (consistent : ∀ raw ∈ rawMarkets, ∀ other ∈ rawMarkets, raw.id = other.id → raw = other)
    {id : String} {subscription : MarketSubscription}
    (first : firstParsed python rawMarkets id = some subscription) :
    LastDescribes read rawMarkets subscription := by
  obtain ⟨raw, member, parsed⟩ := List.mem_filterMap.mp (List.mem_of_find?_eq_some first)
  rw [(Gamma.parseRecord_eq_iff readers raw).mpr (agreeable raw member)] at parsed
  obtain ⟨market, isMarket, rfl⟩ := Option.map_eq_some_iff.mp parsed
  have named : raw.id = market.hash := by
    obtain ⟨_, _, _, _, -, -, rfl⟩ := Gamma.parseMarket_eq_some isMarket
    split <;> rfl
  obtain ⟨last, isLast⟩ : ∃ last, rawByMarket rawMarkets market.hash = some last := by
    apply Option.isSome_iff_exists.mp
    rw [rawByMarket, List.find?_isSome]
    exact ⟨raw, List.mem_reverse.mpr member, decide_eq_true named⟩
  have sameId : last.id = market.hash := by
    have isNamed := List.find?_some isLast
    exact of_decide_eq_true isNamed
  have inBatch : last ∈ rawMarkets := List.mem_reverse.mp (List.mem_of_find?_eq_some isLast)
  obtain rfl := consistent raw member last inBatch (named.trans sameId.symm)
  exact ⟨raw, market, isLast, isMarket, rfl, texts raw member⟩

end Cycles

/-- In every cycle, the consumer builds from the entry of each added market the
market that is tracked and read back from the cache, exactly if two things hold.
The last record of every new id is read by the Rust parser as the first one is by
`parse_markets`, with a question that can be decoded; and once there is a new id,
the markets tracked before have texts as ids. -/
theorem stream_describes_cache_iff (read : String → Option Json) (python : Library)
    (dumps : PyValue → String) (readers : Readers read python) (carries : Carries read dumps)
    (active : AList (fun _ : String => MarketSubscription)) (rawMarkets : List Gamma.RawMarket)
    (cycle : Cycle) (completed : newMarketsCycle python dumps active rawMarkets = some cycle) :
    (∀ added ∈ cycle.added, Described read dumps cycle added) ↔
      (∀ id ∉ active, ∀ subscription ∈ firstParsed python rawMarkets id,
          LastDescribes read rawMarkets subscription) ∧
        ((∃ id ∉ active, (firstParsed python rawMarkets id).isSome) →
          ∀ known ∈ values active, ∃ market, known = .ofMarket market) := by
  obtain ⟨tracked, isAdded⟩ := newMarketsCycle_eq_some completed
  have each : (∀ added ∈ cycle.added, Described read dumps cycle added) ↔
      ∀ id ∉ active, ∀ subscription ∈ firstParsed python rawMarkets id,
        LastDescribes read rawMarkets subscription ∧
          ∃ loaded : List Market, values cycle.active = loaded.map .ofMarket := by
    have found : ∀ id ∉ active, ∀ subscription ∈ firstParsed python rawMarkets id,
        cycle.active.lookup subscription.market = some subscription := by
      intro id untracked subscription first
      obtain rfl := market_of_firstParsed first
      rw [tracked, AList.lookup_eq_none.mpr untracked, Option.none_or, first]
    constructor
    · intro described id untracked subscription first
      obtain rfl := market_of_firstParsed first
      exact (described_iff readers carries (found _ untracked _ first)).mp
        (described _ ((isAdded _ _).mpr ⟨untracked, first, rfl⟩))
    · rintro describes ⟨subscription, entry⟩ member
      obtain ⟨untracked, first, rfl⟩ := (isAdded _ _).mp member
      exact (described_iff readers carries (found _ untracked _ first)).mpr
        (describes _ untracked _ first)
  have texts : ∀ subscription, LastDescribes read rawMarkets subscription →
      ∃ market, subscription = .ofMarket market :=
    fun _ ⟨_, market, _, _, same, _⟩ => ⟨market, same⟩
  rw [each]
  constructor
  · intro all
    refine ⟨fun id untracked subscription first => (all id untracked subscription first).1, ?_⟩
    rintro ⟨id, untracked, isNew⟩
    obtain ⟨subscription, first⟩ := Option.isSome_iff_exists.mp isNew
    exact (exists_saved_iff tracked fun other absent found isFirst =>
      texts found (all other absent found isFirst).1).mp (all id untracked subscription first).2
  · rintro ⟨describes, strings⟩ id untracked subscription first
    refine ⟨describes id untracked subscription first, ?_⟩
    exact (exists_saved_iff tracked fun other absent found isFirst =>
      texts found (describes other absent found isFirst)).mpr
        (strings ⟨id, untracked, Option.isSome_iff_exists.mpr ⟨subscription, first⟩⟩)

/-- `json.dumps` for values with valid numbers, all of whose texts are ASCII. -/
def sampleDumps (value : PyValue) : String :=
  match value.toJson with
  | none => ""
  | some json => if json.NumbersValid then json.textWith [' '] else ""

theorem sample_carries : Carries (Json.parse recursionLimit) sampleDumps where
  faithful := by
    intro value json found
    unfold sampleDumps at found
    have empty : Json.parse recursionLimit "" = none := rfl
    cases written : value.toJson with
    | none =>
      simp only [written, empty] at found
      cases found
    | some other =>
      simp only [written] at found
      split at found
      · rename_i valid
        rw [Json.parse_textWith_eq rfl valid] at found
        split at found
        · exact found
        · cases found
      · rw [empty] at found
        cases found
  complete := by
    intro value json written shallow numberless
    have valid : json.NumbersValid := by
      rw [Json.NumbersValid, numberless]
      simp
    have blank : [' '].all Json.isSpace = true := rfl
    simp only [sampleDumps, written, if_pos valid, Json.parse_textWith_eq blank valid,
      if_pos shallow]

open Gamma (withArrays withTexts sampleLibrary sample_readers)

/-- The market of `withArrays` again, its outcomes the other way round. -/
def withArraysSwapped : Gamma.RawMarket := { withArrays with outcomes := .array ["No", "Yes"] }

theorem sample_cycle_described :
    ∃ cycle, newMarketsCycle sampleLibrary sampleDumps ∅ [withArrays, withTexts, withArrays] =
        some cycle ∧ cycle.added.length = 2 ∧
      ∀ added ∈ cycle.added, Described (Json.parse recursionLimit) sampleDumps cycle added := by
  obtain ⟨cycle, completed, count⟩ : ∃ cycle, newMarketsCycle sampleLibrary sampleDumps ∅
      [withArrays, withTexts, withArrays] = some cycle ∧ cycle.added.length = 2 := ⟨_, rfl, rfl⟩
  refine ⟨cycle, completed, count, (stream_describes_cache_iff _ _ _ sample_readers
    sample_carries ∅ _ cycle completed).mpr ⟨?_, ?_⟩⟩
  · intro id _ subscription first
    apply lastDescribes_of_consistent sample_readers _ _ _ first
    · intro raw member
      simp only [List.mem_cons, List.not_mem_nil, or_false] at member
      rcases member with rfl | rfl | rfl
      · exact (Gamma.parseRecord_eq_iff sample_readers _).mp rfl
      · exact (Gamma.parseRecord_eq_iff sample_readers _).mp rfl
      · exact (Gamma.parseRecord_eq_iff sample_readers _).mp rfl
    · intro raw member
      simp only [List.mem_cons, List.not_mem_nil, or_false] at member
      rcases member with rfl | rfl | rfl <;> exact Or.inr ⟨"", rfl⟩
    · intro raw member other alsoMember same
      simp only [List.mem_cons, List.not_mem_nil, or_false] at member alsoMember
      have different : withArrays.id ≠ withTexts.id := by decide
      grind
  · intro _ known member
    cases member

/-- The first record is tracked and saved, and the last one is published. -/
theorem last_record_is_published :
    ∃ cycle entry, newMarketsCycle sampleLibrary sampleDumps ∅ [withArrays, withArraysSwapped] =
        some cycle ∧
      (.ofMarket ⟨"0xa", "1", "2"⟩, some entry) ∈ cycle.added ∧
      cycle.active.lookup "0xa" = some (.ofMarket ⟨"0xa", "1", "2"⟩) ∧
      builtMarket (Json.parse recursionLimit) entry = some ⟨"0xa", "2", "1"⟩ ∧
      ¬ ∀ added ∈ cycle.added, Described (Json.parse recursionLimit) sampleDumps cycle added := by
  obtain ⟨cycle, completed⟩ : ∃ cycle, newMarketsCycle sampleLibrary sampleDumps ∅
      [withArrays, withArraysSwapped] = some cycle := ⟨_, rfl⟩
  obtain ⟨tracked, isAdded⟩ := newMarketsCycle_eq_some completed
  have first : firstParsed sampleLibrary [withArrays, withArraysSwapped] "0xa" =
      some (.ofMarket ⟨"0xa", "1", "2"⟩) := rfl
  have last : rawByMarket [withArrays, withArraysSwapped] "0xa" = some withArraysSwapped := rfl
  have found : cycle.active.lookup "0xa" = some (.ofMarket ⟨"0xa", "1", "2"⟩) := by
    rw [tracked, first]
    rfl
  have member := (isAdded (.ofMarket ⟨"0xa", "1", "2"⟩) _).mpr
    ⟨AList.notMem_empty _, first, (congrArg _ last).symm⟩
  have built : builtMarket (Json.parse recursionLimit)
      (serializeNewMarketEvent sampleLibrary sampleDumps withArraysSwapped) =
        some ⟨"0xa", "2", "1"⟩ :=
    (builtMarket_iff sample_readers sample_carries _ _).mpr ⟨rfl, Or.inr ⟨"", rfl⟩⟩
  refine ⟨cycle, _, completed, member, found, built, ?_⟩
  intro described
  obtain ⟨entry, market, published, other, alsoFound, -⟩ := described _ member
  rw [← Option.some.inj published, built] at other
  obtain rfl := Option.some.inj other
  have same : MarketSubscription.ofMarket ⟨"0xa", "1", "2"⟩ = .ofMarket ⟨"0xa", "2", "1"⟩ :=
    Option.some.inj (found.symm.trans alsoFound)
  exact absurd (ofMarket_injective same) (by decide)

end Collector.Descriptions
