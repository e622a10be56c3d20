import Collector.Listener
import Collector.StreamRun

/-!
# Two handlers of market events

`dispatch` of the Rust services and the handlers of `stream_listener` act on the same entries. The
Rust task decodes a payload first and acknowledges whatever comes of it. Python takes the payload
as it comes, asks its client, writes a line for the log, and acknowledges an entry when nothing
has raised. The line cuts two texts, which raises for what cannot be cut.

What `json.loads` returns and whether a call of the client returns are parameters.
-/

namespace Collector.MarketEvents

open Listener (Library Members truthy)
open PyValue (get ofString ofStrings ofJson ofMembers)
open Serde (Error defaultField list string named_default of_bind)
open StreamRun (Decodable StreamId decodeText decodeMarketResolvedPayload decodeNewMarketPayload
  dispatch streamEntryToMap)

/-- A market as the Python client is given it; nothing checks the types. -/
structure MarketSubscription where
  market : PyValue
  yesAssetId : PyValue
  noAssetId : PyValue

def MarketSubscription.ofMarket (market : Market) : MarketSubscription where
  market := ofString market.hash
  yesAssetId := ofString market.yes
  noAssetId := ofString market.no

/-- What a handler asks its client for. -/
inductive Request where
  | subscribe (sub : MarketSubscription)
  | unsubscribe (market : PyValue)

/-- The calls that a handler made, and whether it returned. -/
structure Outcome where
  requests : List Request
  returned : Bool

/-- `value[:count]` does not raise. -/
def sliceable : PyValue → Bool
  | .str _ | .list _ => true
  | _ => false

/-- `payload.get("market", "")` -/
def marketOf (payload : Members) : PyValue := (get "market" payload).getD (ofString "")

/-- The texts of the log line can be cut. -/
def logs (payload : Members) : Bool :=
  sliceable (marketOf payload) && sliceable ((get "question" payload).getD (ofString ""))

/-- The subscription of a payload: an exception, no binary market, or one. -/
def subscriptionOf (payload : Members) : Option (Option MarketSubscription) := do
  let assetsIds := (get "assets_ids" payload).getD (.list [])
  let outcomes := (get "outcomes" payload).getD (.list [])
  if (← assetsIds.len) ≠ 2 then some none
  else if (← outcomes.len) ≠ 2 then some none
  else
    let first ← outcomes.item 0
    let yesAsset ← assetsIds.item (if first.isText "Yes" then 0 else 1)
    let noAsset ← assetsIds.item (if first.isText "Yes" then 1 else 0)
    some (some ⟨marketOf payload, yesAsset, noAsset⟩)

section Python

variable {π : Type} (python : Library π) (returns : Request → Bool)

def handleNewMarket (payload : Members) : Outcome :=
  match subscriptionOf payload with
  | none => ⟨[], false⟩
  | some none => ⟨[], sliceable (marketOf payload)⟩
  | some (some sub) => ⟨[.subscribe sub], returns (.subscribe sub) && logs payload⟩

def handleMarketResolved (payload : Members) : Outcome :=
  let market := marketOf payload
  if truthy python market = false then ⟨[], true⟩
  else ⟨[.unsubscribe market], returns (.unsubscribe market) && logs payload⟩

/-- The loop body of `stream_listener` up to the acknowledgement. A payload that is no dictionary
has no `get`. -/
def process (data : String → Option String) : Outcome :=
  let eventType := (data "event_type").getD ""
  match python.loads ((data "payload").getD "\x7b\x7d") with
  | none => ⟨[], false⟩
  | some payload =>
    if eventType = "new_market" then
      match payload with
      | .dict members => handleNewMarket returns members
      | _ => ⟨[], false⟩
    else if eventType = "market_resolved" then
      match payload with
      | .dict members => handleMarketResolved python returns members
      | _ => ⟨[], false⟩
    else ⟨[], true⟩

end Python

/-- What an entry asks of the markets. -/
inductive Change where
  | nothing
  | subscribe (market : Market)
  | unsubscribe (hash : String)

namespace Change

/-- The change as the Rust task makes it. -/
def onPool (pool : Pool) (choice : Shuffle × Shuffle) :
    Change → Option (Pool × Except Error Unit)
  | .nothing => some (pool, .ok ())
  | .subscribe market =>
    (pool.subscribeMarkets [market] choice.1 choice.2).map fun pool => (pool, .ok ())
  | .unsubscribe hash => some (pool.unsubscribeMarkets [hash], .ok ())

def ofNewMarket (payload : NewMarketPayload) : Change :=
  match binaryMarketFromOutcomes payload.market payload.outcomes payload.assetsIds with
  | none => .nothing
  | some market => .subscribe market

def ofMarketResolved (payload : MarketResolvedPayload) : Change :=
  if payload.market = "" then .nothing else .unsubscribe payload.market

/-- The calls of the Python client that make the change. -/
def requests : Change → List Request
  | .nothing => []
  | .subscribe market => [.subscribe (.ofMarket market)]
  | .unsubscribe hash => [.unsubscribe (ofString hash)]

end Change

section Payloads

variable {members : List (String × Json)} {position : Nat} {name : String}

/-- A text that Rust decodes is that text in Python, also by default. -/
theorem getD_string {text : String}
    (decoded : defaultField position name "" string (.named members) = .ok text) :
    (get name (ofMembers members)).getD (ofString "") = ofString text := by
  obtain ⟨looked, rfl⟩ | ⟨json, looked, isText⟩ := named_default decoded
  · rw [PyValue.get_ofMembers looked]
    rfl
  · obtain rfl := (Serde.string_ok_iff json text).mp isText
    rw [PyValue.get_ofMembers looked, Option.map_some, Option.getD_some, ofJson]

/-- The same of a list of texts. -/
theorem getD_strings {texts : List String}
    (decoded : defaultField position name [] (list string) (.named members) = .ok texts) :
    (get name (ofMembers members)).getD (.list []) = ofStrings texts := by
  obtain ⟨looked, rfl⟩ | ⟨json, looked, areTexts⟩ := named_default decoded
  · rw [PyValue.get_ofMembers looked]
    rfl
  · obtain rfl := (Serde.list_string_ok_iff json texts).mp areTexts
    rw [PyValue.get_ofMembers looked, Option.map_some, Option.getD_some, ofJson,
      PyValue.ofItems_eq, ofStrings, List.map_map]
    rfl

theorem not_binary {market : String} {assetsIds outcomes : List String}
    (other : assetsIds.length ≠ 2 ∨ outcomes.length ≠ 2) :
    binaryMarketFromOutcomes market outcomes assetsIds = none := by
  unfold binaryMarketFromOutcomes
  split
  · simp at other
  · rfl

/-- Of lists of texts both handlers make the same market. -/
theorem subscriptionOf_texts {payload : Members} {market : String}
    {assetsIds outcomes : List String} (isMarket : marketOf payload = ofString market)
    (areAssets : (get "assets_ids" payload).getD (.list []) = ofStrings assetsIds)
    (areOutcomes : (get "outcomes" payload).getD (.list []) = ofStrings outcomes) :
    subscriptionOf payload =
      some ((binaryMarketFromOutcomes market outcomes assetsIds).map .ofMarket) := by
  unfold subscriptionOf
  rw [areAssets, areOutcomes, isMarket]
  simp only [PyValue.len_ofStrings, Option.bind_eq_bind, Option.bind_some]
  by_cases twoAssets : assetsIds.length = 2
  · by_cases twoOutcomes : outcomes.length = 2
    · obtain ⟨first, second, rfl⟩ := List.length_eq_two.mp twoAssets
      obtain ⟨outcome, other, rfl⟩ := List.length_eq_two.mp twoOutcomes
      by_cases isYes : outcome = "Yes"
      · simp [binaryMarketFromOutcomes, isYes, MarketSubscription.ofMarket]
      · simp [binaryMarketFromOutcomes, isYes, MarketSubscription.ofMarket]
    · rw [if_neg (not_not.mpr twoAssets), if_pos twoOutcomes, not_binary (.inr twoOutcomes),
        Option.map_none]
  · rw [if_pos twoAssets, not_binary (.inl twoAssets), Option.map_none]

/-- The log line of a payload with a text for its market. -/
theorem logs_iff {payload : Members} {market : String}
    (isMarket : marketOf payload = ofString market) : logs payload = true ↔
      ∀ question, get "question" payload = some question → sliceable question = true := by
  rw [logs, isMarket, ofString, sliceable, Bool.true_and]
  cases get "question" payload with
  | none => simp [ofString, sliceable]
  | some question => simp

end Payloads

theorem ok_of_isOk {α : Type} {result : Except Error α} (isOk : result.isOk = true) :
    ∃ value, result = .ok value := by
  cases result with
  | error error => cases isOk
  | ok value => exact ⟨value, rfl⟩

section Handlers

variable {π : Type} {python : Library π} {returns : Request → Bool}
  {members : List (String × Json)} {change : Change}

/-- A handler makes a change of the markets, and returns if its call does and the log line has
texts. -/
structure Makes (returns : Request → Bool) (members : List (String × Json)) (change : Change)
    (outcome : Outcome) : Prop where
  requests : outcome.requests = change.requests
  returned : outcome.returned = true ↔ ∀ request ∈ change.requests, returns request = true ∧
    ∀ question, get "question" (ofMembers members) = some question → sliceable question = true

theorem makes_nothing : Makes returns members .nothing ⟨[], true⟩ where
  requests := rfl
  returned := iff_of_true rfl nofun

theorem makes_request {request : Request} (asks : change.requests = [request]) {market : String}
    (isMarket : marketOf (ofMembers members) = ofString market) :
    Makes returns members change ⟨[request], returns request && logs (ofMembers members)⟩ where
  requests := asks.symm
  returned := by
    rw [Bool.and_eq_true, logs_iff isMarket, asks, List.forall_mem_singleton]

theorem newMarket_makes {payload : NewMarketPayload}
    (decoded : decodeNewMarketPayload (.object members) = .ok payload) :
    Makes returns members (.ofNewMarket payload)
      (handleNewMarket returns (ofMembers members)) := by
  obtain ⟨fields, named, decoded⟩ := of_bind decoded
  obtain rfl := Except.ok.inj named
  obtain ⟨market, isMarket, decoded⟩ := of_bind decoded
  obtain ⟨assetsIds, areAssets, decoded⟩ := of_bind decoded
  obtain ⟨outcomes, areOutcomes, decoded⟩ := of_bind decoded
  obtain ⟨_, -, decoded⟩ := of_bind decoded
  obtain ⟨_, -, decoded⟩ := of_bind decoded
  obtain rfl := Except.ok.inj decoded
  have isText : marketOf (ofMembers members) = ofString market := getD_string isMarket
  have made := subscriptionOf_texts isText (getD_strings areAssets) (getD_strings areOutcomes)
  unfold handleNewMarket Change.ofNewMarket
  rw [made]
  simp only
  cases binaryMarketFromOutcomes market outcomes assetsIds with
  | none =>
    simp only [Option.map_none, isText]
    exact makes_nothing
  | some binary =>
    simp only [Option.map_some]
    exact makes_request rfl isText

theorem marketResolved_makes {payload : MarketResolvedPayload}
    (decoded : decodeMarketResolvedPayload (.object members) = .ok payload) :
    Makes returns members (.ofMarketResolved payload)
      (handleMarketResolved python returns (ofMembers members)) := by
  obtain ⟨fields, named, decoded⟩ := of_bind decoded
  obtain rfl := Except.ok.inj named
  obtain ⟨market, isMarket, decoded⟩ := of_bind decoded
  obtain ⟨_, -, decoded⟩ := of_bind decoded
  obtain ⟨_, -, decoded⟩ := of_bind decoded
  obtain rfl := Except.ok.inj decoded
  have isText : marketOf (ofMembers members) = ofString market := getD_string isMarket
  unfold handleMarketResolved Change.ofMarketResolved
  simp only [isText, Listener.truthy_ofString, decide_eq_false_iff_not, not_not]
  split
  · exact makes_nothing
  · exact makes_request rfl isText

end Handlers

/-- An entry that the Rust task decodes from a dictionary changes the markets alike in both
services. Rust returns an error for none of them; Python acknowledges an entry just when the call
it makes returns and the question, if the entry names one, can be cut. -/
theorem handlers_agree {π : Type} {read : String → Option Json} {python : Library π}
    (returns : Request → Bool) {entry : StreamId} {members : List (String × Json)}
    (decodable : Decodable read entry)
    (reads : read ((streamEntryToMap entry "payload").getD "{}") = some (.object members))
    (loads : python.loads ((streamEntryToMap entry "payload").getD "{}") =
      some (ofJson (.object members))) :
    ∃ change : Change,
      (∀ pool choice, dispatch read pool (streamEntryToMap entry) choice =
        change.onPool pool choice) ∧
      (process python returns (streamEntryToMap entry)).requests = change.requests ∧
      ((process python returns (streamEntryToMap entry)).returned = true ↔
        ∀ request ∈ change.requests, returns request = true ∧
          ∀ question, get "question" (ofMembers members) = some question →
            sliceable question = true) := by
  have named {eventType : String} (nonempty : eventType ≠ "")
      (same : (streamEntryToMap entry "event_type").getD "" = eventType) :
      streamEntryToMap entry "event_type" = some eventType := by
    cases found : streamEntryToMap entry "event_type" with
    | none => exact absurd (by rw [← same, found]; rfl) nonempty
    | some other => rw [← same, found, Option.getD_some]
  by_cases isNew : (streamEntryToMap entry "event_type").getD "" = "new_market"
  · have isType := named (by decide) isNew
    obtain ⟨payload, decoded⟩ := ok_of_isOk (decodable.1 isType)
    have processed : process python returns (streamEntryToMap entry) =
        handleNewMarket returns (ofMembers members) := by
      simp only [process, loads, isNew, if_true, ofJson]
    refine ⟨.ofNewMarket payload, ?_, ?_⟩
    · intro pool choice
      rw [StreamRun.dispatch_newMarket isType decoded, Consumer.dispatch, Change.ofNewMarket]
      cases binaryMarketFromOutcomes payload.market payload.outcomes payload.assetsIds <;> rfl
    · rw [decodeText, reads] at decoded
      have makes : Makes returns members (.ofNewMarket payload)
          (handleNewMarket returns (ofMembers members)) := newMarket_makes decoded
      rw [processed]
      exact ⟨makes.requests, makes.returned⟩
  by_cases isResolved : (streamEntryToMap entry "event_type").getD "" = "market_resolved"
  · have isType := named (by decide) isResolved
    obtain ⟨payload, decoded⟩ := ok_of_isOk (decodable.2 isType)
    have processed : process python returns (streamEntryToMap entry) =
        handleMarketResolved python returns (ofMembers members) := by
      have other : "market_resolved" ≠ "new_market" := by decide
      simp only [process, loads, isResolved, if_neg other, if_true, ofJson]
    refine ⟨.ofMarketResolved payload, ?_, ?_⟩
    · intro pool choice
      rw [StreamRun.dispatch_marketResolved isType decoded, Consumer.dispatch,
        Change.ofMarketResolved]
      split <;> rfl
    · rw [decodeText, reads] at decoded
      have makes : Makes returns members (.ofMarketResolved payload)
          (handleMarketResolved python returns (ofMembers members)) := marketResolved_makes decoded
      rw [processed]
      exact ⟨makes.requests, makes.returned⟩
  · have ignored : process python returns (streamEntryToMap entry) = ⟨[], true⟩ := by
      simp only [process, loads, isNew, isResolved, if_false]
    refine ⟨.nothing, ?_, ?_⟩
    · intro pool choice
      simp only [dispatch, isNew, isResolved, if_false, Change.onPool]
    · have makes : Makes returns members .nothing ⟨[], true⟩ := makes_nothing
      rw [ignored]
      exact ⟨makes.requests, makes.returned⟩

/-- A binary market whose question is null. -/
def sampleMembers : List (String × Json) :=
  [("market", .string "0xa"), ("assets_ids", .array [.string "1", .string "2"]),
    ("outcomes", .array [.string "Yes", .string "No"]), ("question", .null)]

def sampleEntry : StreamId := StreamRun.entryOf "new_market" (Json.object sampleMembers).text

theorem payload_entryOf (eventType payload : String) :
    streamEntryToMap (StreamRun.entryOf eventType payload) "payload" = some payload := rfl

theorem type_entryOf (eventType payload : String) :
    streamEntryToMap (StreamRun.entryOf eventType payload) "event_type" = some eventType := rfl

theorem parse_sampleEntry :
    Json.parse Serde.recursionLimit ((streamEntryToMap sampleEntry "payload").getD "\x7b\x7d") =
      some (.object sampleMembers) := by
  rw [sampleEntry, payload_entryOf, Option.getD_some]
  apply Json.parse_text
  simp [sampleMembers, Json.Readable, Json.ReadableMembers, Json.ReadableItems,
    Serde.recursionLimit]

/-- Python subscribes to the market as Rust does, and raises then. -/
theorem null_question_is_not_acknowledged :
    ∃ change : Change,
      (∀ pool choice, dispatch (Json.parse Serde.recursionLimit) pool
        (streamEntryToMap sampleEntry) choice = change.onPool pool choice) ∧
      change.requests = [.subscribe (.ofMarket ⟨"0xa", "1", "2"⟩)] ∧
      (process Listener.plainPython (fun _ => true)
        (streamEntryToMap sampleEntry)).returned = false := by
  have decodable : Decodable (Json.parse Serde.recursionLimit) sampleEntry := by
    constructor
    · intro _
      rw [decodeText, parse_sampleEntry]
      rfl
    · intro isResolved
      rw [sampleEntry, type_entryOf] at isResolved
      exact absurd (Option.some.inj isResolved) (by decide)
  have loads : Listener.plainPython.loads
      ((streamEntryToMap sampleEntry "payload").getD "\x7b\x7d") =
        some (ofJson (.object sampleMembers)) := by
    simp only [Listener.plainPython, parse_sampleEntry, Option.map_some]
  have isNew : (streamEntryToMap sampleEntry "event_type").getD "" = "new_market" := by
    rw [sampleEntry, type_entryOf, Option.getD_some]
  obtain ⟨change, made, requests, returned⟩ :=
    handlers_agree (fun _ => true) decodable parse_sampleEntry loads
  have processed : process Listener.plainPython (fun _ => true) (streamEntryToMap sampleEntry) =
      ⟨[.subscribe (.ofMarket ⟨"0xa", "1", "2"⟩)], false⟩ := by
    simp only [process, loads, isNew, if_true, ofJson]
    rfl
  rw [processed] at requests ⊢
  exact ⟨change, made, requests.symm, rfl⟩

end Collector.MarketEvents
