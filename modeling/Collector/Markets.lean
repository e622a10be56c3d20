import Collector.Events
import Collector.Library.Replay

/-!
# Market records and lifecycle entries

Gamma describes a market by its condition id, its outcomes and its tokens. The
tracker keeps the binary markets and publishes an entry for each one that
appears or resolves; a consumer reads the market out of the entry again. Both
sides take the same token for the yes asset, and a consumer makes of a published
record exactly what the tracker makes of it.
-/

namespace Collector

open Replay (Delta)

/-- A market record as Gamma returns it. -/
structure RawMarket where
  conditionId : String
  outcomes : List String
  clobTokenIds : List String
deriving DecidableEq

/-- One record of `parse_markets`: binary markets only. -/
def parseMarket (raw : RawMarket) : Option Market :=
  match raw.clobTokenIds, raw.outcomes with
  | [first, second], [outcome, _] =>
    if outcome = "Yes" then some ⟨raw.conditionId, first, second⟩
    else some ⟨raw.conditionId, second, first⟩
  | _, _ => none

/-- `parse_markets`: the binary markets in order. -/
def parseMarkets (rawMarkets : List RawMarket) : List Market := rawMarkets.filterMap parseMarket

/-- What a consumer reads of a `new_market` payload. -/
structure NewMarketPayload where
  market : String
  assetsIds : List String
  outcomes : List String
deriving DecidableEq

/-- What a consumer reads of a `market_resolved` payload. -/
structure MarketResolvedPayload where
  market : String
deriving DecidableEq

/-- An entry of the stream of lifecycle events. -/
inductive Entry where
  | newMarket (payload : NewMarketPayload)
  | marketResolved (payload : MarketResolvedPayload)
deriving DecidableEq

/-- The entry published for a new market. -/
def serializeNewMarketEvent (raw : RawMarket) : Entry :=
  .newMarket ⟨raw.conditionId, raw.clobTokenIds, raw.outcomes⟩

/-- The entry published for a resolved market. -/
def serializeResolvedEvent (conditionId : String) : Entry := .marketResolved ⟨conditionId⟩

/-- The market a consumer makes of outcomes and assets. -/
def binaryMarketFromOutcomes (marketHash : String) (outcomes assetIds : List String) :
    Option Market :=
  match outcomes, assetIds with
  | [outcome, _], [first, second] =>
    if outcome = "Yes" then some ⟨marketHash, first, second⟩
    else some ⟨marketHash, second, first⟩
  | _, _ => none

/-- What an entry does to the markets of a consumer. -/
def Entry.delta : Entry → Delta String
  | .newMarket payload =>
    match binaryMarketFromOutcomes payload.market payload.outcomes payload.assetsIds with
    | some market => .add [market.hash]
    | none => .add []
  | .marketResolved payload => if payload.market = "" then .remove [] else .remove [payload.market]

/-- A consumer reads the same market from an entry as the tracker from the record. -/
theorem binaryMarketFromOutcomes_eq (raw : RawMarket) :
    binaryMarketFromOutcomes raw.conditionId raw.outcomes raw.clobTokenIds = parseMarket raw := by
  unfold binaryMarketFromOutcomes parseMarket
  split
  · rename_i outcome other first second outcomes tokens
    simp only [outcomes, tokens]
  · rename_i notBinary
    split
    · rename_i first second outcome other tokens outcomes
      exact (notBinary outcome other first second outcomes tokens).elim
    · rfl

/-- A parsed market goes by its condition id. -/
theorem hash_parseMarket {raw : RawMarket} {market : Market} (parsed : parseMarket raw = some market) :
    market.hash = raw.conditionId := by
  unfold parseMarket at parsed
  split at parsed
  · split at parsed <;> exact congrArg Market.hash (Option.some.inj parsed).symm
  · exact absurd parsed (by simp)

/-- The entry of a binary market adds that market. -/
theorem delta_serializeNewMarketEvent {raw : RawMarket} {market : Market}
    (parsed : parseMarket raw = some market) :
    (serializeNewMarketEvent raw).delta = .add [raw.conditionId] := by
  simp only [serializeNewMarketEvent, Entry.delta, binaryMarketFromOutcomes_eq, parsed,
    hash_parseMarket parsed]

/-- The entry of a resolved market takes it out. -/
theorem delta_serializeResolvedEvent {conditionId : String} (named : conditionId ≠ "") :
    (serializeResolvedEvent conditionId).delta = .remove [conditionId] :=
  if_neg named

end Collector
