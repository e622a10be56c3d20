import Collector.Markets
import Collector.Library.PyValue
import Collector.Library.Runs
import Collector.Library.Serde

/-!
# Two parsers of Gamma records

Gamma gives the tokens and the outcomes of a market as arrays or as JSON texts of
arrays. `parse_markets` of the Python clients and `parse_market` of the Rust
fallback keep the binary markets. The Rust parser skips a record that it cannot
decode. The Python parser takes what `json.loads` returns as it comes, and an
exception ends the whole list.

The two readers of JSON are parameters, as is the reader of ISO dates. Both
readers take the same texts for arrays of strings.
-/

namespace Collector.Gamma

open Serde

/-- A field of a record: absent, null, an array of strings, or a string. -/
inductive RawField where
  | absent
  | null
  | array (items : List String)
  | string (text : String)

/-- A market record as Gamma returns it. -/
structure RawMarket where
  conditionId : Option String
  clobTokenIds : RawField
  outcomes : RawField
  startDate : Option String
  question : Option PyValue

/-- The condition id, empty when it is absent. -/
def RawMarket.id (raw : RawMarket) : String := raw.conditionId.getD ""

section Rust

/-- Gamma's field as the Rust parser decodes it. -/
inductive StringOrJsonArray where
  | array (items : List String)
  | encoded (text : String)
  | empty

/-- An absent field has a default, and the variants are tried in order. -/
def RawField.deserialize : RawField → StringOrJsonArray
  | .absent => .empty
  | .null => .empty
  | .array items => .array items
  | .string text => .encoded text

variable (read : String → Option Json)

/-- `serde_json::from_str::<Vec<String>>`. -/
def fromStr (text : String) : Option (List String) :=
  (read text).bind fun value => (list string value).toOption

def StringOrJsonArray.intoStrings : StringOrJsonArray → Option (List String)
  | .array items => some items
  | .encoded text => if text = "" then some [] else fromStr read text
  | .empty => some []

/-- A record that is not binary or not decodable has no market. -/
def parseMarket (raw : RawMarket) : Option Market := do
  let clobTokens ← raw.clobTokenIds.deserialize.intoStrings read
  let outcomes ← raw.outcomes.deserialize.intoStrings read
  Collector.parseMarket ⟨raw.id, outcomes, clobTokens⟩

end Rust

section Python

/-- A market as the Python clients keep it; nothing checks the types. -/
structure MarketSubscription where
  market : String
  yesAssetId : PyValue
  noAssetId : PyValue

/-- The subscription of a market. -/
def MarketSubscription.ofMarket (market : Market) : MarketSubscription where
  market := market.hash
  yesAssetId := .ofString market.yes
  noAssetId := .ofString market.no

/-- A `datetime`, with a zone or without. -/
structure DateTime where
  zoned : Bool
  micros : Int

/-- `left < right`; one with a zone and one without cannot be compared. -/
def DateTime.before (left right : DateTime) : Option Bool :=
  if left.zoned = right.zoned then some (left.micros < right.micros) else none

/-- The markets parsed so far and the bounds of their start dates. -/
structure ActiveMarkets where
  markets : List MarketSubscription
  minStartDate : Option DateTime
  maxStartDate : Option DateTime

/-- The parts of Python's library that the parser uses. -/
structure Library where
  loads : String → Option PyValue
  fromIsoFormat : String → Option DateTime

variable (python : Library)

/-- `_parse_start_date`: `Z` is spelled out before the date is read. -/
def parseStartDate (raw : Option String) : Option DateTime :=
  match raw with
  | none => none
  | some text =>
    if text = "" then none
    else python.fromIsoFormat <| String.ofList <| text.toList.flatMap fun char =>
      if char = 'Z' then "+00:00".toList else [char]

/-- A field after `json.loads` where it is a string. -/
def RawField.load : RawField → Option PyValue
  | .absent => some (.list [])
  | .null => some .null
  | .array items => some (.ofStrings items)
  | .string text => python.loads text

/-- One record: an exception, a record that is skipped, or a subscription. -/
def parseRecord (raw : RawMarket) : Option (Option MarketSubscription) := do
  let assetIds ← raw.clobTokenIds.load python
  let outcomes ← raw.outcomes.load python
  if (← assetIds.len) ≠ 2 then some none
  else if (← outcomes.len) ≠ 2 then some none
  else
    let first ← outcomes.item 0
    let yesAssetId ← assetIds.item (if first.isText "Yes" then 0 else 1)
    let noAssetId ← assetIds.item (if first.isText "Yes" then 1 else 0)
    some (some ⟨raw.id, yesAssetId, noAssetId⟩)

/-- The earlier of two start dates, or the later one. -/
def bound (replaces : DateTime → DateTime → Option Bool) (startDate : DateTime) :
    Option DateTime → Option DateTime
  | none => some startDate
  | some known => (replaces startDate known).map fun isNew => if isNew then startDate else known

/-- The loop body of `parse_markets`. -/
def parseNext (parsed : ActiveMarkets) (raw : RawMarket) : Option ActiveMarkets := do
  match ← parseRecord python raw with
  | none => some parsed
  | some subscription =>
    let markets := parsed.markets ++ [subscription]
    match parseStartDate python raw.startDate with
    | none => some { parsed with markets := markets }
    | some startDate =>
      let minStartDate ← bound DateTime.before startDate parsed.minStartDate
      let maxStartDate ← bound (fun left right => right.before left) startDate parsed.maxStartDate
      some ⟨markets, some minStartDate, some maxStartDate⟩

/-- `parse_markets`; an exception has no outcome. -/
def parseMarkets (rawMarkets : List RawMarket) : Option ActiveMarkets :=
  Runs.run (parseNext python) ⟨[], none, none⟩ rawMarkets

end Python

/-- Both readers take the same texts for arrays of strings, and Python's raises at
the empty text. -/
structure Readers (read : String → Option Json) (python : Library) : Prop where
  strings : ∀ text items, fromStr read text = some items ↔
    python.loads text = some (.ofStrings items)
  empty : python.loads "" = none

/-- The Python parser returns the markets of the Rust parser. -/
def Agrees (read : String → Option Json) (python : Library) (rawMarkets : List RawMarket) : Prop :=
  ∃ parsed, parseMarkets python rawMarkets = some parsed ∧
    parsed.markets = (rawMarkets.filterMap (parseMarket read)).map .ofMarket

/-- Both fields can be loaded, and the tokens have a length. If it is two, the
outcomes have a length too, and if both are two, both fields are lists of texts. -/
def Agreeable (python : Library) (raw : RawMarket) : Prop :=
  ∃ assetIds outcomes, raw.clobTokenIds.load python = some assetIds ∧
    raw.outcomes.load python = some outcomes ∧
    ∃ tokenCount, assetIds.len = some tokenCount ∧
      (tokenCount = 2 → ∃ outcomeCount, outcomes.len = some outcomeCount ∧
        (outcomeCount = 2 → (∃ tokens, assetIds = .ofStrings tokens) ∧
          ∃ names, outcomes = .ofStrings names))

section Records

variable {read : String → Option Json} {python : Library}

/-- What is not empty for the Rust parser is loaded as the same texts. -/
theorem load_of_intoStrings (readers : Readers read python) {field : RawField}
    {items : List String} (decoded : field.deserialize.intoStrings read = some items)
    (nonempty : items ≠ []) : field.load python = some (.ofStrings items) := by
  cases field with
  | absent => exact absurd (Option.some.inj decoded).symm nonempty
  | null => exact absurd (Option.some.inj decoded).symm nonempty
  | array strings =>
    obtain rfl := Option.some.inj decoded
    rfl
  | string text =>
    simp only [RawField.deserialize, StringOrJsonArray.intoStrings] at decoded
    split at decoded
    · exact absurd (Option.some.inj decoded).symm nonempty
    · exact (readers.strings text items).mp decoded

/-- Texts that Python loads are what the Rust parser decodes. -/
theorem intoStrings_of_load (readers : Readers read python) {field : RawField}
    {items : List String} (loaded : field.load python = some (.ofStrings items)) :
    field.deserialize.intoStrings read = some items := by
  cases field with
  | absent =>
    have none : PyValue.ofStrings [] = .ofStrings items := Option.some.inj loaded
    rw [← PyValue.ofStrings_injective none]
    rfl
  | null => exact absurd (Option.some.inj loaded) (by simp [PyValue.ofStrings])
  | array strings =>
    obtain rfl := PyValue.ofStrings_injective (Option.some.inj loaded)
    rfl
  | string text =>
    have named : text ≠ "" := by
      rintro rfl
      exact absurd (readers.empty.symm.trans loaded) (by simp)
    simp only [RawField.deserialize, StringOrJsonArray.intoStrings, if_neg named]
    exact (readers.strings text items).mpr loaded

/-- A market of the Rust parser is read from two tokens and two outcomes. -/
theorem parseMarket_eq_some {raw : RawMarket} {market : Market}
    (parsed : parseMarket read raw = some market) :
    ∃ first second outcome other,
      raw.clobTokenIds.deserialize.intoStrings read = some [first, second] ∧
      raw.outcomes.deserialize.intoStrings read = some [outcome, other] ∧
      market = if outcome = "Yes" then ⟨raw.id, first, second⟩ else ⟨raw.id, second, first⟩ := by
  obtain ⟨clobTokens, tokens, rest⟩ := Option.bind_eq_some_iff.mp parsed
  obtain ⟨outcomes, names, binary⟩ := Option.bind_eq_some_iff.mp rest
  unfold Collector.parseMarket at binary
  split at binary
  · rename_i first second outcome other isTokens isOutcomes
    simp only at isTokens isOutcomes
    refine ⟨first, second, outcome, other, isTokens ▸ tokens, isOutcomes ▸ names, ?_⟩
    split at binary
    · rename_i isYes
      rw [if_pos isYes]
      exact (Option.some.inj binary).symm
    · rename_i isNo
      rw [if_neg isNo]
      exact (Option.some.inj binary).symm
  · exact absurd binary (by simp)

/-- Two texts each are read alike by both parsers. -/
theorem parseRecord_of_pairs {raw : RawMarket} {first second outcome other : String}
    (tokens : raw.clobTokenIds.load python = some (.ofStrings [first, second]))
    (names : raw.outcomes.load python = some (.ofStrings [outcome, other])) :
    parseRecord python raw = some (some (.ofMarket
      (if outcome = "Yes" then ⟨raw.id, first, second⟩ else ⟨raw.id, second, first⟩))) := by
  unfold parseRecord
  by_cases isYes : outcome = "Yes"
  · simp [tokens, names, isYes, MarketSubscription.ofMarket]
  · simp [tokens, names, isYes, MarketSubscription.ofMarket]

/-- The Python parser reads every market of the Rust parser. -/
theorem parseRecord_of_parseMarket (readers : Readers read python) {raw : RawMarket}
    {market : Market} (parsed : parseMarket read raw = some market) :
    parseRecord python raw = some (some (.ofMarket market)) := by
  obtain ⟨first, second, outcome, other, tokens, names, rfl⟩ := parseMarket_eq_some parsed
  exact parseRecord_of_pairs (load_of_intoStrings readers tokens (by simp))
    (load_of_intoStrings readers names (by simp))

/-- The parsers agree on a record exactly when it is agreeable. -/
theorem parseRecord_eq_iff (readers : Readers read python) (raw : RawMarket) :
    parseRecord python raw = some ((parseMarket read raw).map .ofMarket) ↔
      Agreeable python raw := by
  constructor
  · intro agrees
    cases parsed : parseMarket read raw with
    | some market =>
      obtain ⟨first, second, outcome, other, tokens, names, -⟩ := parseMarket_eq_some parsed
      exact ⟨_, _, load_of_intoStrings readers tokens (by simp),
        load_of_intoStrings readers names (by simp), 2, by simp, fun _ =>
          ⟨2, by simp, fun _ => ⟨⟨_, rfl⟩, _, rfl⟩⟩⟩
    | none =>
      rw [parsed, Option.map_none] at agrees
      obtain ⟨assetIds, loadedTokens, rest⟩ := Option.bind_eq_some_iff.mp agrees
      obtain ⟨outcomes, loadedNames, rest⟩ := Option.bind_eq_some_iff.mp rest
      obtain ⟨tokenCount, tokenLength, rest⟩ := Option.bind_eq_some_iff.mp rest
      refine ⟨assetIds, outcomes, loadedTokens, loadedNames, tokenCount, tokenLength, ?_⟩
      intro twoTokens
      rw [if_neg (not_not_intro twoTokens)] at rest
      obtain ⟨outcomeCount, outcomeLength, rest⟩ := Option.bind_eq_some_iff.mp rest
      refine ⟨outcomeCount, outcomeLength, ?_⟩
      intro twoOutcomes
      -- two of both give a subscription, whatever they are
      rw [if_neg (not_not_intro twoOutcomes)] at rest
      obtain ⟨_, -, rest⟩ := Option.bind_eq_some_iff.mp rest
      obtain ⟨_, -, rest⟩ := Option.bind_eq_some_iff.mp rest
      obtain ⟨_, -, rest⟩ := Option.bind_eq_some_iff.mp rest
      exact absurd (Option.some.inj rest) (by simp)
  · rintro ⟨assetIds, outcomes, loadedTokens, loadedNames, tokenCount, tokenLength, more⟩
    cases parsed : parseMarket read raw with
    | some market => exact parseRecord_of_parseMarket readers parsed
    | none =>
      by_cases twoTokens : tokenCount = 2
      · obtain ⟨outcomeCount, outcomeLength, strings⟩ := more twoTokens
        by_cases twoOutcomes : outcomeCount = 2
        · obtain ⟨⟨tokens, rfl⟩, names, rfl⟩ := strings twoOutcomes
          rw [PyValue.len_ofStrings, Option.some.injEq, twoTokens] at tokenLength
          rw [PyValue.len_ofStrings, Option.some.injEq, twoOutcomes] at outcomeLength
          obtain ⟨first, second, rfl⟩ := List.length_eq_two.mp tokenLength
          obtain ⟨outcome, other, rfl⟩ := List.length_eq_two.mp outcomeLength
          have isMarket : (parseMarket read raw).isSome := by
            rw [parseMarket, intoStrings_of_load readers loadedTokens,
              intoStrings_of_load readers loadedNames]
            simp only [Option.bind_eq_bind, Option.bind_some, Collector.parseMarket]
            split <;> rfl
          rw [parsed] at isMarket
          exact absurd isMarket (by simp)
        · simp [parseRecord, loadedTokens, loadedNames, tokenLength, twoTokens, outcomeLength,
            twoOutcomes]
      · simp [parseRecord, loadedTokens, loadedNames, tokenLength, twoTokens]

end Records

section Lists

variable {python : Library}

/-- A record adds its subscription, and its start date is compared with the bounds. -/
theorem parseNext_eq_some {parsed next : ActiveMarkets} {raw : RawMarket}
    (taken : parseNext python parsed raw = some next) :
    ∃ outcome, parseRecord python raw = some outcome ∧
      next.markets = parsed.markets ++ outcome.toList := by
  obtain ⟨outcome, read, rest⟩ := Option.bind_eq_some_iff.mp taken
  refine ⟨outcome, read, ?_⟩
  split at rest
  · obtain rfl := Option.some.inj rest
    exact (List.append_nil _).symm
  · split at rest
    · obtain rfl := Option.some.inj rest
      rfl
    · obtain ⟨_, -, rest⟩ := Option.bind_eq_some_iff.mp rest
      obtain ⟨_, -, rest⟩ := Option.bind_eq_some_iff.mp rest
      obtain rfl := Option.some.inj rest
      rfl

/-- A parser that ends has read every record, and returns their subscriptions. -/
theorem markets_of_run {parsed final : ActiveMarkets} {rawMarkets : List RawMarket}
    (completed : Runs.run (parseNext python) parsed rawMarkets = some final) :
    (∀ raw ∈ rawMarkets, (parseRecord python raw).isSome) ∧
      final.markets =
        parsed.markets ++ rawMarkets.filterMap fun raw => (parseRecord python raw).join := by
  induction rawMarkets generalizing parsed with
  | nil =>
    obtain rfl := Option.some.inj completed
    simp
  | cons raw rest inductionHypothesis =>
    obtain ⟨next, taken, continued⟩ := Runs.run_cons_some completed
    obtain ⟨outcome, read, added⟩ := parseNext_eq_some taken
    obtain ⟨others, all⟩ := inductionHypothesis continued
    constructor
    · intro other member
      rcases List.mem_cons.mp member with rfl | later
      · rw [read]
        rfl
      · exact others other later
    · rw [all, added, List.filterMap_cons, read]
      cases outcome with
      | none => simp
      | some subscription => simp

/-- The start date that a record's subscription brings in. -/
def newStartDate (python : Library) (raw : RawMarket) : Option DateTime :=
  (parseRecord python raw).join.bind fun _ => parseStartDate python raw.startDate

/-- All known bounds are zoned like the given date, or not zoned like it. -/
def ActiveMarkets.Zoned (parsed : ActiveMarkets) (zoned : Bool) : Prop :=
  (∀ known ∈ parsed.minStartDate, known.zoned = zoned) ∧
    ∀ known ∈ parsed.maxStartDate, known.zoned = zoned

theorem before_isSome_iff (left right : DateTime) :
    (left.before right).isSome ↔ left.zoned = right.zoned := by
  unfold DateTime.before
  split <;> simp [*]

theorem bound_isSome_iff {replaces : DateTime → DateTime → Option Bool} {startDate : DateTime}
    {known : Option DateTime} (comparable : ∀ other,
      (replaces startDate other).isSome ↔ other.zoned = startDate.zoned) :
    (bound replaces startDate known).isSome ↔
      ∀ other ∈ known, other.zoned = startDate.zoned := by
  cases known with
  | none => simp [bound]
  | some other => simp [bound, comparable]

/-- The bound that is kept is the new date or the known one. -/
theorem bound_eq_some {replaces : DateTime → DateTime → Option Bool} {startDate kept : DateTime}
    {known : Option DateTime} (isKept : bound replaces startDate known = some kept) :
    kept = startDate ∨ known = some kept := by
  cases known with
  | none => exact Or.inl (Option.some.inj isKept).symm
  | some other =>
    obtain ⟨isNew, -, rfl⟩ := Option.map_eq_some_iff.mp isKept
    cases isNew with
    | true => exact Or.inl rfl
    | false => exact Or.inr rfl

/-- What a record does: it is skipped, or it adds a subscription without a start
date, or one whose start date can be compared with both bounds. -/
theorem parseNext_cases (parsed : ActiveMarkets) {raw : RawMarket}
    {outcome : Option MarketSubscription} (read : parseRecord python raw = some outcome) :
    (newStartDate python raw = none ∧ ∃ next, parseNext python parsed raw = some next ∧
        next.minStartDate = parsed.minStartDate ∧ next.maxStartDate = parsed.maxStartDate) ∨
      ∃ startDate, newStartDate python raw = some startDate ∧
        ((parseNext python parsed raw).isSome ↔ parsed.Zoned startDate.zoned) ∧
        ∀ next, parseNext python parsed raw = some next →
          bound DateTime.before startDate parsed.minStartDate = next.minStartDate ∧
          bound (fun left right => right.before left) startDate parsed.maxStartDate =
            next.maxStartDate ∧ next.minStartDate.isSome := by
  cases outcome with
  | none =>
    refine Or.inl ⟨by simp [newStartDate, read], parsed, ?_, rfl, rfl⟩
    rw [parseNext, read]
    rfl
  | some subscription =>
    cases dated : parseStartDate python raw.startDate with
    | none =>
      refine Or.inl ⟨by simp [newStartDate, read, dated], { parsed with
        markets := parsed.markets ++ [subscription] }, ?_, rfl, rfl⟩
      rw [parseNext, read]
      simp only [Option.bind_eq_bind, Option.bind_some, dated]
    | some startDate =>
      refine Or.inr ⟨startDate, by simp [newStartDate, read, dated], ?_, ?_⟩
      · have earlier : (bound DateTime.before startDate parsed.minStartDate).isSome ↔
            ∀ known ∈ parsed.minStartDate, known.zoned = startDate.zoned :=
          bound_isSome_iff fun other => (before_isSome_iff startDate other).trans eq_comm
        have later : (bound (fun left right => right.before left) startDate
            parsed.maxStartDate).isSome ↔
            ∀ known ∈ parsed.maxStartDate, known.zoned = startDate.zoned :=
          bound_isSome_iff fun other => before_isSome_iff other startDate
        rw [ActiveMarkets.Zoned, ← earlier, ← later, parseNext, read]
        simp only [Option.bind_eq_bind, Option.bind_some, dated]
        cases bound DateTime.before startDate parsed.minStartDate with
        | none => simp
        | some minStartDate =>
          cases bound (fun left right => right.before left) startDate parsed.maxStartDate with
          | none => simp
          | some maxStartDate => simp
      · intro next taken
        rw [parseNext, read] at taken
        simp only [Option.bind_eq_bind, Option.bind_some, dated] at taken
        obtain ⟨minStartDate, isMin, taken⟩ := Option.bind_eq_some_iff.mp taken
        obtain ⟨maxStartDate, isMax, taken⟩ := Option.bind_eq_some_iff.mp taken
        obtain rfl := Option.some.inj taken
        exact ⟨isMin, isMax, rfl⟩

/-- The bounds after a record are zoned alike exactly when the bounds before it and
its own start date are. -/
theorem zoned_next {parsed next : ActiveMarkets} {raw : RawMarket}
    (taken : parseNext python parsed raw = some next) (zoned : Bool) :
    next.Zoned zoned ↔ parsed.Zoned zoned ∧
      ∀ startDate ∈ newStartDate python raw, startDate.zoned = zoned := by
  obtain ⟨outcome, read, -⟩ := parseNext_eq_some taken
  rcases parseNext_cases parsed read with
    ⟨undated, same, alsoTaken, sameMin, sameMax⟩ | ⟨startDate, dated, comparable, bounds⟩
  · obtain rfl := Option.some.inj (taken.symm.trans alsoTaken)
    simp [ActiveMarkets.Zoned, sameMin, sameMax, undated]
  · obtain ⟨isMin, isMax, present⟩ := bounds next taken
    obtain ⟨minAlike, maxAlike⟩ := comparable.mp (by rw [taken]; rfl)
    have keptMin : ∀ kept ∈ next.minStartDate, kept.zoned = startDate.zoned := by
      intro kept isKept
      rcases bound_eq_some (isMin.trans isKept) with rfl | known
      · rfl
      · exact minAlike kept known
    have keptMax : ∀ kept ∈ next.maxStartDate, kept.zoned = startDate.zoned := by
      intro kept isKept
      rcases bound_eq_some (isMax.trans isKept) with rfl | known
      · rfl
      · exact maxAlike kept known
    obtain ⟨kept, isKept⟩ := Option.isSome_iff_exists.mp present
    simp only [dated, Option.mem_some_iff, forall_eq']
    constructor
    · intro alike
      have same : startDate.zoned = zoned :=
        (keptMin kept isKept).symm.trans (alike.1 kept isKept)
      exact ⟨⟨fun known isKnown => (minAlike known isKnown).trans same,
        fun known isKnown => (maxAlike known isKnown).trans same⟩, same⟩
    · rintro ⟨-, same⟩
      exact ⟨fun kept isKept => (keptMin kept isKept).trans same,
        fun kept isKept => (keptMax kept isKept).trans same⟩

/-- The parser ends exactly when it can read every record and compare all dates. -/
theorem run_isSome_iff {parsed : ActiveMarkets} {start : Bool} (alike : parsed.Zoned start)
    (rawMarkets : List RawMarket) :
    (Runs.run (parseNext python) parsed rawMarkets).isSome ↔
      (∀ raw ∈ rawMarkets, (parseRecord python raw).isSome) ∧
        ∃ zoned, parsed.Zoned zoned ∧ ∀ raw ∈ rawMarkets,
          ∀ startDate ∈ newStartDate python raw, startDate.zoned = zoned := by
  induction rawMarkets generalizing parsed start with
  | nil => exact iff_of_true rfl ⟨by simp, start, alike, by simp⟩
  | cons raw rest inductionHypothesis =>
    rw [Runs.run_cons]
    cases read : parseRecord python raw with
    | none =>
      have stuck : parseNext python parsed raw = none := by rw [parseNext, read]; rfl
      rw [stuck]
      simp [read]
    | some outcome =>
      cases taken : parseNext python parsed raw with
      | none =>
        -- the date of this record cannot be compared
        refine iff_of_false Bool.false_ne_true ?_
        rintro ⟨-, zoned, both, dates⟩
        rcases parseNext_cases parsed read with
          ⟨-, next, alsoTaken, -⟩ | ⟨startDate, dated, comparable, -⟩
        · exact absurd (taken.symm.trans alsoTaken) (by simp)
        · have same := dates raw List.mem_cons_self startDate dated
          rw [← same] at both
          have completes := comparable.mpr both
          rw [taken] at completes
          exact absurd completes (by simp)
      | some next =>
        have later : ∃ zoned, next.Zoned zoned := by
          rcases parseNext_cases parsed read with
            ⟨undated, -⟩ | ⟨startDate, dated, comparable, -⟩
          · exact ⟨start, (zoned_next taken start).mpr ⟨alike, by simp [undated]⟩⟩
          · refine ⟨startDate.zoned, (zoned_next taken _).mpr ⟨?_, by simp [dated]⟩⟩
            exact comparable.mp (by rw [taken]; rfl)
        obtain ⟨zoned, nextAlike⟩ := later
        simp only [Option.bind_some, inductionHypothesis nextAlike, zoned_next taken,
          List.forall_mem_cons, read, Option.isSome_some, true_and, and_assoc]

end Lists

section Sequences

variable {α β : Type} {fewer more : α → Option β}

theorem length_filterMap_le {items : List α}
    (included : ∀ item ∈ items, ∀ value, fewer item = some value → more item = some value) :
    (items.filterMap fewer).length ≤ (items.filterMap more).length := by
  induction items with
  | nil => exact le_rfl
  | cons item items inductionHypothesis =>
    have rest := inductionHypothesis fun other member =>
      included other (List.mem_cons_of_mem item member)
    rw [List.filterMap_cons, List.filterMap_cons]
    cases found : fewer item with
    | some value =>
      rw [included item List.mem_cons_self value found]
      exact Nat.succ_le_succ rest
    | none =>
      cases more item with
      | none => exact rest
      | some value => exact rest.trans (Nat.le_succ _)

/-- Where one function has the values of another and perhaps more, their sequences
are equal only if it has no more. -/
theorem filterMap_eq_iff {items : List α}
    (included : ∀ item ∈ items, ∀ value, fewer item = some value → more item = some value) :
    items.filterMap more = items.filterMap fewer ↔ ∀ item ∈ items, more item = fewer item := by
  refine ⟨?_, List.filterMap_congr⟩
  intro same
  induction items with
  | nil => simp
  | cons item items inductionHypothesis =>
    have restExtends : ∀ other ∈ items, ∀ value, fewer other = some value →
        more other = some value :=
      fun other member => included other (List.mem_cons_of_mem item member)
    rw [List.filterMap_cons, List.filterMap_cons] at same
    rw [List.forall_mem_cons]
    cases found : fewer item with
    | some value =>
      have alsoFound := included item List.mem_cons_self value found
      rw [found, alsoFound] at same
      exact ⟨alsoFound, inductionHypothesis restExtends (List.tail_eq_of_cons_eq same)⟩
    | none =>
      rw [found] at same
      cases alsoFound : more item with
      | none =>
        rw [alsoFound] at same
        exact ⟨rfl, inductionHypothesis restExtends same⟩
      | some value =>
        -- the rest cannot make up for one value more
        rw [alsoFound] at same
        change value :: items.filterMap more = items.filterMap fewer at same
        have shorter := length_filterMap_le restExtends
        rw [← same, List.length_cons] at shorter
        omega

end Sequences

/-- The Python parser returns, without raising, the markets of the Rust parser
exactly when every record is agreeable and the start dates of the markets all
have a zone or all have none. -/
theorem gamma_parsers_agree_iff (read : String → Option Json) (python : Library)
    (readers : Readers read python) (rawMarkets : List RawMarket) :
    Agrees read python rawMarkets ↔
      (∀ raw ∈ rawMarkets, Agreeable python raw) ∧
        ∃ zoned, ∀ raw ∈ rawMarkets, (parseMarket read raw).isSome →
          ∀ startDate ∈ parseStartDate python raw.startDate, startDate.zoned = zoned := by
  have unbounded : (⟨[], none, none⟩ : ActiveMarkets).Zoned true := ⟨by simp, by simp⟩
  have completes : (parseMarkets python rawMarkets).isSome ↔ _ :=
    run_isSome_iff unbounded rawMarkets
  have included : ∀ raw ∈ rawMarkets, ∀ subscription,
      (parseMarket read raw).map .ofMarket = some subscription →
        (parseRecord python raw).join = some subscription := by
    intro raw _ subscription found
    obtain ⟨market, isMarket, rfl⟩ := Option.map_eq_some_iff.mp found
    rw [parseRecord_of_parseMarket readers isMarket]
    rfl
  have dated : (∀ raw ∈ rawMarkets, Agreeable python raw) → ∀ zoned : Bool,
      ((∀ raw ∈ rawMarkets, ∀ startDate ∈ newStartDate python raw, startDate.zoned = zoned) ↔
        ∀ raw ∈ rawMarkets, (parseMarket read raw).isSome →
          ∀ startDate ∈ parseStartDate python raw.startDate, startDate.zoned = zoned) := by
    intro agreeable zoned
    refine forall₂_congr fun raw member => ?_
    rw [newStartDate, (parseRecord_eq_iff readers raw).mpr (agreeable raw member)]
    cases parseMarket read raw <;> simp
  constructor
  · rintro ⟨parsed, ended, same⟩
    obtain ⟨all, markets⟩ := markets_of_run ended
    rw [same, List.nil_append, List.map_filterMap] at markets
    have each := (filterMap_eq_iff included).mp markets.symm
    have agreeable : ∀ raw ∈ rawMarkets, Agreeable python raw := by
      intro raw member
      apply (parseRecord_eq_iff readers raw).mp
      obtain ⟨outcome, isOutcome⟩ := Option.isSome_iff_exists.mp (all raw member)
      rw [← each raw member, isOutcome]
      rfl
    refine ⟨agreeable, ?_⟩
    obtain ⟨-, zoned, -, alike⟩ := completes.mp (by rw [ended]; rfl)
    exact ⟨zoned, (dated agreeable zoned).mp alike⟩
  · rintro ⟨agreeable, zoned, alike⟩
    have each : ∀ raw ∈ rawMarkets, parseRecord python raw =
        some ((parseMarket read raw).map .ofMarket) :=
      fun raw member => (parseRecord_eq_iff readers raw).mpr (agreeable raw member)
    obtain ⟨parsed, ended⟩ := Option.isSome_iff_exists.mp (completes.mpr
      ⟨fun raw member => by rw [each raw member]; rfl, zoned, ⟨by simp, by simp⟩,
        (dated agreeable zoned).mpr alike⟩)
    refine ⟨parsed, ended, ?_⟩
    rw [(markets_of_run ended).2, List.nil_append, List.map_filterMap]
    refine List.filterMap_congr fun raw member => ?_
    rw [each raw member]
    rfl

/-- Readers of arrays of strings, and of one date. -/
def sampleLibrary : Library where
  loads := fun text => (fromStr (Json.parse recursionLimit) text).map .ofStrings
  fromIsoFormat := fun text =>
    if text = "2026-01-01T00:00:00+00:00" then some ⟨true, 1767225600000000⟩ else none

theorem sample_readers : Readers (Json.parse recursionLimit) sampleLibrary where
  strings := by
    intro text items
    simp only [sampleLibrary, Option.map_eq_some_iff]
    constructor
    · intro decoded
      exact ⟨items, decoded, rfl⟩
    · rintro ⟨other, decoded, same⟩
      rwa [← PyValue.ofStrings_injective same]
  empty := rfl

/-- A binary market with arrays. -/
def withArrays : RawMarket :=
  ⟨some "0xa", .array ["1", "2"], .array ["Yes", "No"], none, none⟩

/-- A binary market with JSON texts, its outcomes the other way round, and a start date. -/
def withTexts : RawMarket :=
  ⟨some "0xb", .string "[\"3\", \"4\"]", .string "[\"No\", \"Yes\"]",
    some "2026-01-01T00:00:00Z", none⟩

/-- A market of three outcomes, which both parsers skip. -/
def ofThree : RawMarket :=
  ⟨some "0xd", .array ["5", "6", "7"], .array ["A", "B", "C"], none, none⟩

/-- A market whose tokens are null. -/
def withoutTokens : RawMarket := ⟨some "0xc", .null, .array ["Yes", "No"], none, none⟩

theorem start_withTexts :
    parseStartDate sampleLibrary withTexts.startDate = some ⟨true, 1767225600000000⟩ := rfl

theorem sample_parsers_agree :
    Agrees (Json.parse recursionLimit) sampleLibrary [withArrays, ofThree, withTexts] ∧
      (parseMarket (Json.parse recursionLimit) ofThree).isNone := by
  refine ⟨(gamma_parsers_agree_iff _ _ sample_readers _).mpr ⟨?_, true, ?_⟩, rfl⟩
  · intro raw member
    simp only [List.mem_cons, List.not_mem_nil, or_false] at member
    rcases member with rfl | rfl | rfl
    · exact ⟨_, _, rfl, rfl, 2, rfl, fun _ => ⟨2, rfl, fun _ => ⟨⟨_, rfl⟩, _, rfl⟩⟩⟩
    · exact ⟨_, _, rfl, rfl, 3, rfl, fun two => absurd two (by decide)⟩
    · exact ⟨.ofStrings ["3", "4"], .ofStrings ["No", "Yes"], rfl, rfl, 2, rfl,
        fun _ => ⟨2, rfl, fun _ => ⟨⟨_, rfl⟩, _, rfl⟩⟩⟩
  · intro raw member _ startDate dated
    simp only [List.mem_cons, List.not_mem_nil, or_false] at member
    rcases member with rfl | rfl | rfl
    · exact absurd dated (by simp [withArrays, parseStartDate])
    · exact absurd dated (by simp [ofThree, parseStartDate])
    · rw [start_withTexts] at dated
      obtain rfl := Option.some.inj dated
      rfl

/-- Null has no length, and the exception costs the page its other market. -/
theorem null_tokens_cost_the_page :
    [withoutTokens, withArrays].filterMap (parseMarket (Json.parse recursionLimit)) =
        [⟨"0xa", "1", "2"⟩] ∧
      parseMarkets sampleLibrary [withoutTokens, withArrays] = none ∧
      ¬ Agrees (Json.parse recursionLimit) sampleLibrary [withoutTokens, withArrays] := by
  have raises : parseMarkets sampleLibrary [withoutTokens, withArrays] = none := rfl
  refine ⟨rfl, raises, ?_⟩
  rintro ⟨parsed, ended, -⟩
  exact absurd (raises.symm.trans ended) (by simp)

end Collector.Gamma
