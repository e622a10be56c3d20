import Collector.Polling

/-!
# Delivery of new markets

The poller of new markets puts a market into the set before it publishes it, and
a later cycle passes over the markets of the set. A publish that raises before
its entry was appended therefore leaves a market in the set that is never
published: the cycle is not repeated for it, as it is after a failed fetch.
-/

namespace Collector.Delivery

open Polling (Poll AddMoves)

/-- The pollers, the markets put into the set by the poller of new markets and
not taken out since, and the entries appended. The last field tells whether the
last step ended a cycle of that poller without an exception. -/
structure State where
  polling : Polling
  put : List String
  published : List Entry
  ended : Bool

/-- The pollers are about to start. -/
def start (active : ActiveMarkets) : State where
  polling := Polling.start active
  put := []
  published := []
  ended := false

/-- One step with what it puts and appends. -/
def step (state : State) (poll : Poll) : Option State :=
  (state.polling.step poll).map fun (next, write) => {
    polling := next
    put := next.tracker.active.keys.filter fun market =>
      market ∈ state.put ∨ market ∉ state.polling.tracker.active
    published := state.published ++ write.published
    ended := next.ends poll }

/-- The entry tells of a new market. -/
def Announces (market : String) : Entry → Prop
  | .newMarket payload => payload.market = market
  | .marketResolved _ => False

instance (market : String) : DecidablePred (Announces market)
  | .newMarket _ => inferInstanceAs (Decidable (_ = _))
  | .marketResolved _ => inferInstanceAs (Decidable False)

/-- An entry for the market has been appended. -/
def State.Announced (state : State) (market : String) : Prop :=
  ∃ entry ∈ state.published, Announces market entry

/-- Every market that the poller has put has been appended to the stream. -/
def State.Delivered (state : State) : Prop := ∀ market ∈ state.put, state.Announced market

/-- No publish raises before its entry was appended, unless its market has been
taken out or has an earlier entry. -/
def NotLost (state : State) : Poll → Prop
  | .failNewMarkets => ∀ market ∈ state.put,
      state.polling.tracker.newMarkets.inFlight = some market → state.Announced market
  | _ => True

/-- However the pollers go on without losing an entry, a cycle that ends without
an exception leaves every put market appended. -/
def State.Safe (state : State) : Prop :=
  ∀ rest final, Runs.Along step NotLost state rest → Runs.run step state rest = some final →
    final.ended = true → final.Delivered

/-- The rest of a batch comes from its records. -/
def Batched : Tracker.NewMarkets → Prop
  | .publishing _ rest rawMarkets _ _ => ∀ market ∈ rest, market ∈ parseMarkets rawMarkets
  | _ => True

/-- Every put market has been appended or is about to be. -/
structure Delivering (state : State) : Prop where
  announced : ∀ market ∈ state.put,
    state.Announced market ∨ state.polling.tracker.newMarkets.inFlight = some market
  batched : Batched state.polling.tracker.newMarkets

section Steps

variable {state next : State} {poll : Poll}

/-- A market that is put after a step was put before it or has come into the set. -/
theorem step_some (taken : step state poll = some next) :
    ∃ write, AddMoves state.polling poll next.polling write ∧
      next.published = state.published ++ write.published ∧
      next.ended = next.polling.ends poll ∧
      ∀ market, market ∈ next.put ↔ market ∈ next.polling.tracker.active ∧
        (market ∈ state.put ∨ market ∉ state.polling.tracker.active) := by
  obtain ⟨⟨polling, write⟩, stepped, rfl⟩ := Option.map_eq_some_iff.mp taken
  refine ⟨write, Polling.addMoves_of_step stepped, rfl, rfl, ?_⟩
  intro market
  rw [List.mem_filter, decide_eq_true_eq, ← AList.mem_keys]

/-- What has been appended stays. -/
theorem State.Announced.append {market : String} {write : Tracker.Write}
    (announced : state.Announced market)
    (published : next.published = state.published ++ write.published) :
    next.Announced market := by
  obtain ⟨entry, member, announces⟩ := announced
  refine ⟨entry, ?_, announces⟩
  rw [published]
  exact List.mem_append_left _ member

/-- The entry of a record announces its market. -/
theorem State.announced_last {raw : RawMarket}
    (published : next.published = state.published ++ [serializeNewMarketEvent raw]) :
    next.Announced raw.conditionId := by
  refine ⟨serializeNewMarketEvent raw, ?_, rfl⟩
  rw [published]
  exact List.mem_append_right _ (List.mem_singleton_self _)

/-- What remains of a batch comes from its records. -/
theorem batched_next {rawMarkets : List RawMarket} {active : ActiveMarkets} {added : Nat}
    {markets : List Market} {result : ActiveMarkets × Tracker.NewMarkets}
    (batched : ∀ market ∈ markets, market ∈ parseMarkets rawMarkets)
    (continues : Tracker.Next rawMarkets active added markets result) : Batched result.2 := by
  cases continues with
  | put skipped market rest raw split known fresh found =>
    intro other member
    apply batched
    rw [split]
    exact List.mem_append_right skipped (List.mem_cons_of_mem market member)
  | done known => split <;> trivial

/-- Going on with a batch while nothing is on its way puts what is sent next. -/
theorem Delivering.add {rawMarkets : List RawMarket} {markets : List Market} {added : Nat}
    {write : Tracker.Write} (delivering : Delivering state)
    (waiting : state.polling.tracker.newMarkets.inFlight = none)
    (batched : ∀ market ∈ markets, market ∈ parseMarkets rawMarkets)
    (continues : Tracker.Next rawMarkets state.polling.tracker.active added markets
      (next.polling.tracker.active, next.polling.tracker.newMarkets))
    (published : next.published = state.published ++ write.published)
    (put : ∀ market, market ∈ next.put ↔ market ∈ next.polling.tracker.active ∧
      (market ∈ state.put ∨ market ∉ state.polling.tracker.active)) : Delivering next where
  announced := by
    intro market member
    obtain ⟨active, before | fresh⟩ := (put market).mp member
    · rcases delivering.announced market before with announced | flying
      · exact Or.inl (announced.append published)
      · exact absurd (waiting.symm.trans flying) nofun
    · exact Or.inr (((continues.active_iff market).mp active).resolve_left fresh)
  batched := batched_next batched continues

/-- A step after which the set has no more markets and the same one is on its
way keeps the rest. -/
theorem Delivering.keep {write : Tracker.Write} (delivering : Delivering state)
    (kept : ∀ market ∈ next.polling.tracker.active, market ∈ state.polling.tracker.active)
    (flying : ∀ market ∈ state.put, state.polling.tracker.newMarkets.inFlight = some market →
      next.Announced market ∨ next.polling.tracker.newMarkets.inFlight = some market)
    (batched : Batched next.polling.tracker.newMarkets)
    (published : next.published = state.published ++ write.published)
    (put : ∀ market, market ∈ next.put ↔ market ∈ next.polling.tracker.active ∧
      (market ∈ state.put ∨ market ∉ state.polling.tracker.active)) : Delivering next where
  announced := by
    intro market member
    obtain ⟨active, before⟩ := (put market).mp member
    have wasPut := before.resolve_right fun absent => absent (kept market active)
    rcases delivering.announced market wasPut with announced | onItsWay
    · exact Or.inl (announced.append published)
    · exact flying market wasPut onItsWay
  batched := batched

/-- Every step that loses nothing keeps the put markets appended or on their way. -/
theorem Delivering.step (delivering : Delivering state) (notLost : NotLost state poll)
    (taken : Delivery.step state poll = some next) : Delivering next := by
  obtain ⟨write, moves, published, -, put⟩ := step_some taken
  have batched := delivering.batched
  generalize after : next.polling = polling at moves
  cases moves with
  | aside _ _ _ other same kept =>
    subst after
    apply delivering.keep kept _ (same ▸ batched) published put
    intro market _ flying
    exact Or.inr (same ▸ flying)
  | begin listed _ idle added =>
    subst after
    exact delivering.add (by rw [idle]; rfl) (fun market member => member) added published put
  | land raw rest rawMarkets added publishing =>
    rw [publishing] at batched
    apply delivering.keep _ _ (after ▸ batched) published put
    · intro market member
      rw [after] at member
      exact member
    · intro market _ flying
      rw [publishing] at flying
      obtain rfl := Option.some.inj flying
      exact Or.inl (State.announced_last published)
  | goOn raw rest rawMarkets added _ publishing continues =>
    subst after
    rw [publishing] at batched
    exact delivering.add (by rw [publishing]; rfl) batched (continues batched) published put
  | landSave snapshot saving =>
    apply delivering.keep _ _ (after ▸ trivial) published put
    · intro market member
      rw [after] at member
      exact member
    · intro market _ flying
      exact absurd flying (by rw [saving]; nofun)
  | saved snapshot saving =>
    apply delivering.keep _ _ (after ▸ trivial) published put
    · intro market member
      rw [after] at member
      exact member
    · intro market _ flying
      exact absurd flying (by rw [saving]; nofun)
  | fail =>
    apply delivering.keep _ _ (after ▸ trivial) published put
    · intro market member
      rw [after] at member
      exact member
    · intro market isPut flying
      exact Or.inl ((notLost market isPut flying).append published)

/-- A cycle that has just ended left the poller idle, and what was put and not
taken out is in the set. -/
structure Formed (state : State) : Prop where
  rests : state.ended = true → state.polling.tracker.newMarkets = .idle
  tracked : ∀ market ∈ state.put, market ∈ state.polling.tracker.active

theorem formed_step (taken : step state poll = some next) : Formed next := by
  obtain ⟨write, -, -, ended, put⟩ := step_some taken
  constructor
  · intro hasEnded
    exact Polling.ends_idle (ended.symm.trans hasEnded)
  · intro market member
    exact ((put market).mp member).1

/-- From a state in which nothing is lost no cycle ends with a market unpublished. -/
theorem Delivering.safe (delivering : Delivering state) (formed : Formed state) : state.Safe := by
  intro rest final along completed ended market member
  have delivered := Runs.invariant_along
    (fun _ _ _ notLost taken holds => Delivering.step holds notLost taken)
    along completed delivering
  have rests := Runs.invariant (fun _ _ _ taken _ => formed_step taken) completed formed
  rcases delivered.announced market member with announced | flying
  · exact announced
  · rw [rests.rests ended] at flying
    exact absurd flying nofun

/-- A cycle without news ends at once and changes nothing. -/
theorem empty_cycle (formed : Formed state) (idle : state.polling.tracker.newMarkets = .idle) :
    ∃ final, step state (.take (.fetchNew [])) = some final ∧ final.ended = true ∧
      final.published = state.published ∧ ∀ market ∈ state.put, market ∈ final.put := by
  have stepped : state.polling.step (.take (.fetchNew [])) = some (state.polling, .nothing) := by
    obtain ⟨⟨tracker, fetch⟩, put, published, ended⟩ := state
    obtain ⟨active, resolution, newMarkets⟩ := tracker
    obtain rfl : newMarkets = .idle := idle
    rfl
  refine ⟨_, by rw [step, stepped, Option.map_some], ?_, ?_, ?_⟩
  · exact decide_eq_true idle
  · exact List.append_nil state.published
  · intro market member
    have tracked := AList.mem_keys.mp (formed.tracked market member)
    exact List.mem_filter.mpr ⟨tracked, decide_eq_true (Or.inl member)⟩

/-- After a publish has lost its entry a cycle without news ends with its market
in the set and not on the stream. -/
theorem notLost_of_safe (formed : Formed state) (taken : step state poll = some next)
    (safe : next.Safe) : NotLost state poll := by
  cases poll with
  | failNewMarkets =>
    intro market member flying
    have published : next.published = state.published ++ [] := by
      obtain rfl := Option.some.inj taken
      rfl
    have idle : next.polling.tracker.newMarkets = .idle := by
      obtain rfl := Option.some.inj taken
      rfl
    have isPut : market ∈ next.put := by
      obtain rfl := Option.some.inj taken
      have tracked := AList.mem_keys.mp (formed.tracked market member)
      exact List.mem_filter.mpr ⟨tracked, decide_eq_true (Or.inl member)⟩
    obtain ⟨final, cycle, ended, same, put⟩ := empty_cycle (formed_step taken) idle
    obtain ⟨entry, appended, announces⟩ := safe [.take (.fetchNew [])] final
      (Runs.Along.cons trivial cycle trivial) (by rw [Runs.run_cons, cycle]; rfl) ended
      market (put market isPut)
    refine ⟨entry, ?_, announces⟩
    rw [← List.append_nil state.published, ← published, ← same]
    exact appended
  | fetchClosed now listing | readPage | failResolution | take action => trivial

end Steps

theorem delivering_start (active : ActiveMarkets) : Delivering (start active) where
  announced := nofun
  batched := trivial

theorem formed_start (active : ActiveMarkets) : Formed (start active) where
  rests := nofun
  tracked := nofun

/-- Nothing is lost in a run of the pollers exactly when, wherever the run is cut
and however it goes on without losing an entry, a cycle that ends without an
exception leaves every put market appended. -/
theorem put_markets_are_published_iff (active : ActiveMarkets) (polls : List Poll) :
    Runs.Along step NotLost (start active) polls ↔
      ∀ before after state, polls = before ++ after →
        Runs.run step (start active) before = some state → state.Safe := by
  have formed : ∀ before state, Runs.run step (start active) before = some state →
      Formed state := by
    intro before state reached
    exact Runs.invariant (fun _ _ _ taken _ => formed_step taken) reached (formed_start active)
  constructor
  · intro along before after state split reached
    subst split
    have delivering := Runs.invariant_along
      (fun _ _ _ notLost taken holds => Delivering.step holds notLost taken)
      along.left reached (delivering_start active)
    exact delivering.safe (formed before state reached)
  · intro safe
    apply Runs.along_iff.mpr
    intro before poll after middle split reached
    cases taken : step middle poll with
    | none =>
      cases poll with
      | failNewMarkets => exact absurd taken nofun
      | fetchClosed now listing | readPage | failResolution | take action => trivial
    | some next =>
      apply notLost_of_safe (formed before middle reached) taken
      apply safe (before ++ [poll]) after next
      · rw [split, List.append_assoc, List.singleton_append]
      · rw [Runs.run_append reached, Runs.run_cons, taken]
        rfl

/-- A market of Gamma with two outcomes. -/
def newlyListed : RawMarket where
  conditionId := "m1"
  outcomes := ["Yes", "No"]
  clobTokenIds := ["y1", "n1"]

/-- A publish raises before its entry was appended; the next cycle finds the
market in the set and ends without an exception, with nothing on the stream. -/
theorem new_market_is_never_published :
    ∃ final, Runs.run step (start ∅)
        [.take (.fetchNew [newlyListed]), .failNewMarkets, .take (.fetchNew [newlyListed])] =
          some final ∧
      final.ended = true ∧ ¬ final.Delivered := by
  refine ⟨_, rfl, by decide, ?_⟩
  intro delivered
  obtain ⟨entry, appended, -⟩ := delivered "m1" (by decide)
  exact List.not_mem_nil appended

end Collector.Delivery
