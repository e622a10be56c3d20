import Collector.Library.Tables
import Mathlib.Algebra.Order.Group.Multiset
import Mathlib.Algebra.Order.Sub.Basic
import Mathlib.Data.Multiset.OrderedMonoid

/-!
# Comparing the store with an external record

`run_comparison` groups both tables of price changes by asset, time, side, price and size, joins
the groups outwards and adds up what matches and what does not. A second join pairs the updates
of one asset, time, side and price, whatever their number, and counts the pairs that differ in
size or in a best quote.

The counts are those of the multisets of updates, except that an update with a missing value in
its tuple matches nothing. A report without a difference means that both tables are the same, and
comes up just if besides no value is missing and no two updates of one place differ.
-/

namespace Collector.Compare

open Tables

variable {δ : Type} [DecidableEq δ]

/-- A row of either table, each value possibly missing. -/
structure Update (δ : Type) where
  assetId : Option String
  tsMs : Option Int
  side : Option String
  price : Option δ
  size : Option δ
  bestBid : Option δ
  bestAsk : Option δ
deriving DecidableEq

/-- Asset, time, side and price. -/
abbrev Place (δ : Type) := Option String × Option Int × Option String × Option δ

namespace Update

def place (update : Update δ) : Place δ :=
  (update.assetId, update.tsMs, update.side, update.price)

/-- The tuple of the coverage. -/
def tuple (update : Update δ) : Place δ × Option δ := (update.place, update.size)

end Update

/-- No value is missing. -/
def Place.known (place : Place δ) : Bool :=
  place.1.isSome && place.2.1.isSome && place.2.2.1.isSome && place.2.2.2.isSome

def knownTuple (tuple : Place δ × Option δ) : Bool := Place.known tuple.1 && tuple.2.isSome

abbrev Table (δ : Type) := Multiset (Update δ)

/-- `tuple_cmp`: the tuples with their counts in both tables. -/
def tupleCmp (ext ch : Table δ) : Multiset ((Place δ × Option δ) × Nat × Nat) :=
  countBoth knownTuple (ext.map Update.tuple) (ch.map Update.tuple)

/-- `fidelity`: the pairs of updates of one place. -/
def fidelity (ext ch : Table δ) : Multiset (Place δ × Update δ × Update δ) :=
  innerJoin Place.known (ext.map fun update => (update.place, update))
    (ch.map fun update => (update.place, update))

/-- The pairs that differ in a column. -/
def differing (column : Update δ → Option δ) (ext ch : Table δ) : Nat :=
  ((fidelity ext ch).filter fun row => column row.2.1 ≠ column row.2.2).card

structure Report where
  extTotal : Nat
  chTotal : Nat
  matched : Nat
  onlyExt : Nat
  onlyCh : Nat
  sizeDiff : Nat
  bbDiff : Nat
  baDiff : Nat
  extMs : Nat
  chMs : Nat
  bothMs : Nat

/-- `run_comparison`; a missing time is not counted, but is common to two tables that have it. -/
def runComparison (ext ch : Table δ) : Report where
  extTotal := ext.card
  chTotal := ch.card
  matched := ((tupleCmp ext ch).map fun row => min row.2.1 row.2.2).sum
  onlyExt := ((tupleCmp ext ch).map fun row => row.2.1 - row.2.2).sum
  onlyCh := ((tupleCmp ext ch).map fun row => row.2.2 - row.2.1).sum
  sizeDiff := differing Update.size ext ch
  bbDiff := differing Update.bestBid ext ch
  baDiff := differing Update.bestAsk ext ch
  extMs := ((ext.map Update.tsMs).dedup.filter fun time => time.isSome).card
  chMs := ((ch.map Update.tsMs).dedup.filter fun time => time.isSome).card
  bothMs := ((ext.map Update.tsMs).dedup ∩ (ch.map Update.tsMs).dedup).card

/-- No difference in coverage or fidelity. -/
structure Report.Clean (report : Report) : Prop where
  onlyExt : report.onlyExt = 0
  onlyCh : report.onlyCh = 0
  sizeDiff : report.sizeDiff = 0
  bbDiff : report.bbDiff = 0
  baDiff : report.baDiff = 0

/-- The tuples of a table, and those that can match. -/
def tuples (table : Table δ) : Multiset (Place δ × Option δ) := table.map Update.tuple

def matchable (table : Table δ) : Multiset (Place δ × Option δ) :=
  joinable knownTuple (tuples table)

section Coverage

variable (ext ch : Table δ)

theorem matched_eq : (runComparison ext ch).matched = (tuples ext ∩ matchable ch).card :=
  sum_shared knownTuple (tuples ext) (tuples ch)

theorem onlyExt_eq : (runComparison ext ch).onlyExt = (tuples ext - matchable ch).card :=
  sum_excess knownTuple (tuples ext) (tuples ch)

/-- The report from the other side. -/
theorem tupleCmp_swap :
    (tupleCmp ext ch).map (fun row => (row.1, row.2.2, row.2.1)) = tupleCmp ch ext :=
  countBoth_swap knownTuple (tuples ext) (tuples ch)

theorem matched_swap : (runComparison ext ch).matched = (runComparison ch ext).matched := by
  simp only [runComparison]
  rw [← tupleCmp_swap ext ch, Multiset.map_map]
  simp only [Function.comp_def, min_comm]

theorem onlyCh_swap : (runComparison ext ch).onlyCh = (runComparison ch ext).onlyExt := by
  simp only [runComparison]
  rw [← tupleCmp_swap ext ch, Multiset.map_map]
  rfl

theorem onlyCh_eq : (runComparison ext ch).onlyCh = (tuples ch - matchable ext).card := by
  rw [onlyCh_swap, onlyExt_eq]

/-- What matches and what is in excess make up a table. -/
theorem matched_add_onlyExt :
    (runComparison ext ch).matched + (runComparison ext ch).onlyExt = ext.card := by
  have parts := congrArg Multiset.card (Multiset.sub_add_inter (tuples ext) (matchable ch))
  rw [Multiset.card_add, tuples, Multiset.card_map] at parts
  rw [matched_eq, onlyExt_eq, tuples, Nat.add_comm, parts]

theorem matched_add_onlyCh :
    (runComparison ext ch).matched + (runComparison ext ch).onlyCh = ch.card := by
  rw [matched_swap, onlyCh_swap, matched_add_onlyExt]

end Coverage

section Fidelity

variable {ext ch : Table δ}

/-- A known place pairs each update of one table with each of the other. -/
theorem mem_fidelity {place : Place δ} {update other : Update δ} :
    (place, update, other) ∈ fidelity ext ch ↔
      (update ∈ ext ∧ other ∈ ch ∧ update.place = other.place) ∧ place = update.place ∧
        Place.known place := by
  simp only [fidelity, innerJoin, matching, Multiset.mem_bind, Multiset.mem_map,
    Multiset.mem_filter, Prod.mk.injEq]
  constructor
  · rintro ⟨_, ⟨first, inExt, rfl⟩, _, ⟨⟨second, inCh, rfl⟩, known, same⟩, rfl, rfl, rfl⟩
    exact ⟨⟨inExt, inCh, same.symm⟩, rfl, known⟩
  · rintro ⟨⟨inExt, inCh, same⟩, rfl, known⟩
    exact ⟨_, ⟨update, inExt, rfl⟩, _, ⟨⟨other, inCh, rfl⟩, known, same.symm⟩, rfl, rfl, rfl⟩

/-- No pair differs in a column. -/
theorem differing_eq_zero_iff {column : Update δ → Option δ} :
    differing column ext ch = 0 ↔ ∀ update ∈ ext, ∀ other ∈ ch, update.place = other.place →
      Place.known update.place → column update = column other := by
  rw [differing, Multiset.card_eq_zero, Multiset.filter_eq_nil]
  constructor
  · intro none update inExt other inCh same known
    have pair := mem_fidelity.mpr ⟨⟨inExt, inCh, same⟩, rfl, known⟩
    exact not_not.mp (none _ pair)
  · rintro agree ⟨place, update, other⟩ member
    obtain ⟨⟨inExt, inCh, same⟩, rfl, known⟩ := mem_fidelity.mp member
    exact not_not.mpr (agree update inExt other inCh same known)

omit [DecidableEq δ] in
/-- Updates of one place that agree in the other columns are the same. -/
theorem update_ext {update other : Update δ} (place : update.place = other.place)
    (size : update.size = other.size) (bestBid : update.bestBid = other.bestBid)
    (bestAsk : update.bestAsk = other.bestAsk) : update = other := by
  cases update
  cases other
  simp only [Update.place, Prod.mk.injEq] at place
  obtain ⟨rfl, rfl, rfl, rfl⟩ := place
  cases size
  cases bestBid
  cases bestAsk
  rfl

/-- Nothing is in excess on one side. -/
theorem tuples_le (none : (runComparison ext ch).onlyExt = 0) : tuples ext ≤ matchable ch := by
  rw [onlyExt_eq, Multiset.card_eq_zero] at none
  exact tsub_eq_zero_iff_le.mp none

omit [DecidableEq δ] in
theorem matchable_le (table : Table δ) : matchable table ≤ tuples table :=
  Multiset.filter_le _ _

/-- A report without a difference means that both tables are the same. -/
theorem same_of_clean (clean : (runComparison ext ch).Clean) :
    ext = ch ∧ (∀ update ∈ ext, knownTuple update.tuple) ∧
      ∀ update ∈ ext, ∀ other ∈ ext, update.place = other.place → update = other := by
  have known : ∀ update ∈ ext, knownTuple update.tuple := by
    intro update member
    have matching : update.tuple ∈ matchable ch :=
      Multiset.mem_of_le (tuples_le clean.onlyExt) (Multiset.mem_map_of_mem _ member)
    exact (Multiset.mem_filter.mp matching).2
  have back : tuples ch ≤ matchable ext := by
    have none := clean.onlyCh
    rw [onlyCh_swap] at none
    exact tuples_le none
  have covered : tuples ext = tuples ch :=
    le_antisymm ((tuples_le clean.onlyExt).trans (matchable_le ch)) (back.trans (matchable_le ext))
  have agree : ∀ update ∈ ext, ∀ other ∈ ch, update.place = other.place → update = other := by
    intro update inExt other inCh same
    have knownPlace : Place.known update.place := by
      have whole := known update inExt
      rw [knownTuple, Bool.and_eq_true] at whole
      exact whole.1
    exact update_ext same
      (differing_eq_zero_iff.mp clean.sizeDiff update inExt other inCh same knownPlace)
      (differing_eq_zero_iff.mp clean.bbDiff update inExt other inCh same knownPlace)
      (differing_eq_zero_iff.mp clean.baDiff update inExt other inCh same knownPlace)
  have same : ext = ch := by
    refine eq_of_map_eq (fun update inExt other inCh equal => ?_) covered
    exact agree update inExt other inCh (congrArg Prod.fst equal)
  refine ⟨same, known, ?_⟩
  rw [← same] at agree
  exact agree

/-- Two equal tables without missing values whose updates of one place are the same have a report
without a difference. -/
theorem clean_of_same (known : ∀ update ∈ ext, knownTuple update.tuple)
    (single : ∀ update ∈ ext, ∀ other ∈ ext, update.place = other.place → update = other) :
    (runComparison ext ext).Clean := by
  have all : matchable ext = tuples ext := by
    rw [matchable, joinable, Multiset.filter_eq_self]
    intro tuple member
    obtain ⟨update, inExt, rfl⟩ := Multiset.mem_map.mp member
    exact known update inExt
  have agrees (column : Update δ → Option δ) : differing column ext ext = 0 := by
    rw [differing_eq_zero_iff]
    intro update inExt other inRest same _
    rw [single update inExt other inRest same]
  refine ⟨?_, ?_, agrees _, agrees _, agrees _⟩
  · rw [onlyExt_eq, all, tsub_self, Multiset.card_zero]
  · rw [onlyCh_eq, all, tsub_self, Multiset.card_zero]

end Fidelity

/-- Two updates of one place in one millisecond are paired crosswise. -/
example :
    let update (size : Nat) : Update Nat := ⟨some "a1", some 7, some "BUY", some 40, some size,
      none, none⟩
    (runComparison {update 1, update 2} {update 1, update 2}).sizeDiff = 2 := by
  decide

end Collector.Compare
