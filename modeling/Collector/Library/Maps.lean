import Mathlib.Data.List.AList
import Mathlib.Data.Finset.Card

/-!
# Maps with rewritten values

Finite maps are association lists without repeated keys. `mapValues` rewrites
every value in place.
-/

namespace Maps

universe u v w
variable {κ : Type u} {ν : Type v} {μ : Type w}

/-- Rewrite every value, keeping the keys. -/
def mapValues (rewrite : ν → μ) (entries : AList (fun _ : κ => ν)) : AList (fun _ : κ => μ) where
  entries := entries.entries.map fun entry => ⟨entry.1, rewrite entry.2⟩
  nodupKeys := by
    have keys : (entries.entries.map fun entry =>
        (⟨entry.1, rewrite entry.2⟩ : Sigma fun _ : κ => μ)).keys = entries.entries.keys := by
      simp only [List.keys, List.map_map]
      rfl
    rw [List.NodupKeys, keys]
    exact entries.nodupKeys

variable [DecidableEq κ]

@[simp]
theorem lookup_mapValues (rewrite : ν → μ) (entries : AList (fun _ : κ => ν)) (key : κ) :
    (mapValues rewrite entries).lookup key = (entries.lookup key).map rewrite :=
  List.dlookup_map₂ (f := fun _ value => rewrite value) key

/-- Membership as a found value. -/
theorem mem_iff_lookup (entries : AList (fun _ : κ => ν)) (key : κ) :
    key ∈ entries ↔ ∃ value, entries.lookup key = some value := by
  rw [← AList.lookup_isSome, Option.isSome_iff_exists]

/-- Entries with a value are counted by the keys at which it is found. -/
theorem countP_entries [DecidableEq ν] (entries : AList (fun _ : κ => ν)) (value : ν)
    {keys : Finset κ} (all : ∀ key ∈ entries, key ∈ keys) :
    entries.entries.countP (fun entry => entry.2 = value) =
      (keys.filter fun key => entries.lookup key = some value).card := by
  have distinct : ((entries.entries.filter fun entry => entry.2 = value).map Sigma.fst).Nodup :=
    List.Nodup.sublist (List.filter_sublist.map Sigma.fst) entries.nodupKeys
  rw [List.countP_eq_length_filter, ← List.length_map Sigma.fst,
    ← List.toFinset_card_of_nodup distinct]
  congr 1
  ext key
  simp only [List.mem_toFinset, List.mem_map, List.mem_filter, decide_eq_true_eq,
    Finset.mem_filter, ← Option.mem_def, AList.mem_lookup_iff]
  constructor
  · rintro ⟨⟨other, found⟩, ⟨member, rfl⟩, rfl⟩
    exact ⟨all _ (AList.mem_keys.mpr (List.mem_map_of_mem member)), member⟩
  · rintro ⟨-, member⟩
    exact ⟨⟨key, value⟩, ⟨member, rfl⟩, rfl⟩

/-- A new entry is counted if it has the value. -/
theorem countP_insert_new [DecidableEq ν] {entries : AList (fun _ : κ => ν)} {key : κ}
    (isNew : key ∉ entries) (inserted value : ν) :
    (entries.insert key inserted).entries.countP (fun entry => entry.2 = value) =
      entries.entries.countP (fun entry => entry.2 = value) +
        if inserted = value then 1 else 0 := by
  rw [AList.entries_insert_of_notMem isNew, List.countP_cons]
  simp only [decide_eq_true_eq]

/-- Storing a value again changes no count. -/
theorem countP_insert_same [DecidableEq ν] {entries : AList (fun _ : κ => ν)} {key : κ}
    {stored : ν} (found : entries.lookup key = some stored) (value : ν) :
    (entries.insert key stored).entries.countP (fun entry => entry.2 = value) =
      entries.entries.countP (fun entry => entry.2 = value) := by
  have present : key ∈ entries := (mem_iff_lookup entries key).mpr ⟨stored, found⟩
  have before : ∀ tested ∈ entries, tested ∈ entries.keys.toFinset :=
    fun tested member => List.mem_toFinset.mpr (AList.mem_keys.mp member)
  have after : ∀ tested ∈ entries.insert key stored, tested ∈ entries.keys.toFinset := by
    intro tested member
    rcases (AList.mem_insert entries).mp member with rfl | member
    · exact before tested present
    · exact before tested member
  rw [countP_entries _ value after, countP_entries _ value before]
  congr 1
  apply Finset.filter_congr
  intro tested _
  by_cases same : tested = key
  · rw [same, AList.lookup_insert, found]
  · rw [AList.lookup_insert_ne same]

/-- After inserting items the keys are those of the items and those from before. -/
theorem mem_foldl_insert {ι : Type*} (key : ι → κ) (value : ι → ν) (items : List ι)
    (start : AList (fun _ : κ => ν)) (tested : κ) :
    tested ∈ items.foldl (fun entries item => entries.insert (key item) (value item)) start ↔
      tested ∈ items.map key ∨ tested ∈ start := by
  induction items generalizing start with
  | nil => simp
  | cons item rest inductionHypothesis =>
    rw [List.foldl_cons, inductionHypothesis, AList.mem_insert, List.map_cons, List.mem_cons,
      or_left_comm, or_assoc]

/-- Inserting items that agree wherever they share a key: a value found comes from
an item of the key, or from the start when no item has the key. -/
theorem lookup_foldl_insert {ι : Type*} (key : ι → κ) (value : ι → ν) (items : List ι)
    (agree : ∀ first ∈ items, ∀ second ∈ items, key first = key second →
      value first = value second)
    (start : AList (fun _ : κ => ν)) (tested : κ) (found : ν) :
    (items.foldl (fun entries item => entries.insert (key item) (value item)) start).lookup tested =
        some found ↔
      (∃ item ∈ items, key item = tested ∧ value item = found) ∨
        (tested ∉ items.map key ∧ start.lookup tested = some found) := by
  induction items generalizing start with
  | nil => simp
  | cons item rest inductionHypothesis =>
    have agreeRest := fun first member second alsoMember =>
      agree first (List.mem_cons_of_mem item member) second (List.mem_cons_of_mem item alsoMember)
    rw [List.foldl_cons, inductionHypothesis agreeRest]
    by_cases same : tested = key item
    · subst same
      simp only [List.map_cons, List.mem_cons, true_or, not_true, false_and, or_false,
        AList.lookup_insert, Option.some.injEq, exists_eq_or_imp, true_and]
      constructor
      · rintro (later | ⟨-, isItem⟩)
        · exact Or.inr later
        · exact Or.inl isItem
      · rintro (isItem | later)
        · by_cases again : key item ∈ rest.map key
          · obtain ⟨other, member, equal⟩ := List.mem_map.mp again
            refine Or.inl ⟨other, member, equal, ?_⟩
            rw [← isItem]
            exact agree other (List.mem_cons_of_mem item member) item List.mem_cons_self equal
          · exact Or.inr ⟨again, isItem⟩
        · exact Or.inl later
    · simp only [AList.lookup_insert_ne same, List.map_cons, List.mem_cons, same, false_or,
        exists_eq_or_imp, Ne.symm same, false_and]

end Maps
