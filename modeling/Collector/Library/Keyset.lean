import Mathlib.Data.List.Sort
import Mathlib.Order.Basic

/-!
# Reading a table page by page behind a cursor

The rows of a table have distinct keys and come in their order. A page is a first part of the rows
behind a cursor and says where the next page begins. The table may be another one at each page:
what has been read stays behind the cursor, whatever came or went in between.
-/

namespace Keyset

universe u v
variable {α : Type u} {κ : Type v} [LinearOrder κ]

/-- The rows behind a cursor, all of them when there is none. -/
def behind (key : α → κ) (cursor : Option κ) (rows : List α) : List α :=
  rows.filter fun row => cursor.all fun last => last < key row

/-- A page of the rows behind a cursor. It names its last row as the next cursor, or nothing is
left behind it. -/
structure Page (key : α → κ) (rows : List α) (cursor : Option κ) (page : List α)
    (next : Option κ) : Prop where
  first : page <+: behind key cursor rows
  last : ∀ position, next = some position → ∃ row, page.getLast? = some row ∧ key row = position
  complete : next = none → page = behind key cursor rows

/-- What has been read up to a cursor, in order. -/
structure Collected (key : α → κ) (collected : List α) (cursor : Option κ) : Prop where
  ordered : collected.Pairwise (key · < key ·)
  passed : ∀ row ∈ collected, ∃ last, cursor = some last ∧ key row ≤ last

section Pages

variable {key : α → κ} {rows page collected : List α} {cursor next : Option κ} {row : α}

theorem collected_nil : Collected key [] cursor where
  ordered := .nil
  passed := nofun

theorem mem_behind :
    row ∈ behind key cursor rows ↔ row ∈ rows ∧ ∀ last ∈ cursor, last < key row := by
  rw [behind, List.mem_filter]
  cases cursor with
  | none => simp
  | some last => simp

theorem Page.mem (served : Page key rows cursor page next) (member : row ∈ page) :
    row ∈ rows ∧ ∀ last ∈ cursor, last < key row :=
  mem_behind.mp (served.first.subset member)

/-- A page comes in the order of its table. -/
theorem Page.ordered (served : Page key rows cursor page next)
    (ordered : rows.Pairwise (key · < key ·)) : page.Pairwise (key · < key ·) :=
  (ordered.filter _).sublist served.first.sublist

/-- The next cursor is not before any row of the page. -/
theorem Page.le_next (served : Page key rows cursor page next)
    (ordered : rows.Pairwise (key · < key ·)) {position : κ} (named : next = some position)
    (member : row ∈ page) : key row ≤ position := by
  obtain ⟨final, isLast, rfl⟩ := served.last position named
  obtain ⟨front, rfl⟩ := List.getLast?_eq_some_iff.mp isLast
  cases List.mem_append.mp member with
  | inl before =>
    have apart := (List.pairwise_append.mp (served.ordered ordered)).2.2
    exact le_of_lt (apart row before final List.mem_cons_self)
  | inr isFinal => rw [List.mem_singleton.mp isFinal]

/-- A row behind the cursor is on the page or behind the next cursor. -/
theorem Page.reaches (served : Page key rows cursor page next)
    (ordered : rows.Pairwise (key · < key ·)) (member : row ∈ rows)
    (ahead : ∀ last ∈ cursor, last < key row) :
    row ∈ page ∨ ∃ position, next = some position ∧ position < key row := by
  have isBehind := mem_behind.mpr ⟨member, ahead⟩
  cases named : next with
  | none => exact .inl (served.complete named ▸ isBehind)
  | some position =>
    obtain ⟨rest, whole⟩ := served.first
    rw [← whole] at isBehind
    cases List.mem_append.mp isBehind with
    | inl onPage => exact .inl onPage
    | inr later =>
      obtain ⟨final, isLast, rfl⟩ := served.last position named
      have apart : (page ++ rest).Pairwise (key · < key ·) := whole ▸ ordered.filter _
      refine .inr ⟨key final, rfl, ?_⟩
      exact (List.pairwise_append.mp apart).2.2 final (List.mem_of_getLast? isLast) row later

/-- A page stands behind everything read before. -/
theorem Collected.ordered_append (read : Collected key collected cursor)
    (served : Page key rows cursor page next) (ordered : rows.Pairwise (key · < key ·)) :
    (collected ++ page).Pairwise (key · < key ·) := by
  refine List.pairwise_append.mpr ⟨read.ordered, served.ordered ordered, ?_⟩
  intro old wasRead new isNew
  obtain ⟨last, current, upTo⟩ := read.passed old wasRead
  exact lt_of_le_of_lt upTo ((served.mem isNew).2 last current)

theorem Collected.append (read : Collected key collected cursor)
    (served : Page key rows cursor page next) (ordered : rows.Pairwise (key · < key ·))
    (goesOn : next.isSome) : Collected key (collected ++ page) next where
  ordered := read.ordered_append served ordered
  passed := by
    obtain ⟨position, named⟩ := Option.isSome_iff_exists.mp goesOn
    obtain ⟨final, isLast, reached⟩ := served.last position named
    intro row member
    refine ⟨position, named, ?_⟩
    cases List.mem_append.mp member with
    | inl old =>
      obtain ⟨last, current, upTo⟩ := read.passed row old
      have later := (served.mem (List.mem_of_getLast? isLast)).2 last current
      exact (upTo.trans_lt (reached ▸ later)).le
    | inr new => exact served.le_next ordered named new

/-- Two lists in the order of their keys are equal when they have the same rows. -/
theorem eq_of_ordered {left right : List α} (leftOrdered : left.Pairwise (key · < key ·))
    (rightOrdered : right.Pairwise (key · < key ·)) (same : ∀ row, row ∈ left ↔ row ∈ right) :
    left = right := by
  have distinct {rows : List α} (ordered : rows.Pairwise (key · < key ·)) : rows.Nodup :=
    ordered.imp fun less equal => absurd (congrArg key equal) less.ne
  have perm : left.Perm right :=
    (List.perm_ext_iff_of_nodup (distinct leftOrdered) (distinct rightOrdered)).mpr same
  refine perm.eq_of_pairwise ?_ leftOrdered rightOrdered
  intro first second _ _ less more
  exact absurd (less.trans more) (lt_irrefl _)

end Pages

end Keyset
