import Mathlib.Data.List.Basic

/-!
# Segments closed by a mark

Writing each segment followed by a mark that no segment contains is injective on
lists of segments, whatever their number: the first mark ends the first segment.
UTF-8 text leaves several bytes unused, so any of them can serve as the mark.
-/

namespace Terminated

universe u
variable {α : Type u}

/-- Each segment followed by the mark. -/
def join (mark : α) (segments : List (List α)) : List α := segments.flatMap (· ++ [mark])

theorem join_cons (mark : α) (segment : List α) (rest : List (List α)) :
    join mark (segment :: rest) = segment ++ mark :: join mark rest := by
  simp [join]

/-- The first mark ends the first segment. -/
theorem split_at_mark {mark : α} {left right leftRest rightRest : List α}
    (cleanLeft : mark ∉ left) (cleanRight : mark ∉ right)
    (same : left ++ mark :: leftRest = right ++ mark :: rightRest) :
    left = right ∧ leftRest = rightRest := by
  induction left generalizing right with
  | nil =>
    cases right with
    | nil => exact ⟨rfl, List.tail_eq_of_cons_eq same⟩
    | cons value tail => exact absurd (List.head_eq_of_cons_eq same ▸ List.mem_cons_self) cleanRight
  | cons value rest inductionHypothesis =>
    cases right with
    | nil => exact absurd (List.head_eq_of_cons_eq same ▸ List.mem_cons_self) cleanLeft
    | cons other tail =>
      have heads : value = other := List.head_eq_of_cons_eq same
      have tails := inductionHypothesis
        (fun present => cleanLeft (List.mem_cons_of_mem value present))
        (fun present => cleanRight (List.mem_cons_of_mem other present))
        (List.tail_eq_of_cons_eq same)
      exact ⟨by rw [heads, tails.1], tails.2⟩

/-- Segments without the mark are determined by their joined form. -/
theorem join_injective (mark : α) (left right : List (List α))
    (cleanLeft : ∀ segment ∈ left, mark ∉ segment)
    (cleanRight : ∀ segment ∈ right, mark ∉ segment)
    (same : join mark left = join mark right) : left = right := by
  induction left generalizing right with
  | nil =>
    cases right with
    | nil => rfl
    | cons segment rest => simp [join] at same
  | cons segment rest inductionHypothesis =>
    cases right with
    | nil => simp [join] at same
    | cons other tail =>
      rw [join_cons, join_cons] at same
      have split := split_at_mark (cleanLeft segment List.mem_cons_self)
        (cleanRight other List.mem_cons_self) same
      have tails : rest = tail := inductionHypothesis tail
        (fun tested member => cleanLeft tested (List.mem_cons_of_mem segment member))
        (fun tested member => cleanRight tested (List.mem_cons_of_mem other member)) split.2
      rw [split.1, tails]

/-- Splitting at the mark gives the segments back, and nothing after the last mark. -/
theorem splitOn_join [DecidableEq α] (mark : α) (segments : List (List α))
    (clean : ∀ segment ∈ segments, mark ∉ segment) :
    (join mark segments).splitOn mark = segments ++ [[]] := by
  induction segments with
  | nil => rfl
  | cons segment rest inductionHypothesis =>
    rw [join_cons, List.splitOn_append_cons_self_of_not_mem (clean segment List.mem_cons_self),
      inductionHypothesis fun later member => clean later (List.mem_cons_of_mem segment member),
      List.cons_append]

/-- The bytes of a text. -/
def utf8 (source : String) : List UInt8 := source.toList.flatMap String.utf8EncodeChar

/-- A text is determined by its bytes. -/
theorem utf8_injective (left right : String) (same : utf8 left = utf8 right) : left = right := by
  have bytes : left.toByteArray = right.toByteArray := by
    rw [← String.utf8Encode_toList, ← String.utf8Encode_toList]
    exact congrArg List.toByteArray same
  exact String.toByteArray_inj.mp bytes

/-- No byte of a text is 255: the lead byte of the longest form is below 248. -/
theorem mark_notMem_utf8 (source : String) : (0xFF : UInt8) ∉ utf8 source := by
  have below (number : Nat) (small : number < 255) : (0xFF : UInt8) ≠ UInt8.ofNat number := by
    rw [ne_eq, ← UInt8.toNat_inj, UInt8.toNat_ofNat']
    change ¬ 255 = number % 256
    omega
  intro present
  obtain ⟨char, _, inside⟩ := List.mem_flatMap.mp present
  unfold String.utf8EncodeChar at inside
  simp only at inside
  split_ifs at inside with one two three <;>
    simp only [List.mem_cons, List.not_mem_nil, or_false] at inside
  · exact below _ (by omega) inside
  · rcases inside with first | second
    · exact below _ (by omega) first
    · exact below _ (by omega) second
  · rcases inside with first | second | third
    · exact below _ (by omega) first
    · exact below _ (by omega) second
    · exact below _ (by omega) third
  · rcases inside with first | second | third | fourth
    · exact below _ (by omega) first
    · exact below _ (by omega) second
    · exact below _ (by omega) third
    · exact below _ (by omega) fourth

/-- Lists of texts are determined by the bytes of the texts, each closed by 255. -/
theorem join_utf8_injective (left right : List String)
    (same : join 0xFF (left.map utf8) = join 0xFF (right.map utf8)) : left = right := by
  have clean (texts : List String) : ∀ segment ∈ texts.map utf8, (0xFF : UInt8) ∉ segment := by
    intro segment member
    obtain ⟨source, _, rfl⟩ := List.mem_map.mp member
    exact mark_notMem_utf8 source
  have segments := join_injective 0xFF _ _ (clean left) (clean right) same
  exact List.map_injective_iff.mpr (fun first second equal => utf8_injective first second equal)
    segments

end Terminated
