import Mathlib.Data.List.Forall2

/-!
# Encoders that forget

An encoder may forget part of a value. What it keeps is a value again, written in the same
way, and a reader finds just that. Then two values are written alike exactly when the same is
kept of both, and so are two lists of values.
-/

namespace Lossy

universe u v
variable {α : Type u} {β : Type v}

/-- What is kept of a valid value is valid, is written as the value is, and is what the reader
finds. -/
structure Keeps (valid : α → Prop) (encode : α → β) (decode : β → Option α) (keep : α → α) :
    Prop where
  stays : ∀ value, valid value → valid (keep value)
  written : ∀ value, valid value → encode (keep value) = encode value
  read : ∀ value, valid value → decode (encode value) = some (keep value)

namespace Keeps

variable {valid : α → Prop} {encode : α → β} {decode : β → Option α} {keep : α → α}

/-- What is kept is kept. -/
theorem again (keeps : Keeps valid encode decode keep) {value : α} (isValid : valid value) :
    keep (keep value) = keep value := by
  have twice := keeps.read (keep value) (keeps.stays value isValid)
  rw [keeps.written value isValid, keeps.read value isValid] at twice
  exact (Option.some.inj twice).symm

/-- Values are written alike just if the same is kept of them. -/
theorem encode_eq_iff (keeps : Keeps valid encode decode keep) {left right : α}
    (validLeft : valid left) (validRight : valid right) :
    encode left = encode right ↔ keep left = keep right := by
  constructor
  · intro same
    have read := keeps.read left validLeft
    rw [same, keeps.read right validRight] at read
    exact (Option.some.inj read).symm
  · intro same
    rw [← keeps.written left validLeft, same, keeps.written right validRight]

/-- So are lists of values. -/
theorem map_eq_iff (keeps : Keeps valid encode decode keep) {left right : List α}
    (validLeft : ∀ value ∈ left, valid value) (validRight : ∀ value ∈ right, valid value) :
    left.map encode = right.map encode ↔ left.map keep = right.map keep := by
  induction left generalizing right with
  | nil => cases right <;> simp
  | cons first rest inductionHypothesis =>
    cases right with
    | nil => simp
    | cons other others =>
      have heads := keeps.encode_eq_iff (validLeft first List.mem_cons_self)
        (validRight other List.mem_cons_self)
      have tails := inductionHypothesis
        (fun value member => validLeft value (List.mem_cons_of_mem first member))
        (fun value member => validRight value (List.mem_cons_of_mem other member))
      rw [List.map_cons, List.map_cons, List.map_cons, List.map_cons, List.cons.injEq,
        List.cons.injEq, heads, tails]

end Keeps

end Lossy
