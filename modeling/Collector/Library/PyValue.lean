import Collector.Library.Json
import Mathlib.Data.List.Basic

/-!
# JSON values in Python

What `json.loads` returns. A string is a sequence of code points, so a surrogate
can stand alone in it, and a number can be infinite or none. A length and an
item may be asked of any value; where Python raises, there is no outcome.

`toJson` is the JSON value that a Python value is written as.
-/

/-- A value that `json.loads` returns. A number is kept as its lexeme, and of a
dictionary the keys are known to differ. -/
inductive PyValue where
  | null
  | bool (value : Bool)
  | number (lexeme : String)
  | nonFinite
  | str (points : List Nat)
  | list (items : List PyValue)
  | dict (members : List (List Nat × PyValue))

namespace PyValue

/-- The code points of a text. -/
def points (text : String) : List Nat := text.toList.map Char.toNat

/-- A text as a Python string. -/
def ofString (text : String) : PyValue := .str (points text)

/-- Texts as a list of Python strings. -/
def ofStrings (texts : List String) : PyValue := .list (texts.map ofString)

/-- `len(value)`. -/
def len : PyValue → Option Nat
  | .str points => some points.length
  | .list items => some items.length
  | .dict members => some members.length
  | _ => none

/-- `value[index]`; the keys of a dictionary are strings. -/
def item (index : Nat) : PyValue → Option PyValue
  | .str points => points[index]?.map fun point => .str [point]
  | .list items => items[index]?
  | _ => none

/-- `value == text`. -/
def isText (text : String) : PyValue → Bool
  | .str other => other = points text
  | _ => false

/-- The text of some code points, if none of them is a surrogate. -/
def textOf (points : List Nat) : Option String :=
  if points.all fun point => decide point.isValidChar then
    some (String.ofList (points.map Char.ofNat))
  else none

mutual

/-- The JSON value that a value is written as; a lone surrogate and a number that
is not finite have none. -/
def toJson : PyValue → Option Json
  | .null => some .null
  | .bool value => some (.bool value)
  | .number lexeme => some (.number lexeme)
  | .nonFinite => none
  | .str points => (textOf points).map .string
  | .list items => (itemsToJson items).map .array
  | .dict members => (membersToJson members).map .object

def itemsToJson : List PyValue → Option (List Json)
  | [] => some []
  | item :: items => do
    let first ← toJson item
    let rest ← itemsToJson items
    some (first :: rest)

def membersToJson : List (List Nat × PyValue) → Option (List (String × Json))
  | [] => some []
  | (key, value) :: members => do
    let name ← textOf key
    let first ← toJson value
    let rest ← membersToJson members
    some ((name, first) :: rest)

end

/-- A text is determined by its code points. -/
theorem textOf_eq_some_iff {codes : List Nat} {text : String} :
    textOf codes = some text ↔ codes = points text := by
  unfold textOf
  constructor
  · intro made
    split at made
    · rename_i valid
      obtain rfl := Option.some.inj made
      rw [points, String.toList_ofList, List.map_map]
      refine (List.map_id codes).symm.trans (List.map_congr_left fun code member => ?_)
      have isValid := of_decide_eq_true (List.all_eq_true.mp valid code member)
      rw [Function.comp_apply, Char.ofNat, dif_pos isValid]
      rfl
    · exact absurd made (by simp)
  · rintro rfl
    have valid : (points text).all (fun point => decide point.isValidChar) = true := by
      rw [List.all_eq_true]
      intro point member
      obtain ⟨char, -, rfl⟩ := List.mem_map.mp member
      exact decide_eq_true char.valid
    rw [if_pos valid, points, List.map_map]
    congr 1
    apply String.toList_inj.mp
    rw [String.toList_ofList]
    exact (List.map_congr_left fun char _ => Char.ofNat_toNat char).trans (List.map_id _)

theorem points_injective : Function.Injective points := by
  intro left right same
  have made := textOf_eq_some_iff.mpr same
  rw [textOf_eq_some_iff.mpr rfl] at made
  exact Option.some.inj made

theorem ofString_injective : Function.Injective ofString := fun _ _ same =>
  points_injective (PyValue.str.inj same)

theorem ofStrings_injective : Function.Injective ofStrings := fun _ _ same =>
  List.map_injective_iff.mpr ofString_injective (PyValue.list.inj same)

@[simp]
theorem len_ofStrings (texts : List String) : (ofStrings texts).len = some texts.length :=
  congrArg some (List.length_map ofString)

@[simp]
theorem item_ofStrings (texts : List String) (index : Nat) :
    (ofStrings texts).item index = texts[index]?.map ofString :=
  List.getElem?_map

@[simp]
theorem isText_ofString (text other : String) :
    (ofString text).isText other = decide (text = other) :=
  decide_eq_decide.mpr points_injective.eq_iff

/-- Only the string of a text is written as that text. -/
theorem toJson_eq_string_iff {value : PyValue} {text : String} :
    value.toJson = some (.string text) ↔ value = ofString text := by
  cases value with
  | str codes =>
    rw [toJson, Option.map_eq_some_iff]
    constructor
    · rintro ⟨other, made, same⟩
      obtain rfl := Json.string.inj same
      exact congrArg PyValue.str (textOf_eq_some_iff.mp made)
    · intro same
      exact ⟨text, textOf_eq_some_iff.mpr (PyValue.str.inj same), rfl⟩
  | _ => simp [toJson, ofString]

/-- Only the strings of some texts are written one by one as those texts. -/
theorem itemsToJson_eq_strings_iff {items : List PyValue} {texts : List String} :
    itemsToJson items = some (texts.map .string) ↔ items = texts.map ofString := by
  induction items generalizing texts with
  | nil => cases texts <;> simp [itemsToJson]
  | cons item items inductionHypothesis =>
    cases texts with
    | nil => simp [itemsToJson, Option.bind_eq_some_iff]
    | cons text texts =>
      rw [List.map_cons, List.map_cons, List.cons.injEq, ← toJson_eq_string_iff,
        ← inductionHypothesis, itemsToJson]
      simp [Option.bind_eq_some_iff]

/-- Only a list of strings is written as an array of texts. -/
theorem toJson_eq_strings_iff {value : PyValue} {texts : List String} :
    value.toJson = some (.array (texts.map .string)) ↔ value = ofStrings texts := by
  cases value with
  | list items =>
    rw [toJson, Option.map_eq_some_iff, ofStrings, PyValue.list.injEq,
      ← itemsToJson_eq_strings_iff]
    simp
  | _ => simp [toJson, ofStrings]

theorem toJson_eq_null_iff {value : PyValue} : value.toJson = some .null ↔ value = .null := by
  cases value <;> simp [toJson]

@[simp]
theorem toJson_ofString (text : String) : (ofString text).toJson = some (.string text) :=
  toJson_eq_string_iff.mpr rfl

@[simp]
theorem toJson_ofStrings (texts : List String) :
    (ofStrings texts).toJson = some (.array (texts.map .string)) :=
  toJson_eq_strings_iff.mpr rfl

@[simp]
theorem textOf_points (text : String) : textOf (points text) = some text :=
  textOf_eq_some_iff.mpr rfl

end PyValue
