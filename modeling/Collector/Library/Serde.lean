import Collector.Library.Json
import Mathlib.Data.List.Forall2

/-!
# Derived decoding of structures and tagged enumerations

The rules by which a derived decoder turns a JSON value into a structure. A
structure is read from an object by name, or from an array by position. Unknown
members are ignored and a repeated known member is refused. What a missing
member means depends on how the field is declared: an option decoded by the
library itself reads it as absent, a field with a default takes the default, and
every other field refuses, an option with a custom decoder included.

An internally tagged enumeration takes its variant from one member, or from the
first item of an array, and decodes the variant from what remains.
-/

namespace Serde

/-- Why a decoder refuses. -/
inductive Error where
  | malformed
  | invalidType (expected : String)
  | invalidLength (expected : Nat)
  | missingField (name : String)
  | duplicateField (name : String)
  | unknownVariant (tag : String)
  | custom (message : String)
deriving DecidableEq

variable {α : Type}

/-- The members of an object or the items of an array, as a structure sees them. -/
inductive Fields where
  | named (members : List (String × Json))
  | positional (items : List Json)

/-- The value of a member: absent, present once, or refused as a repetition. -/
def lookup (name : String) : List (String × Json) → Except Error (Option Json)
  | [] => .ok none
  | (other, value) :: rest => do
    let later ← lookup name rest
    if other = name then
      match later with
      | none => .ok (some value)
      | some _ => .error (.duplicateField name)
    else .ok later

/-- A structure accepts an object or an array. -/
def fields (expected : String) : Json → Except Error Fields
  | .object members => .ok (.named members)
  | .array items => .ok (.positional items)
  | _ => .error (.invalidType expected)

/-- A field that must be present, whatever its decoder accepts. -/
def requiredField (position : Nat) (name : String) (decode : Json → Except Error α) :
    Fields → Except Error α
  | .named members => do
    match ← lookup name members with
    | some value => decode value
    | none => .error (.missingField name)
  | .positional items =>
    match items[position]? with
    | some value => decode value
    | none => .error (.invalidLength position)

/-- Null is absence, and every other value is decoded. -/
def nullable (decode : Json → Except Error α) : Json → Except Error (Option α)
  | .null => .ok none
  | value => (decode value).map some

/-- An option without a custom decoder: a missing member is absence. -/
def optionField (position : Nat) (name : String) (decode : Json → Except Error α) :
    Fields → Except Error (Option α)
  | .named members => do
    match ← lookup name members with
    | some value => nullable decode value
    | none => .ok none
  | .positional items =>
    match items[position]? with
    | some value => nullable decode value
    | none => .error (.invalidLength position)

/-- A field that takes its default when it is missing, in either form. -/
def defaultField (position : Nat) (name : String) (default : α) (decode : Json → Except Error α) :
    Fields → Except Error α
  | .named members => do
    match ← lookup name members with
    | some value => decode value
    | none => .ok default
  | .positional items =>
    match items[position]? with
    | some value => decode value
    | none => .ok default

/-- An array form carries no items beyond the structure's fields. -/
def closed (count : Nat) : Fields → Except Error Unit
  | .named _ => .ok ()
  | .positional items => if items.length ≤ count then .ok () else .error (.invalidLength count)

/-- A string. -/
def string : Json → Except Error String
  | .string value => .ok value
  | _ => .error (.invalidType "a string")

/-- An array of any length. -/
def list (decode : Json → Except Error α) : Json → Except Error (List α)
  | .array items => items.mapM decode
  | _ => .error (.invalidType "a sequence")

/-- An internally tagged enumeration. -/
def tagged (tag : String) (variant : String → Fields → Except Error α) : Json → Except Error α
  | .object members => do
    match ← lookup tag members with
    | some value =>
      let name ← string value
      variant name (.named (members.filter (fun member => member.1 ≠ tag)))
    | none => .error (.missingField tag)
  | .array (value :: items) => do
    let name ← string value
    variant name (.positional items)
  | .array [] => .error (.missingField tag)
  | _ => .error (.invalidType "internally tagged enum")

/-- The variant that a buffered tag names. A value that was buffered before it is
decoded may also name its variant by index. -/
def variantName (names : List String) : Json → Except Error String
  | .string name => .ok name
  | .number lexeme =>
    match names.zipIdx.find? (fun indexed => indexed.2.repr = lexeme) with
    | some (name, _) => .ok name
    | none => .error (.invalidType "variant index")
  | _ => .error (.invalidType "variant identifier")

/-- An internally tagged enumeration that is decoded from a buffered value. -/
def taggedBuffered (tag : String) (names : List String)
    (variant : String → Fields → Except Error α) : Json → Except Error α
  | .object members => do
    match ← lookup tag members with
    | some value =>
      let name ← variantName names value
      variant name (.named (members.filter (fun member => member.1 ≠ tag)))
    | none => .error (.missingField tag)
  | .array (value :: items) => do
    let name ← variantName names value
    variant name (.positional items)
  | .array [] => .error (.missingField tag)
  | _ => .error (.invalidType "internally tagged enum")

/-- A member that is left out when it is absent. -/
def skipNone (name : String) : Option Json → List (String × Json)
  | none => []
  | some value => [(name, value)]

/-- The nesting limit of the text reader: one less than its initial depth. -/
def recursionLimit : Nat := 127

/-- Decode a whole text. -/
def fromStr (decode : Json → Except Error α) (source : String) : Except Error α :=
  match Json.parse recursionLimit source with
  | some value => decode value
  | none => .error .malformed

/-- A decoder that goes on has got something so far. -/
theorem of_bind {β : Type} {first : Except Error α} {rest : α → Except Error β} {value : β}
    (decoded : (first >>= rest) = .ok value) :
    ∃ middle, first = .ok middle ∧ rest middle = .ok value := by
  cases first with
  | error error => cases decoded
  | ok middle => exact ⟨middle, rfl, decoded⟩

theorem of_map {β : Type} {first : Except Error α} {change : α → β} {value : β}
    (decoded : first.map change = .ok value) :
    ∃ middle, first = .ok middle ∧ change middle = value := by
  cases first with
  | error error => cases decoded
  | ok middle => exact ⟨middle, rfl, Except.ok.inj decoded⟩

/-- A field of an array form is the item at its position. -/
theorem positional_field {position : Nat} {name : String} {decode : Json → Except Error α}
    {items : List Json} {value : α}
    (decoded : requiredField position name decode (.positional items) = .ok value) :
    ∃ item, items[position]? = some item ∧ decode item = .ok value := by
  rw [requiredField] at decoded
  cases found : items[position]? with
  | none =>
    rw [found] at decoded
    cases decoded
  | some item =>
    rw [found] at decoded
    exact ⟨item, rfl, decoded⟩

/-- A closed array form is no longer than its fields. -/
theorem closed_positional {count : Nat} {items : List Json} {value : Unit}
    (decoded : closed count (.positional items) = .ok value) : items.length ≤ count := by
  by_contra long
  rw [closed, if_neg long] at decoded
  cases decoded

/-- The items of a decoded array, one by one. -/
theorem mapM_ok_iff {β : Type} (decode : Json → Except Error β) (items : List Json)
    (values : List β) :
    items.mapM decode = .ok values ↔
      List.Forall₂ (fun item value => decode item = .ok value) items values := by
  induction items generalizing values with
  | nil => simp [pure, Except.pure, eq_comm]
  | cons item items inductionHypothesis =>
    constructor
    · intro decoded
      rw [List.mapM_cons] at decoded
      cases first : decode item with
      | error error =>
        rw [first] at decoded
        cases decoded
      | ok value =>
        cases others : items.mapM decode with
        | error error =>
          rw [first, others] at decoded
          cases decoded
        | ok rest =>
          rw [first, others] at decoded
          obtain rfl := Except.ok.inj decoded
          exact .cons first ((inductionHypothesis rest).mp others)
    · rintro (_ | ⟨first, others⟩)
      rw [List.mapM_cons, first, (inductionHypothesis _).mpr others]
      rfl

@[simp]
theorem nullable_string (value : String) :
    nullable string (.string value) = .ok (some value) := rfl

/-- Decoding the items one by one undoes encoding them one by one. -/
theorem list_map {β : Type} (encode : β → Json) (decode : Json → Except Error β)
    (back : ∀ item, decode (encode item) = .ok item) (items : List β) :
    list decode (.array (items.map encode)) = .ok items := by
  have each : (items.map encode).mapM decode = Except.ok items := by
    induction items with
    | nil => rfl
    | cons item items inductionHypothesis =>
      rw [List.map_cons, List.mapM_cons, back, inductionHypothesis]
      rfl
  exact each

theorem string_ok_iff (value : Json) (text : String) :
    string value = .ok text ↔ value = .string text := by
  cases value <;> simp [string]

/-- Strings are decoded from an array of strings and from nothing else. -/
theorem list_string_ok_iff (value : Json) (texts : List String) :
    list string value = .ok texts ↔ value = .array (texts.map .string) := by
  cases value with
  | array items =>
    rw [list, mapM_ok_iff, Json.array.injEq]
    simp only [string_ok_iff]
    rw [← List.forall₂_map_right_iff (f := Json.string), List.forall₂_eq_eq_eq]
  | _ => simp [list]

/-- A tagged value in its array form is no list of tagged values: its first item is
a tag, and a tag alone is not a tagged value. -/
theorem taggedBuffered_exclusive {tag : String} {names : List String}
    {variant : String → Fields → Except Error α} {items : List Json} {value : α}
    (decoded : taggedBuffered tag names variant (.array items) = .ok value) (values : List α) :
    items.mapM (taggedBuffered tag names variant) ≠ .ok values := by
  intro listed
  cases (mapM_ok_iff _ _ _).mp listed with
  | nil => cases decoded
  | @cons first firstValue rest restValues firstDecoded =>
    cases first with
    | string => cases firstDecoded
    | number => cases firstDecoded
    | null => cases decoded
    | bool => cases decoded
    | array => cases decoded
    | object => cases decoded

end Serde
