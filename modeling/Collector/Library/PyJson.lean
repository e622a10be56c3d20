import Collector.Library.JsonNesting
import Collector.Library.PyValue
import Collector.Library.Serde

/-!
# What Python makes of a JSON text

`ofJson` is the value that `json.loads` makes of a JSON value within the limits of both
readers; of a repeated key the last value stays. `lookup` refuses a repeated key, so
where it finds something the dictionary has the same.

A text that is read begins, after white space, with a character that begins a value.
-/

namespace Serde

variable {α β : Type}

/-- A field that has been decoded is there. -/
theorem named_field {position : Nat} {name : String} {decode : Json → Except Error α}
    {members : List (String × Json)} {value : α}
    (decoded : requiredField position name decode (.named members) = .ok value) :
    ∃ json, lookup name members = .ok (some json) ∧ decode json = .ok value := by
  obtain ⟨found, looked, decoded⟩ := of_bind decoded
  cases found with
  | none => cases decoded
  | some json => exact ⟨json, looked, decoded⟩

/-- A field with a default is there or has its default. -/
theorem named_default {position : Nat} {name : String} {default : α}
    {decode : Json → Except Error α} {members : List (String × Json)} {value : α}
    (decoded : defaultField position name default decode (.named members) = .ok value) :
    (lookup name members = .ok none ∧ value = default) ∨
      ∃ json, lookup name members = .ok (some json) ∧ decode json = .ok value := by
  obtain ⟨found, looked, decoded⟩ := of_bind decoded
  cases found with
  | none => exact Or.inl ⟨looked, (Except.ok.inj decoded).symm⟩
  | some json => exact Or.inr ⟨json, looked, decoded⟩

/-- What is found is a member. -/
theorem mem_of_lookup {name : String} {members : List (String × Json)} {value : Json}
    (looked : lookup name members = .ok (some value)) : (name, value) ∈ members := by
  induction members with
  | nil => cases Except.ok.inj looked
  | cons member members inductionHypothesis =>
    obtain ⟨other, here⟩ := member
    obtain ⟨later, inRest, looked⟩ := of_bind looked
    by_cases same : other = name
    · rw [if_pos same] at looked
      cases later with
      | none =>
        obtain rfl := Option.some.inj (Except.ok.inj looked)
        rw [same]
        exact List.mem_cons_self
      | some second => cases looked
    · rw [if_neg same] at looked
      obtain rfl := Except.ok.inj looked
      exact List.mem_cons_of_mem _ (inductionHypothesis inRest)

/-- Members of another name are of no account. -/
theorem lookup_filter {name tag : String} (different : name ≠ tag)
    (members : List (String × Json)) :
    lookup name (members.filter fun member => member.1 ≠ tag) = lookup name members := by
  induction members with
  | nil => rfl
  | cons member members inductionHypothesis =>
    obtain ⟨other, value⟩ := member
    by_cases isTag : other = tag
    · have skipped : other ≠ name := fun same => different (same.symm.trans isTag)
      rw [List.filter_cons_of_neg (by simp [isTag]), inductionHypothesis]
      cases found : lookup name members <;> simp [lookup, found, skipped, bind, Except.bind]
    · rw [List.filter_cons_of_pos (by simp [isTag]), lookup, lookup, inductionHypothesis]

end Serde

namespace PyValue

mutual

/-- The value of a JSON value. The order of the keys is of no account. -/
def ofJson : Json → PyValue
  | .null => .null
  | .bool value => .bool value
  | .number lexeme => .number lexeme
  | .string text => .ofString text
  | .array items => .list (ofItems items)
  | .object members => .dict (ofMembers members)

def ofItems : List Json → List PyValue
  | [] => []
  | item :: items => ofJson item :: ofItems items

def ofMembers : List (String × Json) → List (List Nat × PyValue)
  | [] => []
  | (name, value) :: members =>
    let later := ofMembers members
    if later.any fun member => member.1 = points name then later
    else (points name, ofJson value) :: later

end

/-- `members.get(name)`, absent if there is no such key. -/
def get (name : String) (members : List (List Nat × PyValue)) : Option PyValue :=
  (members.find? fun member => member.1 = points name).map Prod.snd

theorem ofItems_eq (items : List Json) : ofItems items = items.map ofJson := by
  induction items with
  | nil => rfl
  | cons item items inductionHypothesis => rw [ofItems, inductionHypothesis, List.map_cons]

/-- A key is there if `get` finds it. -/
theorem any_eq_isSome_get (name : String) (members : List (List Nat × PyValue)) :
    (members.any fun member => member.1 = points name) = (get name members).isSome := by
  rw [get, Option.isSome_map, List.isSome_find?]

theorem get_cons_self (name : String) (value : PyValue) (members : List (List Nat × PyValue)) :
    get name ((points name, value) :: members) = some value := by
  simp [get]

theorem get_cons_of_ne {name other : String} (different : other ≠ name) (value : PyValue)
    (members : List (List Nat × PyValue)) :
    get name ((points other, value) :: members) = get name members := by
  have keys : points other ≠ points name := fun same => different (points_injective same)
  simp [get, keys]

/-- What a derived decoder finds under a name is what the dictionary has there. -/
theorem get_ofMembers {name : String} {members : List (String × Json)} {found : Option Json}
    (looked : Serde.lookup name members = .ok found) :
    get name (ofMembers members) = found.map ofJson := by
  induction members generalizing found with
  | nil =>
    obtain rfl : none = found := Except.ok.inj looked
    rfl
  | cons member members inductionHypothesis =>
    obtain ⟨other, value⟩ := member
    obtain ⟨rest, later, looked⟩ := Serde.of_bind looked
    have inRest := inductionHypothesis later
    rw [ofMembers]
    by_cases same : other = name
    · subst same
      rw [if_pos rfl] at looked
      cases rest with
      | some second => cases looked
      | none =>
        obtain rfl := Except.ok.inj looked
        have absent : (ofMembers members).any (fun member => member.1 = points other) = false := by
          rw [any_eq_isSome_get, inRest]
          rfl
        simp only [absent, Bool.false_eq_true, if_false]
        exact get_cons_self other _ _
    · rw [if_neg same] at looked
      obtain rfl := Except.ok.inj looked
      split
      · exact inRest
      · rw [get_cons_of_ne same]
        exact inRest

end PyValue

namespace Json

/-- The characters that a value begins with. -/
def begins (char : Char) : Bool :=
  char ∈ ['"', '[', '{', 'n', 't', 'f', '-'] || char.isDigit

/-- A number begins with its sign or a digit. -/
theorem begins_of_validNumber {char : Char} {rest : List Char}
    (valid : validNumber (char :: rest) = true) : begins char = true := by
  unfold validNumber at valid
  split at valid
  · rename_i same
    obtain ⟨rfl, _⟩ := List.cons.inj same
    rfl
  · unfold validUnsigned at valid
    split at valid
    · cases valid
    · rename_i same
      obtain ⟨rfl, _⟩ := List.cons.inj same
      rfl
    · rename_i same
      obtain ⟨rfl, _⟩ := List.cons.inj same
      have digit := (Bool.and_eq_true_iff.mp valid).1
      simp [begins, digit]

/-- A value begins, after white space, with a character that can begin one. -/
theorem begins_of_readValue {fuel depth : Nat} {input rest : List Char} {value : Json}
    (read : readValue fuel depth input = some (value, rest)) :
    ∃ char tail, skipSpace input = char :: tail ∧ begins char = true := by
  cases fuel with
  | zero => cases read
  | succ fuel =>
    rw [readValue] at read
    cases token : skipSpace input with
    | nil =>
      rw [token] at read
      cases read
    | cons char tail =>
      refine ⟨char, tail, rfl, ?_⟩
      rw [token] at read
      by_contra other
      have different (first : Char) (known : begins first = true) : char ≠ first := by
        rintro rfl
        exact other known
      simp only [different '"' rfl, different '[' rfl, different '{' rfl, different 'n' rfl,
        different 't' rfl, different 'f' rfl, if_false, readNumber] at read
      obtain ⟨valid, _⟩ := Option.ite_none_right_eq_some.mp read
      by_cases number : isNumberChar char = true
      · rw [List.takeWhile_cons_of_pos number] at valid
        exact other (begins_of_validNumber valid)
      · rw [List.takeWhile_cons_of_neg number] at valid
        cases valid

/-- The same of a whole text. -/
theorem Reads.begins {source : String} {value : Json} (reads : Reads source value) :
    ∃ char tail, skipSpace source.toList = char :: tail ∧ Json.begins char = true := by
  obtain ⟨depth, parsed⟩ := reads
  unfold Json.parse at parsed
  split at parsed
  · rename_i read
    exact begins_of_readValue read
  · cases parsed

end Json
