import Collector.Library.JsonRoundTrip

/-!
# How deep a text may nest

The reader refuses a text only because it is not JSON or because its arrays and
objects nest deeper than it is told to go. A text that is read at one depth is
read as the same value at every depth that the value's own nesting allows, and
at no other.
-/

namespace Json

universe u

mutual

/-- How deep arrays and objects nest. -/
def nesting : Json → Nat
  | .array items => nestingItems items + 1
  | .object members => nestingMembers members + 1
  | _ => 0

def nestingItems : List Json → Nat
  | [] => 0
  | item :: items => max (nesting item) (nestingItems items)

def nestingMembers : List (String × Json) → Nat
  | [] => 0
  | (_, value) :: members => max (nesting value) (nestingMembers members)

end

/-- A member nests as deep as its value. -/
def nestingMember (member : String × Json) : Nat := nesting member.2

mutual

/-- The number lexemes of a value, in order. -/
def numbers : Json → List String
  | .number lexeme => [lexeme]
  | .array items => numbersItems items
  | .object members => numbersMembers members
  | _ => []

def numbersItems : List Json → List String
  | [] => []
  | item :: items => numbers item ++ numbersItems items

def numbersMembers : List (String × Json) → List String
  | [] => []
  | (_, value) :: members => numbers value ++ numbersMembers members

end

theorem nesting_le_nestingItems {item : Json} {items : List Json} (member : item ∈ items) :
    nesting item ≤ nestingItems items := by
  induction items with
  | nil => cases member
  | cons first rest inductionHypothesis =>
    simp only [nestingItems]
    rcases List.mem_cons.mp member with rfl | later
    · omega
    · have below := inductionHypothesis later
      omega

theorem mem_numbersItems {lexeme : String} {items : List Json} :
    lexeme ∈ numbersItems items ↔ ∃ item ∈ items, lexeme ∈ numbers item := by
  induction items with
  | nil => simp [numbersItems]
  | cons first rest inductionHypothesis => simp [numbersItems, inductionHypothesis]

@[simp]
theorem nestingItems_strings (texts : List String) : nestingItems (texts.map .string) = 0 := by
  induction texts with
  | nil => rfl
  | cons text texts inductionHypothesis => simp [nestingItems, nesting, inductionHypothesis]

@[simp]
theorem numbersItems_strings (texts : List String) : numbersItems (texts.map .string) = [] := by
  induction texts with
  | nil => rfl
  | cons text texts inductionHypothesis => simp [numbersItems, numbers, inductionHypothesis]

/-- A reader whose answer depends on the depth only as far as the nesting of what
it read. -/
def Limited {β : Type u} (read : Nat → List Char → Option (β × List Char)) (size : β → Nat) :
    Prop :=
  ∀ depth input value rest, read depth input = some (value, rest) →
    size value ≤ depth ∧ ∀ other, size value ≤ other → read other input = some (value, rest)

section Step

variable {fuel : Nat}

theorem limited_readItems (values : Limited (readValue fuel) nesting)
    (items : Limited (readItems fuel) nestingItems) :
    Limited (readItems (fuel + 1)) nestingItems := by
  intro depth input found rest read
  rw [readItems] at read
  split at read
  case h_1 remaining token =>
    obtain ⟨rfl, rfl⟩ := Prod.mk.inj (Option.some.inj read)
    refine ⟨Nat.zero_le _, ?_⟩
    intro other _
    simp only [readItems, token]
  case h_2 remaining token =>
    obtain ⟨⟨first, between⟩, readFirst, read⟩ := Option.bind_eq_some_iff.mp read
    obtain ⟨⟨others, last⟩, readOthers, read⟩ := Option.bind_eq_some_iff.mp read
    obtain ⟨rfl, rfl⟩ := Prod.mk.inj (Option.some.inj read)
    obtain ⟨firstFits, firstAgain⟩ := values _ _ _ _ readFirst
    obtain ⟨othersFit, othersAgain⟩ := items _ _ _ _ readOthers
    simp only [nestingItems]
    refine ⟨by omega, ?_⟩
    intro other fits
    rw [readItems, token]
    simp only [firstAgain other (by omega), othersAgain other (by omega), Option.bind_eq_bind,
      Option.bind_some]
  case h_3 => cases read

theorem limited_readMember (values : Limited (readValue fuel) nesting) :
    Limited (readMember (fuel + 1)) nestingMember := by
  intro depth input found rest read
  rw [readMember] at read
  split at read
  case h_1 remaining token =>
    obtain ⟨⟨name, between⟩, readName, read⟩ := Option.bind_eq_some_iff.mp read
    simp only at read
    split at read
    case h_1 _ afterColon colon =>
      obtain ⟨⟨value, last⟩, readSecond, read⟩ := Option.bind_eq_some_iff.mp read
      obtain ⟨rfl, rfl⟩ := Prod.mk.inj (Option.some.inj read)
      obtain ⟨fits, again⟩ := values _ _ _ _ readSecond
      refine ⟨fits, ?_⟩
      intro other fitsOther
      rw [readMember, token]
      simp only [readName, colon, again other fitsOther, Option.bind_eq_bind, Option.bind_some]
    case h_2 => cases read
  case h_2 => cases read

theorem limited_readMembers (member : Limited (readMember fuel) nestingMember)
    (members : Limited (readMembers fuel) nestingMembers) :
    Limited (readMembers (fuel + 1)) nestingMembers := by
  intro depth input found rest read
  rw [readMembers] at read
  split at read
  case h_1 remaining token =>
    obtain ⟨rfl, rfl⟩ := Prod.mk.inj (Option.some.inj read)
    refine ⟨Nat.zero_le _, ?_⟩
    intro other _
    simp only [readMembers, token]
  case h_2 remaining token =>
    obtain ⟨⟨first, between⟩, readFirst, read⟩ := Option.bind_eq_some_iff.mp read
    obtain ⟨⟨others, last⟩, readOthers, read⟩ := Option.bind_eq_some_iff.mp read
    obtain ⟨rfl, rfl⟩ := Prod.mk.inj (Option.some.inj read)
    obtain ⟨firstFits, firstAgain⟩ := member _ _ _ _ readFirst
    obtain ⟨othersFit, othersAgain⟩ := members _ _ _ _ readOthers
    simp only [nestingMembers, nestingMember] at firstFits firstAgain ⊢
    refine ⟨by omega, ?_⟩
    intro other fits
    rw [readMembers, token]
    simp only [firstAgain other (by omega), othersAgain other (by omega), Option.bind_eq_bind,
      Option.bind_some]
  case h_3 => cases read

/-- An opening bracket reads an array. -/
theorem readValue_bracket {fuel depth : Nat} {input tail : List Char}
    (token : skipSpace input = '[' :: tail) :
    readValue (fuel + 1) (depth + 1) input = (match skipSpace tail with
      | ']' :: rest => some (.array [], rest)
      | rest => do
        let (item, rest) ← readValue fuel depth rest
        let (items, rest) ← readItems fuel depth rest
        some (.array (item :: items), rest)) := by
  rw [readValue, token]
  rfl

/-- An opening brace reads an object. -/
theorem readValue_brace {fuel depth : Nat} {input tail : List Char}
    (token : skipSpace input = '{' :: tail) :
    readValue (fuel + 1) (depth + 1) input = (match skipSpace tail with
      | '}' :: rest => some (.object [], rest)
      | rest => do
        let (member, rest) ← readMember fuel depth rest
        let (members, rest) ← readMembers fuel depth rest
        some (.object (member :: members), rest)) := by
  rw [readValue, token]
  rfl

/-- Every other value is read without a look at the depth. -/
theorem readValue_leaf {fuel depth : Nat} {input tail rest : List Char} {char : Char}
    {value : Json} (token : skipSpace input = char :: tail) (bracket : char ≠ '[')
    (brace : char ≠ '{') (read : readValue (fuel + 1) depth input = some (value, rest)) :
    nesting value = 0 ∧ ∀ other, readValue (fuel + 1) other input = some (value, rest) := by
  have same : ∀ other, readValue (fuel + 1) other input = readValue (fuel + 1) depth input := by
    intro other
    rw [readValue, readValue, token]
    simp only [if_neg bracket, if_neg brace]
  refine ⟨?_, fun other => (same other).trans read⟩
  rw [readValue, token] at read
  simp only [if_neg bracket, if_neg brace] at read
  split at read
  · obtain ⟨_, _, read⟩ := Option.bind_eq_some_iff.mp read
    obtain ⟨rfl, _⟩ := Prod.mk.inj (Option.some.inj read)
    rfl
  · iterate 3
      split at read
      · split at read
        · obtain ⟨rfl, _⟩ := Prod.mk.inj (Option.some.inj read)
          rfl
        · cases read
    unfold readNumber at read
    simp only at read
    split at read
    · obtain ⟨rfl, _⟩ := Prod.mk.inj (Option.some.inj read)
      rfl
    · cases read

theorem limited_readValue (values : Limited (readValue fuel) nesting)
    (items : Limited (readItems fuel) nestingItems)
    (member : Limited (readMember fuel) nestingMember)
    (members : Limited (readMembers fuel) nestingMembers) :
    Limited (readValue (fuel + 1)) nesting := by
  intro depth input found rest read
  cases token : skipSpace input with
  | nil =>
    rw [readValue, token] at read
    cases read
  | cons char tail =>
    by_cases bracket : char = '['
    · subst bracket
      cases depth with
      | zero =>
        rw [readValue, token] at read
        cases read
      | succ depth =>
        rw [readValue_bracket token] at read
        split at read
        case h_1 remaining closing =>
          obtain ⟨rfl, rfl⟩ := Prod.mk.inj (Option.some.inj read)
          refine ⟨by simp [nesting, nestingItems], ?_⟩
          rintro (_ | other) fits
          · exact absurd fits (Nat.not_succ_le_zero _)
          · simp only [readValue_bracket token, closing]
        case h_2 remaining opening =>
          obtain ⟨⟨first, between⟩, readFirst, read⟩ := Option.bind_eq_some_iff.mp read
          obtain ⟨⟨others, last⟩, readOthers, read⟩ := Option.bind_eq_some_iff.mp read
          obtain ⟨rfl, rfl⟩ := Prod.mk.inj (Option.some.inj read)
          obtain ⟨firstFits, firstAgain⟩ := values _ _ _ _ readFirst
          obtain ⟨othersFit, othersAgain⟩ := items _ _ _ _ readOthers
          simp only [nesting, nestingItems]
          refine ⟨by omega, ?_⟩
          rintro (_ | other) fits
          · exact absurd fits (Nat.not_succ_le_zero _)
          · rw [readValue_bracket token]
            split
            case h_1 remaining' closing => exact absurd closing (opening remaining')
            case h_2 =>
              simp only [firstAgain other (by omega), othersAgain other (by omega),
                Option.bind_eq_bind, Option.bind_some]
    · by_cases brace : char = '{'
      · subst brace
        cases depth with
        | zero =>
          rw [readValue, token] at read
          cases read
        | succ depth =>
          rw [readValue_brace token] at read
          split at read
          case h_1 remaining closing =>
            obtain ⟨rfl, rfl⟩ := Prod.mk.inj (Option.some.inj read)
            refine ⟨by simp [nesting, nestingMembers], ?_⟩
            rintro (_ | other) fits
            · exact absurd fits (Nat.not_succ_le_zero _)
            · simp only [readValue_brace token, closing]
          case h_2 remaining opening =>
            obtain ⟨⟨first, between⟩, readFirst, read⟩ := Option.bind_eq_some_iff.mp read
            obtain ⟨⟨others, last⟩, readOthers, read⟩ := Option.bind_eq_some_iff.mp read
            obtain ⟨rfl, rfl⟩ := Prod.mk.inj (Option.some.inj read)
            obtain ⟨firstFits, firstAgain⟩ := member _ _ _ _ readFirst
            obtain ⟨othersFit, othersAgain⟩ := members _ _ _ _ readOthers
            simp only [nesting, nestingMembers, nestingMember] at firstFits firstAgain ⊢
            refine ⟨by omega, ?_⟩
            rintro (_ | other) fits
            · exact absurd fits (Nat.not_succ_le_zero _)
            · rw [readValue_brace token]
              split
              case h_1 remaining' closing => exact absurd closing (opening remaining')
              case h_2 =>
                simp only [firstAgain other (by omega), othersAgain other (by omega),
                  Option.bind_eq_bind, Option.bind_some]
      · obtain ⟨flat, again⟩ := readValue_leaf token bracket brace read
        exact ⟨by omega, fun other _ => again other⟩

end Step

/-- With any fuel the four readers look at the depth only as far as they need. -/
theorem limited (fuel : Nat) :
    Limited (readValue fuel) nesting ∧ Limited (readItems fuel) nestingItems ∧
      Limited (readMember fuel) nestingMember ∧ Limited (readMembers fuel) nestingMembers := by
  induction fuel with
  | zero =>
    refine ⟨?_, ?_, ?_, ?_⟩ <;> intro depth input value rest read <;> cases read
  | succ fuel inductionHypothesis =>
    obtain ⟨values, items, member, members⟩ := inductionHypothesis
    exact ⟨limited_readValue values items member members, limited_readItems values items,
      limited_readMember values, limited_readMembers member members⟩

/-- The text is JSON for the value. -/
def Reads (source : String) (value : Json) : Prop := ∃ depth, parse depth source = some value

/-- A text that is JSON is read exactly at the depths its value's nesting allows. -/
theorem Reads.parse {source : String} {value : Json} (reads : Reads source value) (depth : Nat) :
    parse depth source = if value.nesting ≤ depth then some value else none := by
  obtain ⟨once, parsed⟩ := reads
  have once_cases : ∃ rest, readValue (source.toList.length + 1) once source.toList =
      some (value, rest) ∧ skipSpace rest = [] := by
    unfold Json.parse at parsed
    split at parsed
    case h_1 found rest read =>
      split at parsed
      case isTrue ended =>
        obtain rfl := Option.some.inj parsed
        exact ⟨rest, read, ended⟩
      case isFalse => cases parsed
    case h_2 => cases parsed
  obtain ⟨rest, read, ended⟩ := once_cases
  have bounded := (limited (source.toList.length + 1)).1
  obtain ⟨_, again⟩ := bounded _ _ _ _ read
  unfold Json.parse
  by_cases fits : value.nesting ≤ depth
  · simp only [again depth fits, ended, if_true, if_pos fits]
  · rw [if_neg fits]
    split
    case h_1 found remaining other =>
      obtain ⟨small, back⟩ := bounded _ _ _ _ other
      -- both readings agree at a depth that is enough for either
      have left := again (max value.nesting found.nesting) (Nat.le_max_left _ _)
      have right := back (max value.nesting found.nesting) (Nat.le_max_right _ _)
      obtain ⟨rfl, _⟩ := Prod.mk.inj (Option.some.inj (left.symm.trans right))
      exact absurd small fits
    case h_2 => rfl

/-- Every number of the value is a number of the grammar. -/
def NumbersValid (value : Json) : Prop :=
  ∀ lexeme ∈ value.numbers,
    lexeme.toList.all isNumberChar = true ∧ validNumber lexeme.toList = true

instance (value : Json) : Decidable value.NumbersValid :=
  inferInstanceAs (Decidable (∀ lexeme ∈ value.numbers, _))

mutual

/-- A value with valid numbers is readable at every depth that its nesting allows. -/
theorem readable_of_valid : (value : Json) → (depth : Nat) → nesting value ≤ depth →
    NumbersValid value → Readable depth value
  | .null, _, _, _ => by rw [Readable]; trivial
  | .bool _, _, _, _ => by rw [Readable]; trivial
  | .string _, _, _, _ => by rw [Readable]; trivial
  | .number lexeme, _, _, valid => by
    rw [Readable]
    exact valid lexeme List.mem_cons_self
  | .array items, depth + 1, fits, valid => by
    rw [Readable]
    exact readableItems_of_valid items depth (Nat.le_of_succ_le_succ fits) valid
  | .object members, depth + 1, fits, valid => by
    rw [Readable]
    exact readableMembers_of_valid members depth (Nat.le_of_succ_le_succ fits) valid

theorem readableItems_of_valid : (items : List Json) → (depth : Nat) →
    nestingItems items ≤ depth → NumbersValid (.array items) → ReadableItems depth items
  | [], _, _, _ => by rw [ReadableItems]; trivial
  | item :: items, depth, fits, valid => by
    rw [ReadableItems]
    constructor
    · exact readable_of_valid item depth (Nat.le_trans (Nat.le_max_left _ _) fits)
        fun lexeme member => valid lexeme (List.mem_append_left _ member)
    · exact readableItems_of_valid items depth (Nat.le_trans (Nat.le_max_right _ _) fits)
        fun lexeme member => valid lexeme (List.mem_append_right _ member)

theorem readableMembers_of_valid : (members : List (String × Json)) → (depth : Nat) →
    nestingMembers members ≤ depth → NumbersValid (.object members) →
      ReadableMembers depth members
  | [], _, _, _ => by rw [ReadableMembers]; trivial
  | (_, value) :: members, depth, fits, valid => by
    rw [ReadableMembers]
    constructor
    · exact readable_of_valid value depth (Nat.le_trans (Nat.le_max_left _ _) fits)
        fun lexeme member => valid lexeme (List.mem_append_left _ member)
    · exact readableMembers_of_valid members depth (Nat.le_trans (Nat.le_max_right _ _) fits)
        fun lexeme member => valid lexeme (List.mem_append_right _ member)

end

/-- The text of a value with valid numbers is read at the depths its nesting allows. -/
theorem parse_textWith_eq {gap : List Char} (blank : gap.all isSpace = true) {value : Json}
    (valid : NumbersValid value) (depth : Nat) :
    parse depth (value.textWith gap) = if value.nesting ≤ depth then some value else none :=
  Reads.parse ⟨value.nesting,
    parse_textWith blank _ value (readable_of_valid value _ le_rfl valid)⟩ depth

end Json
