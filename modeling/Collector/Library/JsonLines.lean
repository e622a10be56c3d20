import Collector.Library.JsonRoundTrip
import Mathlib.Data.List.TakeWhile

/-!
# Values on lines of their own

The compact text of a value has no line break, since the writer escapes every
control character. So values written one to a line can be told apart by their
lines. Integers are written with digits only, within the number grammar, and
their digits read back as themselves.
-/

namespace Json

/-- No escape contains a line break. -/
theorem newline_notMem_escapeChar (char : Char) : '\n' ∉ escapeChar char := by
  have digit : ∀ number < 16, '\n' ≠ hexDigit number := by decide
  unfold escapeChar
  split_ifs with quote backslash newline carriage tab backspace feed control
  · decide
  · decide
  · decide
  · decide
  · decide
  · decide
  · decide
  · have high := digit (char.toNat / 16) (by omega)
    have low := digit (char.toNat % 16) (Nat.mod_lt _ (by decide))
    simp [high, low]
  · simp [Ne.symm newline]

/-- No written string body contains one. -/
theorem newline_notMem_writeBody (chars : List Char) : '\n' ∉ writeBody chars := by
  induction chars with
  | nil => decide
  | cons char rest inductionHypothesis =>
    rw [writeBody, List.mem_append, not_or]
    exact ⟨newline_notMem_escapeChar char, inductionHypothesis⟩

theorem newline_notMem_writeString (value : String) : '\n' ∉ writeString value := by
  rw [writeString, List.mem_cons, not_or]
  exact ⟨by decide, newline_notMem_writeBody value.toList⟩

/-- A lexeme of number characters contains none. -/
theorem newline_notMem_lexeme {lexeme : String} (chars : lexeme.toList.all isNumberChar = true) :
    '\n' ∉ lexeme.toList := by
  intro present
  exact absurd (List.all_eq_true.mp chars '\n' present) (by decide)

mutual

/-- The text of a readable value has no line break. -/
theorem newline_notMem_write (value : Json) (depth : Nat) (readable : Readable depth value) :
    '\n' ∉ write value := by
  match value with
  | .null => decide
  | .bool true => decide
  | .bool false => decide
  | .number lexeme =>
    obtain ⟨chars, -⟩ : lexeme.toList.all isNumberChar = true ∧
        validNumber lexeme.toList = true := by
      simpa only [Readable] using readable
    rw [write]
    exact newline_notMem_lexeme chars
  | .string value =>
    rw [write]
    exact newline_notMem_writeString value
  | .array [] => decide
  | .array (item :: items) =>
    cases depth with
    | zero => simp [Readable] at readable
    | succ depth =>
      obtain ⟨first, others⟩ : Readable depth item ∧ ReadableItems depth items := by
        simpa only [Readable, ReadableItems] using readable
      rw [write, List.mem_cons, List.mem_append, not_or, not_or]
      exact ⟨by decide, newline_notMem_write item depth first,
        newline_notMem_writeItems items depth others⟩
  | .object [] => decide
  | .object ((name, value) :: members) =>
    cases depth with
    | zero => simp [Readable] at readable
    | succ depth =>
      obtain ⟨first, others⟩ : Readable depth value ∧ ReadableMembers depth members := by
        simpa only [Readable, ReadableMembers] using readable
      simp only [write, List.mem_cons, List.mem_append, not_or]
      exact ⟨by decide, newline_notMem_writeString name, by decide,
        newline_notMem_write value depth first, newline_notMem_writeMembers members depth others⟩

theorem newline_notMem_writeItems (items : List Json) (depth : Nat)
    (readable : ReadableItems depth items) : '\n' ∉ writeItems items := by
  match items with
  | [] => decide
  | item :: items =>
    obtain ⟨first, others⟩ : Readable depth item ∧ ReadableItems depth items := by
      simpa only [ReadableItems] using readable
    rw [writeItems, List.mem_cons, List.mem_append, not_or, not_or]
    exact ⟨by decide, newline_notMem_write item depth first,
      newline_notMem_writeItems items depth others⟩

theorem newline_notMem_writeMembers (members : List (String × Json)) (depth : Nat)
    (readable : ReadableMembers depth members) : '\n' ∉ writeMembers members := by
  match members with
  | [] => decide
  | (name, value) :: members =>
    obtain ⟨first, others⟩ : Readable depth value ∧ ReadableMembers depth members := by
      simpa only [ReadableMembers] using readable
    simp only [writeMembers, List.mem_cons, List.mem_append, not_or]
    exact ⟨by decide, newline_notMem_writeString name, by decide,
      newline_notMem_write value depth first, newline_notMem_writeMembers members depth others⟩

end

/-- The digits of a natural number. -/
theorem isDigit_of_mem_repr {number : Nat} {char : Char} (member : char ∈ number.repr.toList) :
    char.isDigit = true := by
  rw [Nat.toList_repr] at member
  exact Nat.isDigit_of_mem_toDigits (by decide) (by decide) member

/-- A positive number has no leading zero. -/
theorem head_toDigits {number : Nat} (positive : 0 < number) :
    ∃ digit rest, Nat.toDigits 10 number = digit :: rest ∧ digit.isDigit = true ∧ digit ≠ '0' := by
  induction number using Nat.strong_induction_on with
  | _ number inductionHypothesis =>
    rw [Nat.toDigits_eq_if (by decide)]
    split
    · rename_i small
      have all : ∀ tested < 10, 0 < tested →
          tested.digitChar.isDigit = true ∧ tested.digitChar ≠ '0' := by decide
      exact ⟨_, [], rfl, all number small positive⟩
    · rename_i large
      obtain ⟨digit, rest, spelled, leading⟩ :=
        inductionHypothesis (number / 10) (by omega) (by omega)
      exact ⟨digit, rest ++ [(number % 10).digitChar], by rw [spelled, List.cons_append], leading⟩

/-- The digits of a natural number are a number without a sign. -/
theorem validUnsigned_repr (number : Nat) : validUnsigned number.repr.toList = true := by
  rcases Nat.eq_zero_or_pos number with rfl | positive
  · decide
  · have digits : ∀ char ∈ number.repr.toList, char.isDigit = true :=
      fun char member => isDigit_of_mem_repr member
    obtain ⟨digit, rest, spelled, isDigit, notZero⟩ := head_toDigits positive
    rw [Nat.toList_repr, spelled] at digits ⊢
    have none : rest.dropWhile Char.isDigit = [] :=
      List.dropWhile_eq_nil_iff.mpr fun char member =>
        digits char (List.mem_cons_of_mem digit member)
    unfold validUnsigned
    split
    · rename_i empty
      exact absurd empty nofun
    · rename_i tail zero
      exact absurd (List.cons.inj zero).1 notZero
    · rename_i first tail _ same
      obtain ⟨rfl, rfl⟩ := List.cons.inj same
      rw [isDigit, none]
      rfl

/-- A digit is a character of numbers. -/
theorem isNumberChar_of_isDigit {char : Char} (digit : char.isDigit = true) :
    isNumberChar char = true := by
  simp [isNumberChar, digit]

/-- An integer is written as a number. -/
theorem readable_integer (depth : Nat) (value : Int) :
    Readable depth (.number (toString value)) := by
  have digits (number : Nat) : number.repr.toList.all isNumberChar = true :=
    List.all_eq_true.mpr fun char member => isNumberChar_of_isDigit (isDigit_of_mem_repr member)
  have unsigned (number : Nat) : validNumber number.repr.toList = true := by
    have valid := validUnsigned_repr number
    unfold validNumber
    split
    · rename_i rest spelled
      have member : '-' ∈ number.repr.toList := by
        rw [spelled]
        exact List.mem_cons_self
      exact absurd (isDigit_of_mem_repr member) (by decide)
    · exact valid
  cases value with
  | ofNat number =>
    simp only [Readable]
    exact ⟨digits number, unsigned number⟩
  | negSucc number =>
    have spelled : (toString (Int.negSucc number)).toList = '-' :: (number + 1).repr.toList := by
      change ("-" ++ (number + 1).repr).toList = _
      rw [String.toList_append]
      rfl
    simp only [Readable]
    rw [spelled]
    refine ⟨?_, validUnsigned_repr (number + 1)⟩
    rw [List.all_cons, digits (number + 1)]
    rfl

end Json
