import Collector.Library.Json

/-!
# The reader returns what the writer wrote

The proof follows the value. A string body is read back character by character,
each escape separately; arrays and objects are read back item by item, with the
text of the rest left over. Fuel is measured by the length of the text, since
every token that enters a value, an item or a member is at least one character.
A writer may leave a gap after its commas and colons; the compact text has none.
-/

namespace Json

/-- The input goes on with a character that cannot continue a number. -/
def Stops (rest : List Char) : Prop := ∀ char ∈ rest.head?, isNumberChar char = false

mutual

/-- A value the reader can read back at the given depth: nested no deeper, with
lexemes of the number grammar only. -/
def Readable : Nat → Json → Prop
  | _, .null => True
  | _, .bool _ => True
  | _, .string _ => True
  | _, .number lexeme => lexeme.toList.all isNumberChar = true ∧ validNumber lexeme.toList = true
  | 0, .array _ => False
  | depth + 1, .array items => ReadableItems depth items
  | 0, .object _ => False
  | depth + 1, .object members => ReadableMembers depth members

/-- Every item is readable at the given depth. -/
def ReadableItems : Nat → List Json → Prop
  | _, [] => True
  | depth, item :: items => Readable depth item ∧ ReadableItems depth items

/-- Every member's value is readable at the given depth. -/
def ReadableMembers : Nat → List (String × Json) → Prop
  | _, [] => True
  | depth, (_, value) :: members => Readable depth value ∧ ReadableMembers depth members

end

/-- Items are readable exactly when each of them is. -/
theorem readableItems_iff (depth : Nat) (items : List Json) :
    ReadableItems depth items ↔ ∀ item ∈ items, Readable depth item := by
  induction items with
  | nil => simp [ReadableItems]
  | cons item items inductionHypothesis => simp [ReadableItems, inductionHypothesis]

theorem skipSpace_cons {char : Char} (solid : isSpace char = false) (rest : List Char) :
    skipSpace (char :: rest) = char :: rest := by
  simp [skipSpace, List.dropWhile, solid]

/-- A hexadecimal digit denotes the number it was written for. -/
theorem hexValue_hexDigit (number : Nat) (small : number < 16) :
    hexValue (hexDigit number) = some number := by
  have all : ∀ tested < 16, hexValue (hexDigit tested) = some tested := by decide
  exact all number small

/-- The escape of a control character without a short form is read back. -/
theorem readUnicode_control (char : Char) (rest : List Char) (control : char.toNat < 32) :
    readUnicode ('0' :: '0' :: hexDigit (char.toNat / 16) :: hexDigit (char.toNat % 16) :: rest) =
      some (char, rest) := by
  have zero : hexValue '0' = some 0 := by decide
  have high := hexValue_hexDigit (char.toNat / 16) (by omega)
  have low := hexValue_hexDigit (char.toNat % 16) (Nat.mod_lt _ (by decide))
  have whole : ((0 * 16 + 0) * 16 + char.toNat / 16) * 16 + char.toNat % 16 = char.toNat := by omega
  have plain : char.toNat < 0xD800 ∨ 0xDFFF < char.toNat := by omega
  simp only [readUnicode, readUnit, zero, high, low, Option.bind_eq_bind, Option.bind_some, whole,
    plain, if_true, Char.ofNat_toNat]

/-- One written character is read back, whichever form the writer chose. -/
theorem readBody_escapeChar (fuel : Nat) (char : Char) (rest : List Char) :
    readBody (fuel + 1) (escapeChar char ++ rest) =
      (readBody fuel rest).bind (fun read => some (char :: read.1, read.2)) := by
  unfold escapeChar
  split_ifs with quote backslash newline carriage tab backspace feed control
  · subst quote; rfl
  · subst backslash; rfl
  · subst newline; rfl
  · subst carriage; rfl
  · subst tab; rfl
  · subst backspace; rfl
  · subst feed; rfl
  · have escaped := readUnicode_control char rest control
    simp only [List.cons_append, List.nil_append, readBody, readEscape, escaped]
    rfl
  · simp only [List.cons_append, List.nil_append, readBody, if_neg quote, if_neg backslash,
      if_neg control]
    rfl

/-- A written string body is read back, given fuel for each character and the
closing quote. -/
theorem readBody_writeBody (chars : List Char) (fuel : Nat) (rest : List Char)
    (enough : chars.length < fuel) :
    readBody fuel (writeBody chars ++ rest) = some (chars, rest) := by
  induction chars generalizing fuel with
  | nil =>
    obtain ⟨remaining, rfl⟩ : ∃ remaining, fuel = remaining + 1 :=
      ⟨fuel - 1, by simp at enough; omega⟩
    rfl
  | cons char chars inductionHypothesis =>
    obtain ⟨remaining, rfl⟩ : ∃ remaining, fuel = remaining + 1 := ⟨fuel - 1, by omega⟩
    have tail := inductionHypothesis remaining (by simpa using enough)
    rw [writeBody, List.append_assoc, readBody_escapeChar, tail]
    rfl

/-- A written body is longer than the string it stands for. -/
theorem length_writeBody (chars : List Char) : chars.length < (writeBody chars).length := by
  induction chars with
  | nil => decide
  | cons char chars inductionHypothesis =>
    have written : 0 < (escapeChar char).length := by
      unfold escapeChar
      split_ifs <;> simp
    simp only [writeBody, List.length_append, List.length_cons]
    omega

/-- A lexeme of the number grammar is read back as itself when what follows
cannot continue it. -/
theorem readNumber_lexeme (lexeme : String) (rest : List Char)
    (chars : lexeme.toList.all isNumberChar = true) (valid : validNumber lexeme.toList = true)
    (stops : Stops rest) :
    readNumber (lexeme.toList ++ rest) = some (.number lexeme, rest) := by
  have all : ∀ char ∈ lexeme.toList, isNumberChar char = true := List.all_eq_true.mp chars
  have nothing : rest.takeWhile isNumberChar = [] ∧ rest.dropWhile isNumberChar = rest := by
    cases rest with
    | nil => exact ⟨rfl, rfl⟩
    | cons char tail =>
      have stopped : isNumberChar char = false := stops char rfl
      exact ⟨by simp [stopped], by simp [stopped]⟩
  have taken : (lexeme.toList ++ rest).takeWhile isNumberChar = lexeme.toList := by
    rw [List.takeWhile_append_of_pos all, nothing.1, List.append_nil]
  have dropped : (lexeme.toList ++ rest).dropWhile isNumberChar = rest := by
    rw [List.dropWhile_append_of_pos all, nothing.2]
  simp only [readNumber, taken, dropped, valid, if_true, String.ofList_toList]

/-- A character that numbers consist of starts no other token. -/
theorem numberChar_distinct {char : Char} (number : isNumberChar char = true) :
    isSpace char = false ∧ char ≠ '"' ∧ char ≠ '[' ∧ char ≠ '{' ∧ char ≠ 'n' ∧ char ≠ 't' ∧
      char ≠ 'f' := by
  have differs (other : Char) (none : isNumberChar other = false) : char ≠ other := by
    rintro rfl
    simp [none] at number
  refine ⟨?_, differs _ (by decide), differs _ (by decide), differs _ (by decide),
    differs _ (by decide), differs _ (by decide), differs _ (by decide)⟩
  simp [isSpace, differs ' ' (by decide), differs '\n' (by decide), differs '\t' (by decide),
    differs '\r' (by decide)]

/-! ## Writing with gaps -/

mutual

/-- The text of a value with a gap after every comma and every colon. -/
def writeWith (gap : List Char) : Json → List Char
  | .null => ['n', 'u', 'l', 'l']
  | .bool true => ['t', 'r', 'u', 'e']
  | .bool false => ['f', 'a', 'l', 's', 'e']
  | .number lexeme => lexeme.toList
  | .string value => writeString value
  | .array [] => ['[', ']']
  | .array (item :: items) => '[' :: (writeWith gap item ++ writeItemsWith gap items)
  | .object [] => ['{', '}']
  | .object ((name, value) :: members) =>
      '{' :: (writeString name ++ ':' :: (gap ++ (writeWith gap value ++
        writeMembersWith gap members)))

/-- The items after the first, each after its comma, and the closing bracket. -/
def writeItemsWith (gap : List Char) : List Json → List Char
  | [] => [']']
  | item :: items => ',' :: (gap ++ (writeWith gap item ++ writeItemsWith gap items))

/-- The members after the first, each after its comma, and the closing brace. -/
def writeMembersWith (gap : List Char) : List (String × Json) → List Char
  | [] => ['}']
  | (name, value) :: members =>
      ',' :: (gap ++ (writeString name ++ ':' :: (gap ++ (writeWith gap value ++
        writeMembersWith gap members))))

end

mutual

/-- The compact text has no gaps. -/
theorem writeWith_nil : (value : Json) → writeWith [] value = write value
  | .null => rfl
  | .bool true => rfl
  | .bool false => rfl
  | .number _ => rfl
  | .string _ => rfl
  | .array [] => rfl
  | .array (item :: items) => by
    rw [writeWith, write, writeWith_nil item, writeItemsWith_nil items]
  | .object [] => rfl
  | .object ((name, value) :: members) => by
    rw [writeWith, write, List.nil_append, writeWith_nil value, writeMembersWith_nil members]

theorem writeItemsWith_nil : (items : List Json) → writeItemsWith [] items = writeItems items
  | [] => rfl
  | item :: items => by
    rw [writeItemsWith, writeItems, List.nil_append, writeWith_nil item, writeItemsWith_nil items]

theorem writeMembersWith_nil :
    (members : List (String × Json)) → writeMembersWith [] members = writeMembers members
  | [] => rfl
  | (name, value) :: members => by
    rw [writeMembersWith, writeMembers, List.nil_append, List.nil_append, writeWith_nil value,
      writeMembersWith_nil members]

end

/-- The text of a value with gaps, as a string. -/
def textWith (gap : List Char) (value : Json) : String := String.ofList (writeWith gap value)

theorem skipSpace_append {gap : List Char} (blank : gap.all isSpace = true) (rest : List Char) :
    skipSpace (gap ++ rest) = skipSpace rest := by
  induction gap with
  | nil => rfl
  | cons char gap inductionHypothesis =>
    rw [List.all_cons, Bool.and_eq_true] at blank
    rw [List.cons_append, skipSpace, List.dropWhile_cons, if_pos blank.1]
    exact inductionHypothesis blank.2

/-- A value is read past a gap. -/
theorem readValue_append {gap : List Char} (blank : gap.all isSpace = true) (fuel depth : Nat)
    (rest : List Char) : readValue fuel depth (gap ++ rest) = readValue fuel depth rest := by
  cases fuel with
  | zero => rfl
  | succ fuel => rw [readValue, readValue, skipSpace_append blank]

/-- A member is read past a gap. -/
theorem readMember_append {gap : List Char} (blank : gap.all isSpace = true) (fuel depth : Nat)
    (rest : List Char) : readMember fuel depth (gap ++ rest) = readMember fuel depth rest := by
  cases fuel with
  | zero => rfl
  | succ fuel => rw [readMember, readMember, skipSpace_append blank]

variable {gap : List Char}

/-- The first character of a readable value's text: never white space, never a
closing bracket or brace. -/
theorem write_head (depth : Nat) (value : Json) (readable : Readable depth value) :
    ∃ char tail, writeWith gap value = char :: tail ∧ isSpace char = false ∧ char ≠ ']' ∧
      char ≠ '}' := by
  cases value with
  | null => exact ⟨_, _, by rw [writeWith], by decide, by decide, by decide⟩
  | bool value => cases value <;> exact ⟨_, _, by rw [writeWith], by decide, by decide, by decide⟩
  | number lexeme =>
    obtain ⟨chars, valid⟩ :
        lexeme.toList.all isNumberChar = true ∧ validNumber lexeme.toList = true := by
      simpa only [Readable] using readable
    cases spelled : lexeme.toList with
    | nil =>
      rw [spelled] at valid
      exact absurd valid (by decide)
    | cons char tail =>
      have number : isNumberChar char = true := List.all_eq_true.mp chars char (by simp [spelled])
      refine ⟨char, tail, by rw [writeWith, spelled], (numberChar_distinct number).1, ?_, ?_⟩
      · rintro rfl
        exact absurd number (by decide)
      · rintro rfl
        exact absurd number (by decide)
  | string value => exact ⟨_, _, by rw [writeWith, writeString], by decide, by decide, by decide⟩
  | array items => cases items <;> exact ⟨_, _, by rw [writeWith], by decide, by decide, by decide⟩
  | object members =>
    cases members with
    | nil => exact ⟨_, _, by rw [writeWith], by decide, by decide, by decide⟩
    | cons member members =>
      obtain ⟨name, value⟩ := member
      exact ⟨_, _, by rw [writeWith], by decide, by decide, by decide⟩

/-- What follows an item starts with a comma or a bracket. -/
theorem stops_writeItems (items : List Json) (rest : List Char) :
    Stops (writeItemsWith gap items ++ rest) := by
  cases items <;> (rw [writeItemsWith]; intro char first; simp at first; subst first; decide)

/-- What follows a member starts with a comma or a brace. -/
theorem stops_writeMembers (members : List (String × Json)) (rest : List Char) :
    Stops (writeMembersWith gap members ++ rest) := by
  cases members with
  | nil => rw [writeMembersWith]; intro char first; simp at first; subst first; decide
  | cons member members =>
    obtain ⟨name, value⟩ := member
    rw [writeMembersWith]; intro char first; simp at first; subst first; decide

/-- A bracket followed by anything but a closing bracket enters the items. -/
theorem readValue_items (fuel depth : Nat) (char : Char) (tail : List Char)
    (solid : isSpace char = false) (nonempty : char ≠ ']') :
    readValue (fuel + 1) (depth + 1) ('[' :: char :: tail) =
      (readValue fuel depth (char :: tail)).bind (fun first =>
        (readItems fuel depth first.2).bind (fun others =>
          some (.array (first.1 :: others.1), others.2))) := by
  rw [readValue, skipSpace_cons (by decide)]
  simp only [Char.reduceEq, if_true, if_false, skipSpace_cons solid]
  split
  · rename_i closing
    exact absurd (List.cons.inj closing).1 nonempty
  · rfl

/-- A brace followed by a quote enters the members. -/
theorem readValue_members (fuel depth : Nat) (tail : List Char) :
    readValue (fuel + 1) (depth + 1) ('{' :: '"' :: tail) =
      (readMember fuel depth ('"' :: tail)).bind (fun first =>
        (readMembers fuel depth first.2).bind (fun others =>
          some (.object (first.1 :: others.1), others.2))) := by
  rw [readValue, skipSpace_cons (by decide)]
  simp only [Char.reduceEq, if_true, if_false, skipSpace_cons (show isSpace '"' = false by decide)]
  rfl

/-- The name and colon of a written member lead to its value. -/
theorem readMember_name (name : String) (fuel depth : Nat) (rest : List Char)
    (enough : name.toList.length < fuel) :
    readMember (fuel + 1) depth (writeString name ++ ':' :: rest) =
      (readValue fuel depth rest).bind (fun value => some ((name, value.1), value.2)) := by
  have body := readBody_writeBody name.toList fuel (':' :: rest) enough
  rw [writeString, List.cons_append, readMember, skipSpace_cons (by decide)]
  simp only [body, Option.bind_eq_bind, Option.bind_some,
    skipSpace_cons (show isSpace ':' = false by decide), String.ofList_toList]

mutual

/-- A readable value is read back from its text, whatever follows it, with fuel
for each character of the text. -/
theorem readValue_write (blank : gap.all isSpace = true) (value : Json) (fuel depth : Nat)
    (rest : List Char) (readable : Readable depth value)
    (enough : (writeWith gap value).length ≤ fuel) (stops : Stops rest) :
    readValue fuel depth (writeWith gap value ++ rest) = some (value, rest) := by
  obtain ⟨remaining, rfl⟩ : ∃ remaining, fuel = remaining + 1 := by
    obtain ⟨char, tail, spelled, _⟩ := write_head depth value readable
    rw [spelled, List.length_cons] at enough
    exact ⟨fuel - 1, by omega⟩
  match value with
  | .null => rfl
  | .bool true => rfl
  | .bool false => rfl
  | .number lexeme =>
    obtain ⟨chars, valid⟩ :
        lexeme.toList.all isNumberChar = true ∧ validNumber lexeme.toList = true := by
      simpa only [Readable] using readable
    cases spelled : lexeme.toList with
    | nil =>
      rw [spelled] at valid
      exact absurd valid (by decide)
    | cons char tail =>
      have number : isNumberChar char = true := List.all_eq_true.mp chars char (by simp [spelled])
      obtain ⟨solid, quote, bracket, brace, n, t, f⟩ := numberChar_distinct number
      have token := readNumber_lexeme lexeme rest chars valid stops
      rw [spelled, List.cons_append] at token
      rw [writeWith, spelled, List.cons_append, readValue, skipSpace_cons solid]
      simp only [if_neg quote, if_neg bracket, if_neg brace, if_neg n, if_neg t, if_neg f]
      exact token
  | .string value =>
    have longer := length_writeBody value.toList
    rw [writeWith, writeString, List.length_cons] at enough
    have body := readBody_writeBody value.toList remaining rest (by omega)
    rw [writeWith, writeString, List.cons_append, readValue, skipSpace_cons (by decide)]
    simp only [if_true, body, Option.bind_eq_bind, Option.bind_some, String.ofList_toList]
  | .array [] =>
    cases depth with
    | zero => simp [Readable] at readable
    | succ depth => rfl
  | .array (item :: items) =>
    cases depth with
    | zero => simp [Readable] at readable
    | succ depth =>
      obtain ⟨first, others⟩ : Readable depth item ∧ ReadableItems depth items := by
        simpa only [Readable, ReadableItems] using readable
      rw [writeWith, List.length_cons, List.length_append] at enough
      have readItem := readValue_write blank item remaining depth (writeItemsWith gap items ++ rest)
        first (by omega) (stops_writeItems items rest)
      have readOthers := readItems_write blank items remaining depth rest others (by omega)
      obtain ⟨char, tail, spelled, solid, bracket, _⟩ := write_head depth item first
      rw [spelled, List.cons_append] at readItem
      rw [writeWith, spelled, List.cons_append, List.append_assoc, List.cons_append,
        readValue_items remaining depth char _ solid bracket, readItem, Option.bind_some,
        readOthers, Option.bind_some]
  | .object [] =>
    cases depth with
    | zero => simp [Readable] at readable
    | succ depth => rfl
  | .object ((name, value) :: members) =>
    cases depth with
    | zero => simp [Readable] at readable
    | succ depth =>
      obtain ⟨first, others⟩ : Readable depth value ∧ ReadableMembers depth members := by
        simpa only [Readable, ReadableMembers] using readable
      have longer := length_writeBody name.toList
      simp only [writeWith, writeString, List.length_cons, List.length_append] at enough
      have fits : (writeString name ++ ':' :: (gap ++ writeWith gap value)).length ≤ remaining := by
        simp only [writeString, List.length_cons, List.length_append, List.cons_append]
        omega
      have readFirst := readMember_write blank name value remaining depth
        (writeMembersWith gap members ++ rest) first fits (stops_writeMembers members rest)
      have readOthers := readMembers_write blank members remaining depth rest others
        (by omega)
      simp only [writeString, List.cons_append] at readFirst
      simp only [writeWith, writeString, List.cons_append, List.append_assoc] at readFirst ⊢
      rw [readValue_members, readFirst, Option.bind_some, readOthers, Option.bind_some]
termination_by fuel

/-- A member is read back from its text. -/
theorem readMember_write (blank : gap.all isSpace = true) (name : String) (value : Json)
    (fuel depth : Nat) (rest : List Char) (readable : Readable depth value)
    (enough : (writeString name ++ ':' :: (gap ++ writeWith gap value)).length ≤ fuel)
    (stops : Stops rest) :
    readMember fuel depth (writeString name ++ ':' :: (gap ++ (writeWith gap value ++ rest))) =
      some ((name, value), rest) := by
  have longer := length_writeBody name.toList
  simp only [writeString, List.length_cons, List.length_append, List.cons_append] at enough
  obtain ⟨remaining, rfl⟩ : ∃ remaining, fuel = remaining + 1 := ⟨fuel - 1, by omega⟩
  have readSecond := readValue_write blank value remaining depth rest readable (by omega) stops
  rw [readMember_name name remaining depth _ (by omega), readValue_append blank, readSecond,
    Option.bind_some]
termination_by fuel

/-- The items after one item are read back. -/
theorem readItems_write (blank : gap.all isSpace = true) (items : List Json) (fuel depth : Nat)
    (rest : List Char) (readable : ReadableItems depth items)
    (enough : (writeItemsWith gap items).length ≤ fuel) :
    readItems fuel depth (writeItemsWith gap items ++ rest) = some (items, rest) := by
  match items with
  | [] =>
    obtain ⟨remaining, rfl⟩ : ∃ remaining, fuel = remaining + 1 :=
      ⟨fuel - 1, by simp only [writeItemsWith, List.length_singleton] at enough; omega⟩
    rfl
  | item :: items =>
    obtain ⟨first, others⟩ := readable
    rw [writeItemsWith, List.length_cons, List.length_append, List.length_append] at enough
    obtain ⟨remaining, rfl⟩ : ∃ remaining, fuel = remaining + 1 := ⟨fuel - 1, by omega⟩
    have readItem := readValue_write blank item remaining depth (writeItemsWith gap items ++ rest)
      first (by omega) (stops_writeItems items rest)
    have readOthers := readItems_write blank items remaining depth rest others (by omega)
    rw [writeItemsWith, List.cons_append, List.append_assoc, List.append_assoc, readItems,
      skipSpace_cons (by decide)]
    simp only [readValue_append blank, readItem, readOthers, Option.bind_eq_bind,
      Option.bind_some]
termination_by fuel

/-- The members after one member are read back. -/
theorem readMembers_write (blank : gap.all isSpace = true) (members : List (String × Json))
    (fuel depth : Nat) (rest : List Char) (readable : ReadableMembers depth members)
    (enough : (writeMembersWith gap members).length ≤ fuel) :
    readMembers fuel depth (writeMembersWith gap members ++ rest) = some (members, rest) := by
  match members with
  | [] =>
    obtain ⟨remaining, rfl⟩ : ∃ remaining, fuel = remaining + 1 :=
      ⟨fuel - 1, by simp only [writeMembersWith, List.length_singleton] at enough; omega⟩
    rfl
  | (name, value) :: members =>
    obtain ⟨first, others⟩ := readable
    simp only [writeMembersWith, writeString, List.length_cons, List.length_append,
      List.cons_append] at enough
    obtain ⟨remaining, rfl⟩ : ∃ remaining, fuel = remaining + 1 := ⟨fuel - 1, by omega⟩
    have fits : (writeString name ++ ':' :: (gap ++ writeWith gap value)).length ≤ remaining := by
      simp only [writeString, List.length_cons, List.length_append, List.cons_append]
      omega
    have readFirst := readMember_write blank name value remaining depth
      (writeMembersWith gap members ++ rest) first fits (stops_writeMembers members rest)
    have readOthers := readMembers_write blank members remaining depth rest others
        (by omega)
    have spelled : writeMembersWith gap ((name, value) :: members) ++ rest =
        ',' :: (gap ++ (writeString name ++ ':' :: (gap ++ (writeWith gap value ++
          (writeMembersWith gap members ++ rest))))) := by
      simp only [writeMembersWith, List.cons_append, List.append_assoc]
    rw [spelled, readMembers, skipSpace_cons (by decide)]
    simp only [readMember_append blank, readFirst, readOthers, Option.bind_eq_bind,
      Option.bind_some]
termination_by fuel

end

/-- Reading the text of a readable value returns that value, with gaps or without. -/
theorem parse_textWith (blank : gap.all isSpace = true) (depth : Nat) (value : Json)
    (readable : Readable depth value) : parse depth (value.textWith gap) = some value := by
  have back := readValue_write blank value ((writeWith gap value).length + 1) depth [] readable
    (by omega) (fun char first => absurd first (by simp))
  rw [List.append_nil] at back
  simp only [parse, textWith, String.toList_ofList, back]
  rfl

/-- Reading the compact text of a readable value returns that value. -/
theorem parse_text (depth : Nat) (value : Json) (readable : Readable depth value) :
    parse depth value.text = some value := by
  rw [text, ← writeWith_nil]
  exact parse_textWith rfl depth value readable

end Json
