import Mathlib.Data.List.Basic
import Mathlib.Data.Char

/-!
# JSON texts

Values, the compact writer and the reader. Numbers are kept as their lexemes, so
no precision is lost or assumed. Object members keep their order and their
repetitions; what a repeated member means is left to the decoder.

The writer escapes quotes, backslashes and control characters and writes every
other character as it is. The reader accepts white space between tokens, every
escape of the grammar including surrogate pairs, and refuses nesting beyond the
depth it is given. The main result is that the reader returns exactly the value
the writer wrote.
-/

/-- A JSON value. -/
inductive Json where
  | null
  | bool (value : Bool)
  | number (lexeme : String)
  | string (value : String)
  | array (items : List Json)
  | object (members : List (String × Json))

namespace Json

/-! ## Writing -/

/-- The lower-case hexadecimal digit of a number below sixteen. -/
def hexDigit (number : Nat) : Char :=
  if number < 10 then Char.ofNat (48 + number) else Char.ofNat (87 + number)

/-- The characters that stand for one character inside a written string. -/
def escapeChar (char : Char) : List Char :=
  if char = '"' then ['\\', '"']
  else if char = '\\' then ['\\', '\\']
  else if char = '\n' then ['\\', 'n']
  else if char = '\r' then ['\\', 'r']
  else if char = '\t' then ['\\', 't']
  else if char = '\x08' then ['\\', 'b']
  else if char = '\x0c' then ['\\', 'f']
  else if char.toNat < 32 then
    ['\\', 'u', '0', '0', hexDigit (char.toNat / 16), hexDigit (char.toNat % 16)]
  else [char]

/-- The body of a written string, up to and including its closing quote. -/
def writeBody : List Char → List Char
  | [] => ['"']
  | char :: rest => escapeChar char ++ writeBody rest

/-- A written string with both quotes. -/
def writeString (value : String) : List Char := '"' :: writeBody value.toList

mutual

/-- The compact text of a value. -/
def write : Json → List Char
  | .null => ['n', 'u', 'l', 'l']
  | .bool true => ['t', 'r', 'u', 'e']
  | .bool false => ['f', 'a', 'l', 's', 'e']
  | .number lexeme => lexeme.toList
  | .string value => writeString value
  | .array [] => ['[', ']']
  | .array (item :: items) => '[' :: (write item ++ writeItems items)
  | .object [] => ['{', '}']
  | .object ((name, value) :: members) =>
      '{' :: (writeString name ++ ':' :: (write value ++ writeMembers members))

/-- The items after the first, each after its comma, and the closing bracket. -/
def writeItems : List Json → List Char
  | [] => [']']
  | item :: items => ',' :: (write item ++ writeItems items)

/-- The members after the first, each after its comma, and the closing brace. -/
def writeMembers : List (String × Json) → List Char
  | [] => ['}']
  | (name, value) :: members =>
      ',' :: (writeString name ++ ':' :: (write value ++ writeMembers members))

end

/-- The compact text of a value, as a string. -/
def text (value : Json) : String := String.ofList value.write

/-! ## Reading -/

/-- The white space that may stand between tokens. -/
def isSpace (char : Char) : Bool := char = ' ' || char = '\n' || char = '\t' || char = '\r'

/-- The input from its next token on. -/
def skipSpace (input : List Char) : List Char := input.dropWhile isSpace

/-- The value of a hexadecimal digit of either case. -/
def hexValue (char : Char) : Option Nat :=
  if '0' ≤ char ∧ char ≤ '9' then some (char.toNat - 48)
  else if 'a' ≤ char ∧ char ≤ 'f' then some (char.toNat - 87)
  else if 'A' ≤ char ∧ char ≤ 'F' then some (char.toNat - 55)
  else none

/-- Four hexadecimal digits. -/
def readUnit : List Char → Option (Nat × List Char)
  | a :: b :: c :: d :: rest => do
    let first ← hexValue a
    let second ← hexValue b
    let third ← hexValue c
    let fourth ← hexValue d
    some (((first * 16 + second) * 16 + third) * 16 + fourth, rest)
  | _ => none

/-- The character of a `\u` escape: a plain code unit, or a leading surrogate
with the escape of its trailing surrogate. A lone surrogate is refused. -/
def readUnicode (input : List Char) : Option (Char × List Char) := do
  let (unit, rest) ← readUnit input
  if unit < 0xD800 ∨ 0xDFFF < unit then some (Char.ofNat unit, rest)
  else if 0xDBFF < unit then none
  else match rest with
    | '\\' :: 'u' :: more => do
      let (low, rest) ← readUnit more
      if 0xDC00 ≤ low ∧ low ≤ 0xDFFF then
        some (Char.ofNat (0x10000 + (unit - 0xD800) * 0x400 + (low - 0xDC00)), rest)
      else none
    | _ => none

/-- The character an escape stands for, after its backslash. -/
def readEscape : List Char → Option (Char × List Char)
  | [] => none
  | char :: rest =>
    if char = '"' then some ('"', rest)
    else if char = '\\' then some ('\\', rest)
    else if char = '/' then some ('/', rest)
    else if char = 'n' then some ('\n', rest)
    else if char = 'r' then some ('\r', rest)
    else if char = 't' then some ('\t', rest)
    else if char = 'b' then some ('\x08', rest)
    else if char = 'f' then some ('\x0c', rest)
    else if char = 'u' then readUnicode rest
    else none

/-- The characters of a string after its opening quote. A raw control character
is refused. Each unit of fuel reads one character of the string. -/
def readBody : Nat → List Char → Option (List Char × List Char)
  | 0, _ => none
  | _ + 1, [] => none
  | fuel + 1, char :: rest =>
    if char = '"' then some ([], rest)
    else if char = '\\' then do
      let (escaped, rest) ← readEscape rest
      let (chars, rest) ← readBody fuel rest
      some (escaped :: chars, rest)
    else if char.toNat < 32 then none
    else do
      let (chars, rest) ← readBody fuel rest
      some (char :: chars, rest)

/-- The characters a number can consist of. -/
def isNumberChar (char : Char) : Bool :=
  char.isDigit || char = '-' || char = '+' || char = '.' || char = 'e' || char = 'E'

/-- A nonempty run of digits to the end. -/
def validDigits (chars : List Char) : Bool := !chars.isEmpty && chars.all Char.isDigit

/-- An exponent to the end, after its letter. -/
def validExponent : List Char → Bool
  | '+' :: digits => validDigits digits
  | '-' :: digits => validDigits digits
  | digits => validDigits digits

/-- What may follow the integer part: a fraction, an exponent, both or neither. -/
def validTail (chars : List Char) : Bool :=
  match chars with
  | [] => true
  | '.' :: rest =>
    let fraction := rest.takeWhile Char.isDigit
    !fraction.isEmpty && match rest.dropWhile Char.isDigit with
      | [] => true
      | 'e' :: exponent => validExponent exponent
      | 'E' :: exponent => validExponent exponent
      | _ => false
  | 'e' :: exponent => validExponent exponent
  | 'E' :: exponent => validExponent exponent
  | _ => false

/-- A number without its sign: no leading zero before another digit. -/
def validUnsigned : List Char → Bool
  | [] => false
  | '0' :: rest => validTail rest
  | digit :: rest => digit.isDigit && validTail (rest.dropWhile Char.isDigit)

/-- The grammar of a number lexeme. -/
def validNumber : List Char → Bool
  | '-' :: rest => validUnsigned rest
  | chars => validUnsigned chars

/-- A number takes every character it could continue with; a run outside the
grammar is refused. -/
def readNumber (input : List Char) : Option (Json × List Char) :=
  let lexeme := input.takeWhile isNumberChar
  if validNumber lexeme then
    some (.number (String.ofList lexeme), input.dropWhile isNumberChar)
  else none

mutual

/-- One value after optional white space. Each unit of fuel enters one value,
item or member; `depth` bounds the nesting of arrays and objects. -/
def readValue : Nat → Nat → List Char → Option (Json × List Char)
  | 0, _, _ => none
  | fuel + 1, depth, input =>
    match skipSpace input with
    | [] => none
    | char :: rest =>
      if char = '"' then do
        let (chars, rest) ← readBody fuel rest
        some (.string (String.ofList chars), rest)
      else if char = '[' then
        match depth with
        | 0 => none
        | depth + 1 => match skipSpace rest with
          | ']' :: rest => some (.array [], rest)
          | rest => do
            let (item, rest) ← readValue fuel depth rest
            let (items, rest) ← readItems fuel depth rest
            some (.array (item :: items), rest)
      else if char = '{' then
        match depth with
        | 0 => none
        | depth + 1 => match skipSpace rest with
          | '}' :: rest => some (.object [], rest)
          | rest => do
            let (member, rest) ← readMember fuel depth rest
            let (members, rest) ← readMembers fuel depth rest
            some (.object (member :: members), rest)
      else if char = 'n' then match rest with
        | 'u' :: 'l' :: 'l' :: rest => some (.null, rest)
        | _ => none
      else if char = 't' then match rest with
        | 'r' :: 'u' :: 'e' :: rest => some (.bool true, rest)
        | _ => none
      else if char = 'f' then match rest with
        | 'a' :: 'l' :: 's' :: 'e' :: rest => some (.bool false, rest)
        | _ => none
      else readNumber (char :: rest)
termination_by structural fuel => fuel

/-- The items after one item, up to the closing bracket. -/
def readItems : Nat → Nat → List Char → Option (List Json × List Char)
  | 0, _, _ => none
  | fuel + 1, depth, input =>
    match skipSpace input with
    | ']' :: rest => some ([], rest)
    | ',' :: rest => do
      let (item, rest) ← readValue fuel depth rest
      let (items, rest) ← readItems fuel depth rest
      some (item :: items, rest)
    | _ => none
termination_by structural fuel => fuel

/-- One member: a string, a colon, a value. -/
def readMember : Nat → Nat → List Char → Option ((String × Json) × List Char)
  | 0, _, _ => none
  | fuel + 1, depth, input =>
    match skipSpace input with
    | '"' :: rest => do
      let (name, rest) ← readBody fuel rest
      match skipSpace rest with
      | ':' :: rest => do
        let (value, rest) ← readValue fuel depth rest
        some ((String.ofList name, value), rest)
      | _ => none
    | _ => none
termination_by structural fuel => fuel

/-- The members after one member, up to the closing brace. -/
def readMembers : Nat → Nat → List Char → Option (List (String × Json) × List Char)
  | 0, _, _ => none
  | fuel + 1, depth, input =>
    match skipSpace input with
    | '}' :: rest => some ([], rest)
    | ',' :: rest => do
      let (member, rest) ← readMember fuel depth rest
      let (members, rest) ← readMembers fuel depth rest
      some (member :: members, rest)
    | _ => none
termination_by structural fuel => fuel

end

/-- A whole text: one value with nothing but white space after it. -/
def parse (maxDepth : Nat) (source : String) : Option Json :=
  match readValue (source.toList.length + 1) maxDepth source.toList with
  | some (value, rest) => if skipSpace rest = [] then some value else none
  | none => none

end Json
