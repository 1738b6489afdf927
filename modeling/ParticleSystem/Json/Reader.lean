import ParticleSystem.Json.Basic

/-!
The reader of JSON texts, as strict as the standard: no trailing commas, no comments, nothing behind
the document. Recursion is bounded by the length of the text, of which every step uses up a
character or opens a value that will.
-/

namespace ParticleSystem.Json

def isSpace (c : Char) : Bool := c = ' ' ∨ c = '\t' ∨ c = '\n' ∨ c = '\r'

def skipSpace (text : List Char) : List Char := text.dropWhile isSpace

/-- The rest of a text behind a word at its start. -/
def dropWord? : (word text : List Char) → Option (List Char)
  | [], text => some text
  | _ :: _, [] => none
  | w :: word, c :: text => if w = c then dropWord? word text else none

def hexDigit? (c : Char) : Option Nat :=
  if '0' ≤ c ∧ c ≤ '9' then some (c.toNat - 48)
  else if 'a' ≤ c ∧ c ≤ 'f' then some (c.toNat - 87)
  else if 'A' ≤ c ∧ c ≤ 'F' then some (c.toNat - 55)
  else none

/-- The code unit that four hexadecimal digits spell. -/
def codeUnit? (a b c d : Char) : Option Nat := do
  return (((← hexDigit? a) * 16 + (← hexDigit? b)) * 16 + (← hexDigit? c)) * 16 + (← hexDigit? d)

def isHighSurrogate (u : Nat) : Bool := 0xD800 ≤ u ∧ u < 0xDC00

def isLowSurrogate (u : Nat) : Bool := 0xDC00 ≤ u ∧ u < 0xE000

/-- The code unit of an escape at the start of a text, and the rest. -/
def escapedUnit? : List Char → Option (Nat × List Char)
  | '\\' :: 'u' :: a :: b :: c :: d :: rest => (codeUnit? a b c d).map (·, rest)
  | _ => none

/-- The character that a one-letter escape stands for. -/
def letterEscape? : Char → Option Char
  | '"' => some '"'
  | '\\' => some '\\'
  | '/' => some '/'
  | 'b' => some '\x08'
  | 'f' => some '\x0c'
  | 'n' => some '\n'
  | 'r' => some '\r'
  | 't' => some '\t'
  | _ => none

/-- What one character or escape inside a string spells, and the rest of the text. -/
inductive StringStep
  | char (c : Char) (rest : List Char)
  /-- An escaped surrogate without its other half. -/
  | unpaired (rest : List Char)
  | close (rest : List Char)
  | malformed

def stringStep (text : List Char) : StringStep :=
  match text with
  | [] => .malformed
  | '"' :: rest => .close rest
  | '\\' :: 'u' :: rest =>
    match escapedUnit? ('\\' :: 'u' :: rest) with
    | none => .malformed
    | some (unit, rest) =>
      if isHighSurrogate unit then
        match escapedUnit? rest with
        | some (low, after) =>
          if isLowSurrogate low then
            .char (Char.ofNat (0x10000 + (unit - 0xD800) * 0x400 + (low - 0xDC00))) after
          else .unpaired rest
        | none => .unpaired rest
      else if isLowSurrogate unit then .unpaired rest
      else .char (Char.ofNat unit) rest
  | '\\' :: c :: rest =>
    match letterEscape? c with
    | some c => .char c rest
    | none => .malformed
  | c :: rest => if c.toNat < 32 ∨ c = '\\' then .malformed else .char c rest

/-- The rest of a string behind its opening quote: its characters, none when
a surrogate is unpaired, and the text behind the closing quote. `done` holds
the characters read so far, last first. -/
def readString :
    (fuel : Nat) → (done : Option (List Char)) → List Char → Option (Option String × List Char)
  | 0, _, _ => none
  | fuel + 1, done, text =>
    match stringStep text with
    | .char c rest => readString fuel (done.map (c :: ·)) rest
    | .unpaired rest => readString fuel none rest
    | .close rest => some (done.map fun cs => .ofList cs.reverse, rest)
    | .malformed => none

def readQuoted? (fuel : Nat) : List Char → Option (Option String × List Char)
  | '"' :: rest => readString fuel (some []) rest
  | _ => none

/-- Puts a member before those of an object; an unreadable key makes the object unreadable. -/
def addMember (key : Option String) (value : Json) : Json → Json
  | .object members =>
    match key with
    | some key => .object ((key, value) :: members)
    | none => .unreadable
  | other => other

mutual

/-- A value at the start of a text without leading space. -/
def readValue : (fuel : Nat) → List Char → Option (Json × List Char)
  | 0, _ => none
  | fuel + 1, text =>
    match text with
    | [] => none
    | '"' :: rest => do
      let (text, rest) ← readQuoted? (fuel + 1) ('"' :: rest)
      return (match text with | some text => .string text | none => .unreadable, rest)
    | '[' :: rest =>
      match skipSpace rest with
      | ']' :: rest => some (.array [], rest)
      | rest => do
        let (items, rest) ← readItems fuel rest
        return (.array items, rest)
    | '\x7b' :: rest =>
      match skipSpace rest with
      | '\x7d' :: rest => some (.object [], rest)
      | rest => readMembers fuel rest
    | 'n' :: _ => (dropWord? ['n', 'u', 'l', 'l'] text).map (.null, ·)
    | 't' :: _ => (dropWord? ['t', 'r', 'u', 'e'] text).map (.bool true, ·)
    | 'f' :: _ => (dropWord? ['f', 'a', 'l', 's', 'e'] text).map (.bool false, ·)
    | _ => do
      let (numeral, rest) ← Numeral.scan? text
      return (.number numeral, rest)

/-- The items of an array up to its closing bracket. -/
def readItems : (fuel : Nat) → List Char → Option (List Json × List Char)
  | 0, _ => none
  | fuel + 1, text => do
    let (item, rest) ← readValue fuel text
    match skipSpace rest with
    | ']' :: rest => return ([item], rest)
    | ',' :: rest =>
      let (items, rest) ← readItems fuel (skipSpace rest)
      return (item :: items, rest)
    | _ => none

/-- The members of an object up to its closing brace, as an object. -/
def readMembers : (fuel : Nat) → List Char → Option (Json × List Char)
  | 0, _ => none
  | fuel + 1, text => do
    let (key, rest) ← readQuoted? (fuel + 1) text
    match skipSpace rest with
    | ':' :: rest =>
      let (value, rest) ← readValue fuel (skipSpace rest)
      match skipSpace rest with
      | '\x7d' :: rest => return (addMember key value (.object []), rest)
      | ',' :: rest =>
        let (others, rest) ← readMembers fuel (skipSpace rest)
        return (addMember key value others, rest)
      | _ => none
    | _ => none

end

def ofText? (text : String) : Option Json :=
  let chars := text.toList
  match readValue (2 * chars.length + 2) (skipSpace chars) with
  | some (value, rest) => if (skipSpace rest).isEmpty then some value else none
  | none => none

end ParticleSystem.Json
