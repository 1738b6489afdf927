import ParticleSystem.Json.Basic

namespace ParticleSystem.Json

def hexChar (n : Nat) : Char := Char.ofNat (if n < 10 then 48 + n else 87 + n)

/-- A character inside a string. -/
def escapeChar (c : Char) : List Char :=
  match c with
  | '"' => ['\\', '"']
  | '\\' => ['\\', '\\']
  | '\n' => ['\\', 'n']
  | '\r' => ['\\', 'r']
  | '\t' => ['\\', 't']
  | '\x08' => ['\\', 'b']
  | '\x0c' => ['\\', 'f']
  | c =>
    if c.toNat < 32 then ['\\', 'u', '0', '0', hexChar (c.toNat / 16), hexChar (c.toNat % 16)]
      else [c]

def quoted (text : String) : List Char := '"' :: text.toList.flatMap escapeChar ++ ['"']

/-- The words for what has no parts. -/
def leaf : Json → List Char
  | .bool true => ['t', 'r', 'u', 'e']
  | .bool false => ['f', 'a', 'l', 's', 'e']
  | .number numeral => numeral.text
  | .string text => quoted text
  | _ => ['n', 'u', 'l', 'l']

/-- What stands between the parts of a document. -/
structure Style where
  /-- Before an item or a closing bracket, by depth. -/
  newline : Nat → List Char
  /-- Between a key and its value. -/
  colon : List Char

def Style.compact : Style := ⟨fun _ => [], [':']⟩

/-- Two spaces for each level. -/
def Style.pretty : Style := ⟨fun depth => '\n' :: List.replicate (2 * depth) ' ', [':', ' ']⟩

mutual

/-- The text of a value at a depth of nesting. -/
def write (style : Style) (depth : Nat) : Json → List Char
  | .array [] => ['[', ']']
  | .array (item :: rest) =>
    '[' :: style.newline (depth + 1) ++ write style (depth + 1) item ++
      writeItems style (depth + 1) rest ++ style.newline depth ++ [']']
  | .object [] => ['\x7b', '\x7d']
  | .object ((key, value) :: rest) =>
    '\x7b' :: style.newline (depth + 1) ++ quoted key ++ style.colon ++
      write style (depth + 1) value ++
      writeMembers style (depth + 1) rest ++ style.newline depth ++ ['\x7d']
  | other => leaf other

/-- The items behind the first. -/
def writeItems (style : Style) (depth : Nat) : List Json → List Char
  | [] => []
  | item :: rest =>
    ',' :: style.newline depth ++ write style depth item ++ writeItems style depth rest

/-- The members behind the first. -/
def writeMembers (style : Style) (depth : Nat) : List (String × Json) → List Char
  | [] => []
  | (key, value) :: rest =>
    ',' :: style.newline depth ++ quoted key ++ style.colon ++ write style depth value ++
      writeMembers style depth rest

end

def compact (j : Json) : String := .ofList (write .compact 0 j)

def pretty (j : Json) : String := .ofList (write .pretty 0 j)

end ParticleSystem.Json
