namespace ParticleSystem

abbrev Digit := Fin 10

namespace Digit

def zero : Digit := ⟨0, by decide⟩

def toChar (d : Digit) : Char := Char.ofNat (48 + d)

def ofChar? (c : Char) : Option Digit :=
  if h : 48 ≤ c.toNat ∧ c.toNat ≤ 57 then some ⟨c.toNat - 48, by omega⟩ else none

def ofNat (n : Nat) : List Digit :=
  if n < 10 then [Fin.ofNat 10 n] else ofNat (n / 10) ++ [Fin.ofNat 10 n]
  termination_by n
  decreasing_by omega

def value (digits : List Digit) : Nat :=
  digits.foldl (fun (n : Nat) (d : Digit) => 10 * n + d.val) 0

/-- Digits at the start of a text, and the rest of it. -/
def scan : List Char → List Digit × List Char
  | [] => ([], [])
  | c :: rest =>
    match ofChar? c with
    | some d =>
      let (digits, rest) := scan rest
      (d :: digits, rest)
    | none => ([], c :: rest)

end Digit

structure Exponent where
  negative : Bool
  digits : List Digit
  deriving BEq, DecidableEq, Repr

structure Numeral where
  negative : Bool
  whole : List Digit
  fraction : List Digit
  exponent : Option Exponent
  deriving BEq, DecidableEq, Repr

namespace Numeral

def ofNat (n : Nat) : Numeral := ⟨false, Digit.ofNat n, [], none⟩

/-- Whether it is written without point and power. -/
def isInteger (n : Numeral) : Bool := n.fraction.isEmpty && n.exponent.isNone

/-- The text: no point without digits behind it, the sign of a power always shown. -/
def text (n : Numeral) : List Char :=
  (if n.negative then ['-'] else []) ++ n.whole.map Digit.toChar ++
    (if n.fraction.isEmpty then [] else '.' :: n.fraction.map Digit.toChar) ++
    match n.exponent with
    | none => []
    | some e => 'e' :: (if e.negative then '-' else '+') :: e.digits.map Digit.toChar

def scanDigits? (text : List Char) : Option (List Digit × List Char) :=
  match Digit.scan text with
  | ([], _) => none
  | found => some found

/-- Digits that do not start with a zero, or one zero. -/
def scanWhole? (text : List Char) : Option (List Digit × List Char) := do
  let (digits, rest) ← scanDigits? text
  if digits.head? = some .zero ∧ digits ≠ [.zero] then none else some (digits, rest)

def scanFraction? : List Char → Option (List Digit × List Char)
  | '.' :: rest => scanDigits? rest
  | rest => some ([], rest)

def scanPower? (negative : Bool) (text : List Char) : Option (Option Exponent × List Char) := do
  let (digits, rest) ← scanDigits? text
  return (some ⟨negative, digits⟩, rest)

def scanExponent? : List Char → Option (Option Exponent × List Char)
  | c :: rest =>
    if c = 'e' ∨ c = 'E' then
      match rest with
      | '+' :: rest => scanPower? false rest
      | '-' :: rest => scanPower? true rest
      | rest => scanPower? false rest
    else some (none, c :: rest)
  | [] => some (none, [])

/-- The numeral behind an optional sign. -/
def scanUnsigned? (negative : Bool) (text : List Char) : Option (Numeral × List Char) := do
  let (whole, rest) ← scanWhole? text
  let (fraction, rest) ← scanFraction? rest
  let (exponent, rest) ← scanExponent? rest
  return (⟨negative, whole, fraction, exponent⟩, rest)

/-- The numeral at the start of a text, and the rest of it. -/
def scan? : List Char → Option (Numeral × List Char)
  | '-' :: rest => scanUnsigned? true rest
  | text => scanUnsigned? false text

end Numeral

end ParticleSystem
