import ParticleSystem.Decimal.Layout
import ParticleSystem.Decimal.Reading
import Mathlib.Data.List.Basic

namespace ParticleSystem

namespace Digit

private theorem ofChar?_toChar (d : Digit) : ofChar? (toChar d) = some d := by
  revert d
  decide

theorem ofNat_ne_nil (n : Nat) : ofNat n ≠ [] := by
  rw [ofNat]
  split <;> simp

theorem value_ofNat (n : Nat) : value (ofNat n) = n := by
  fun_induction ofNat n with
  | case1 n small => simp [value, Nat.mod_eq_of_lt small]
  | case2 n large ih =>
    unfold value at ih ⊢
    rw [List.foldl_append, ih]
    simp only [List.foldl_cons, List.foldl_nil, Fin.val_ofNat]
    omega

/-- Only zero itself is written with a zero in front. -/
theorem head?_ofNat {n : Nat} (positive : 0 < n) : (ofNat n).head? ≠ some .zero := by
  fun_induction ofNat n with
  | case1 n small =>
    intro lead
    have same := congrArg Fin.val (Option.some.inj lead)
    simp [zero] at same
    omega
  | case2 n large ih =>
    rw [List.head?_append_of_ne_nil _ (ofNat_ne_nil _)]
    exact ih (by omega)

theorem scan_append (digits : List Digit) {rest : List Char}
    (stop : ∀ c ∈ rest.head?, ofChar? c = none) :
    scan (digits.map toChar ++ rest) = (digits, rest) := by
  induction digits with
  | nil =>
    cases rest with
    | nil => rfl
    | cons c rest => simp [scan, stop c (by simp)]
  | cons d digits ih => simp [scan, ofChar?_toChar, ih]

end Digit

namespace Numeral

/-- At least one digit before the point and in a power, and no zero in front of other digits. -/
structure WellFormed (n : Numeral) : Prop where
  whole_some : n.whole ≠ []
  whole_lead : n.whole.head? = some .zero → n.whole = [.zero]
  exponent_some : ∀ e, n.exponent = some e → e.digits ≠ []

/-- Whether a text does not continue a numeral in front of it. -/
def Stops (rest : List Char) : Prop :=
  ∀ c ∈ rest.head?, Digit.ofChar? c = none ∧ c ≠ '.' ∧ c ≠ 'e' ∧ c ≠ 'E'

theorem Stops.nil : Stops [] := by
  simp [Stops]

theorem Stops.cons {c : Char} (digit : Digit.ofChar? c = none) (point : c ≠ '.') (small : c ≠ 'e')
    (large : c ≠ 'E') (rest : List Char) : Stops (c :: rest) := by
  intro first head
  obtain rfl : c = first := by simpa using head
  exact ⟨digit, point, small, large⟩

section Scan

variable {rest : List Char}

theorem scanDigits?_append {digits : List Digit} (some : digits ≠ [])
    (stop : ∀ c ∈ rest.head?, Digit.ofChar? c = none) :
    scanDigits? (digits.map Digit.toChar ++ rest) = .some (digits, rest) := by
  rw [scanDigits?, Digit.scan_append digits stop]
  cases digits with
  | nil => exact absurd rfl some
  | cons d digits => rfl

private theorem scanWhole?_append {n : Numeral} (wellFormed : n.WellFormed)
    (stop : ∀ c ∈ rest.head?, Digit.ofChar? c = none) :
    scanWhole? (n.whole.map Digit.toChar ++ rest) = some (n.whole, rest) := by
  have lead : ¬(n.whole.head? = some .zero ∧ n.whole ≠ [.zero]) := fun both =>
    both.2 (wellFormed.whole_lead both.1)
  simp only [scanWhole?, scanDigits?_append wellFormed.whole_some stop, bind,
    Option.bind, if_neg lead]

/-- How the digits behind a point are written. -/
def fractionText (n : Numeral) : List Char :=
  if n.fraction.isEmpty then [] else '.' :: n.fraction.map Digit.toChar

/-- How a power of ten is written. -/
def exponentText (n : Numeral) : List Char :=
  match n.exponent with
  | none => []
  | some e => 'e' :: (if e.negative then '-' else '+') :: e.digits.map Digit.toChar

theorem text_eq (n : Numeral) : n.text =
    (if n.negative then ['-'] else []) ++
      (n.whole.map Digit.toChar ++ (n.fractionText ++ n.exponentText)) := by
  simp only [text, List.append_assoc]
  rfl

private theorem scanExponent?_append {n : Numeral} (wellFormed : n.WellFormed)
    (stops : Stops rest) : scanExponent? (n.exponentText ++ rest) = some (n.exponent, rest) := by
  have stop (c : Char) (head : c ∈ rest.head?) : Digit.ofChar? c = none := (stops c head).1
  unfold exponentText
  split
  · rename_i none
    rw [none]
    cases rest with
    | nil => rfl
    | cons c rest =>
      obtain ⟨-, -, small, large⟩ := stops c (by simp)
      simp [scanExponent?, small, large]
  · rename_i e found
    rw [found]
    have digits := scanDigits?_append (wellFormed.exponent_some e found) stop
    obtain ⟨negative, spelled⟩ := e
    cases negative <;> simp [scanExponent?, scanPower?, digits]

theorem head?_exponentText (n : Numeral) (stops : Stops rest) (c : Char)
    (head : c ∈ (n.exponentText ++ rest).head?) : Digit.ofChar? c = none ∧ c ≠ '.' := by
  unfold exponentText at head
  split at head
  · exact ⟨(stops c head).1, (stops c head).2.1⟩
  · obtain rfl : 'e' = c := by simpa using head
    decide

private theorem scanFraction?_append {n : Numeral} (stops : Stops rest) :
    scanFraction? (n.fractionText ++ (n.exponentText ++ rest)) =
      some (n.fraction, n.exponentText ++ rest) := by
  have behind := n.head?_exponentText stops
  generalize n.exponentText ++ rest = text at behind
  unfold fractionText
  split
  · rename_i none
    rw [List.isEmpty_iff.mp none]
    cases text with
    | nil => rfl
    | cons c text =>
      have point := (behind c (by simp)).2
      rw [List.nil_append, scanFraction?]
      intro others same
      exact point (List.cons.inj same).1
  · rename_i some
    rw [List.isEmpty_iff] at some
    exact scanDigits?_append some fun c head => (behind c head).1

private theorem head?_fractionText (n : Numeral) (stops : Stops rest) (c : Char)
    (head : c ∈ (n.fractionText ++ (n.exponentText ++ rest)).head?) : Digit.ofChar? c = none := by
  unfold fractionText at head
  split at head
  · exact (n.head?_exponentText stops c head).1
  · obtain rfl : '.' = c := by simpa using head
    decide

private theorem scanUnsigned?_append {n : Numeral} (wellFormed : n.WellFormed)
    (stops : Stops rest) :
    scanUnsigned? n.negative
      (n.whole.map Digit.toChar ++ (n.fractionText ++ (n.exponentText ++ rest))) =
      some (n, rest) := by
  simp only [scanUnsigned?, scanWhole?_append wellFormed (n.head?_fractionText stops),
    scanFraction?_append stops, scanExponent?_append wellFormed stops, bind, Option.bind]
  rfl

theorem exists_whole_cons {n : Numeral} (wellFormed : n.WellFormed) (behind : List Char) :
    ∃ d text, n.whole.map Digit.toChar ++ behind = Digit.toChar d :: text := by
  cases whole : n.whole with
  | nil => exact absurd whole wellFormed.whole_some
  | cons d digits => exact ⟨d, _, rfl⟩

private theorem toChar_ne_minus (d : Digit) : Digit.toChar d ≠ '-' := by
  revert d
  decide

/-- A well-formed numeral is scanned back from its text. -/
theorem scan?_append {n : Numeral} (wellFormed : n.WellFormed) (stops : Stops rest) :
    scan? (n.text ++ rest) = some (n, rest) := by
  have unsigned := scanUnsigned?_append wellFormed stops
  rw [text_eq]
  simp only [List.append_assoc]
  cases sign : n.negative with
  | true =>
    rw [sign] at unsigned
    exact unsigned
  | false =>
    rw [sign] at unsigned
    obtain ⟨d, text, first⟩ :=
      exists_whole_cons wellFormed (n.fractionText ++ (n.exponentText ++ rest))
    rw [if_neg Bool.false_ne_true, List.nil_append, first, scan?]
    · rw [← first]
      exact unsigned
    · intro others same
      exact toChar_ne_minus d (List.cons.inj same).1

/-- The first character of a numeral is a digit or a minus. -/
theorem exists_text_cons {n : Numeral} (wellFormed : n.WellFormed) :
    ∃ c text, n.text = c :: text ∧ (c = '-' ∨ ∃ d, c = Digit.toChar d) := by
  rw [text_eq]
  obtain ⟨d, text, first⟩ := exists_whole_cons wellFormed (n.fractionText ++ n.exponentText)
  rw [first]
  cases n.negative with
  | true => exact ⟨'-', _, rfl, .inl rfl⟩
  | false => exact ⟨Digit.toChar d, text, rfl, .inr ⟨d, rfl⟩⟩

end Scan

theorem wellFormed_ofNat (n : Nat) : (ofNat n).WellFormed where
  whole_some := Digit.ofNat_ne_nil n
  whole_lead := by
    intro lead
    rcases Nat.eq_zero_or_pos n with rfl | positive
    · rw [ofNat, Digit.ofNat]
      rfl
    · exact absurd lead (Digit.head?_ofNat positive)
  exponent_some := by
    intro e found
    cases found

theorem toNatBelow?_ofNat {n limit : Nat} (below : n < limit) :
    (ofNat n).toNatBelow? limit = some n := by
  simp [toNatBelow?, ofNat, isInteger, Digit.value_ofNat, below]

end Numeral

namespace Decimal

private theorem head?_splitAt {digits : List Digit} (some : digits ≠ []) (places : Int) :
    (splitAt digits places).1 ≠ [] ∧ ((splitAt digits places).1 = [.zero] ∨
      0 < places ∧ (splitAt digits places).1.head? = digits.head?) := by
  unfold splitAt
  split
  · exact ⟨List.cons_ne_nil _ _, .inl rfl⟩
  · rename_i positive
    obtain ⟨count, same⟩ : ∃ count, places.toNat = count + 1 := ⟨places.toNat - 1, by omega⟩
    cases digits with
    | nil => exact absurd rfl some
    | cons d digits =>
      rw [same, List.take_succ_cons]
      exact ⟨List.cons_ne_nil _ _, .inr ⟨by omega, rfl⟩⟩

private theorem digits_zero : Digit.ofNat 0 = [.zero] := by
  rw [Digit.ofNat]
  rfl

/-- A positive coefficient is laid out without a zero in front of others,
and so is zero times a power up to 10⁰. -/
theorem Layout.wellFormed_numeral (l : Layout) (negative : Bool) {coefficient : Nat} {power : Int}
    (regular : 0 < coefficient ∨ power ≤ 0) :
    (l.numeral negative coefficient power).WellFormed := by
  have digits := Digit.ofNat_ne_nil coefficient
  unfold Layout.numeral
  simp only
  split
  · obtain ⟨some, lead⟩ := head?_splitAt digits (power + (Digit.ofNat coefficient).length - 1 + 1)
    refine ⟨some, fun zero => ?_, fun e found => by cases found⟩
    rcases lead with alone | ⟨positive, same⟩
    · exact alone
    · simp only at zero
      rw [same] at zero
      rcases Nat.eq_zero_or_pos coefficient with rfl | large
      · -- Zero has one digit, and it stands before the point alone.
        have small : power ≤ 0 := regular.resolve_left (Nat.lt_irrefl 0)
        rw [digits_zero] at positive ⊢
        simp only [List.length_singleton] at positive ⊢
        obtain rfl : power = 0 := by omega
        rfl
      · exact absurd zero (Digit.head?_ofNat large)
  · refine ⟨by simpa using digits, fun zero => ?_, fun e found => ?_⟩
    · simp only at zero ⊢
      cases spelled : Digit.ofNat coefficient with
      | nil => exact absurd spelled digits
      | cons d rest =>
        rw [spelled] at zero
        rw [List.take_succ_cons, List.take_zero, Option.some.inj zero]
    · obtain rfl := Option.some.inj found
      exact Digit.ofNat_ne_nil _

namespace Bracket

theorem holds_pos {b : Bracket} {n : Nat} (positive : 0 < b.low) (holds : b.holds n = true) :
    0 < n := by
  rw [Nat.pos_iff_ne_zero]
  rintro rfl
  unfold Bracket.holds at holds
  split at holds
  · simp at holds
    omega
  · simp at holds

private theorem le_nearest (tie : Tie) (value denominator : Nat) :
    value / denominator ≤ nearest tie value denominator := by
  unfold nearest
  simp only
  split
  · exact Nat.le_refl _
  · split
    · exact Nat.le_succ _
    · split
      · exact Nat.le_add_right ..
      · exact Nat.le_succ _

private theorem onGrid?_pos {tie : Tie} {b : Bracket} {coefficient : Nat} (positive : 0 < b.low)
    (found : onGrid? tie b = some coefficient) : 0 < coefficient := by
  unfold onGrid? at found
  simp only at found
  split at found
  · rename_i floor _
    obtain rfl := Option.some.inj found
    exact Nat.lt_of_lt_of_le (holds_pos positive floor) (le_nearest ..)
  · rename_i floor _
    obtain rfl := Option.some.inj found
    exact holds_pos positive floor
  · obtain rfl := Option.some.inj found
    exact Nat.succ_pos _
  · cases found

private theorem low_inUnits_pos {b : Bracket} (positive : 0 < b.low) (power : Int) :
    0 < (b.inUnits power).low :=
  Nat.mul_pos positive (Nat.pow_pos (by decide))

private theorem low_of_pos (bits : Nat) (minExponent : Int) {mantissa : Nat}
    (positive : 0 < mantissa) (exponent : Int) :
    0 < (of bits minExponent mantissa exponent).low := by
  refine Nat.mul_pos ?_ (Nat.pow_pos (by decide))
  split <;> omega

/-- The grids that are tried have a point above zero, or all of them are passed. -/
theorem shortest_pos (tie : Tie) {b : Bracket} (positive : 0 < b.low) (grids : Nat) (power : Int) :
    0 < (shortest tie b grids power).1 ∨ (shortest tie b grids power).2 = power - grids := by
  induction grids generalizing power with
  | zero => exact .inr (by simp [shortest])
  | succ grids ih =>
    rw [shortest]
    cases found : onGrid? tie (b.inUnits power) with
    | some coefficient => exact .inl (onGrid?_pos (low_inUnits_pos positive power) found)
    | none =>
      rcases ih (power - 1) with some | past
      · exact .inl some
      · refine .inr (past.trans ?_)
        push_cast
        omega

end Bracket

theorem shortest_regular {tie : Tie} {x : Float32} {negative : Bool} {coefficient : Nat}
    {power : Int} (found : shortest tie x = .finite negative coefficient power) :
    0 < coefficient ∨ power ≤ 0 := by
  unfold shortest at found
  split at found
  · rename_i mantissa exponent positive _
    have regular := Bracket.shortest_pos tie (Bracket.low_of_pos 24 (-149) positive exponent) 86 39
    simp only [Shape.finite.injEq] at found
    obtain ⟨-, rfl, rfl⟩ := found
    omega
  · cases found
    exact .inr (Int.le_refl 0)
  · cases found
  · cases found

theorem wellFormed_jsonNumeral {x : Float32} {numeral : Numeral}
    (written : jsonNumeral? x = some numeral) : numeral.WellFormed := by
  unfold jsonNumeral? at written
  split at written
  · rename_i found
    obtain rfl := Option.some.inj written
    exact Layout.wellFormed_numeral _ _ (shortest_regular found)
  · cases written

theorem jsonNumeral?_isSome (x : Float32) : (jsonNumeral? x).isSome = x.isFinite := by
  have shape : x.isFinite = (Single.unpack x).isFinite := rfl
  rw [shape]
  unfold jsonNumeral? shortest
  cases Single.unpack x <;> rfl

end Decimal

end ParticleSystem
