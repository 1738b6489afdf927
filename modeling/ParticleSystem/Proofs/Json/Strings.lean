import ParticleSystem.Json.Reader
import ParticleSystem.Json.Writer

namespace ParticleSystem.Json

theorem hexDigit?_hexChar {n : Nat} (small : n < 16) : hexDigit? (hexChar n) = some n := by
  have each : ∀ n : Fin 16, hexDigit? (hexChar n.val) = some n.val := by decide
  exact each ⟨n, small⟩

theorem codeUnit?_hexChars {n : Nat} (control : n < 32) :
    codeUnit? '0' '0' (hexChar (n / 16)) (hexChar (n % 16)) = some n := by
  have zero : hexDigit? '0' = some 0 := by decide
  have high := hexDigit?_hexChar (n := n / 16) (by omega)
  have low := hexDigit?_hexChar (n := n % 16) (by omega)
  simp only [codeUnit?, zero, high, low, bind, Option.bind, pure, Option.some.injEq]
  omega

private theorem escapeChar_ne_nil (c : Char) : escapeChar c ≠ [] := by
  unfold escapeChar
  split
  all_goals try split
  all_goals exact List.cons_ne_nil _ _

private theorem stringStep_escapeChar (c : Char) (rest : List Char) :
    stringStep (escapeChar c ++ rest) = .char c rest := by
  unfold escapeChar
  split
  any_goals rfl
  rename_i quote slash _ _ _ _ _
  by_cases control : c.toNat < 32
  · have spelled := codeUnit?_hexChars control
    have high : isHighSurrogate c.toNat = false := by
      simp only [isHighSurrogate, decide_eq_false_iff_not]
      omega
    have low : isLowSurrogate c.toNat = false := by
      simp only [isLowSurrogate, decide_eq_false_iff_not]
      omega
    simp only [if_pos control, List.cons_append, List.nil_append, stringStep, escapedUnit?, spelled,
      Option.map_some, high, low, Bool.false_eq_true, if_false, Char.ofNat_toNat]
  · rw [if_neg control, List.singleton_append]
    have plain : ¬(c.toNat < 32 ∨ c = '\\') := fun either => either.elim control slash
    unfold stringStep
    split
    · rename_i none
      cases none
    · rename_i same
      exact absurd (List.cons.inj same).1 quote
    · rename_i same
      exact absurd (List.cons.inj same).1 slash
    · rename_i same
      exact absurd (List.cons.inj same).1 slash
    · rename_i same
      obtain ⟨rfl, rfl⟩ := List.cons.inj same
      rw [if_neg plain]

/-- The characters of a string are read back up to its closing quote. -/
theorem readString_escaped (characters done rest : List Char) (fuel : Nat)
    (enough : characters.length < fuel) :
    readString fuel (some done) (characters.flatMap escapeChar ++ '"' :: rest) =
      some (some (.ofList (done.reverse ++ characters)), rest) := by
  induction characters generalizing done fuel with
  | nil =>
    obtain ⟨fuel, rfl⟩ : ∃ n, fuel = n + 1 := ⟨fuel - 1, by omega⟩
    simp [readString, stringStep]
  | cons c characters ih =>
    obtain ⟨fuel, rfl⟩ : ∃ n, fuel = n + 1 := ⟨fuel - 1, by omega⟩
    rw [List.length_cons] at enough
    rw [List.flatMap_cons, List.append_assoc, readString, stringStep_escapeChar]
    simp only [Option.map_some]
    rw [ih (c :: done) fuel (by omega), List.reverse_cons, List.append_assoc, List.singleton_append]

private theorem length_le_escaped (characters : List Char) :
    characters.length ≤ (characters.flatMap escapeChar).length := by
  induction characters with
  | nil => exact Nat.le_refl 0
  | cons c characters ih =>
    have some := List.length_pos_iff.mpr (escapeChar_ne_nil c)
    rw [List.flatMap_cons, List.length_append, List.length_cons]
    omega

private theorem length_lt_quoted (text : String) :
    text.toList.length + 1 < (quoted text).length := by
  have escaped := length_le_escaped text.toList
  simp only [quoted, List.length_cons, List.length_append, List.length_nil]
  omega

theorem readQuoted?_quoted (text : String) (rest : List Char) (fuel : Nat)
    (enough : (quoted text).length ≤ fuel) :
    readQuoted? fuel (quoted text ++ rest) = some (some text, rest) := by
  have longer := length_lt_quoted text
  have read := readString_escaped text.toList [] rest fuel (by omega)
  rw [List.reverse_nil, List.nil_append, String.ofList_toList] at read
  simp only [quoted, List.cons_append, List.append_assoc, List.nil_append, readQuoted?]
  exact read

end ParticleSystem.Json
