import ParticleSystem.Proofs.Decimal.Writing
import ParticleSystem.Proofs.Json.Strings

/-!
Documents as they are written, compact or with space around their parts. The reader gives back every
value whose numerals are well formed, and no text of a value runs into what stands behind it.
-/

namespace ParticleSystem.Json

mutual

/-- Whether all numerals in a value are well formed and all its strings can be read. -/
def legible : Json → Prop
  | .number numeral => numeral.WellFormed
  | .array items => legibleItems items
  | .object members => legibleMembers members
  | .unreadable => False
  | _ => True

def legibleItems : List Json → Prop
  | [] => True
  | item :: rest => legible item ∧ legibleItems rest

def legibleMembers : List (String × Json) → Prop
  | [] => True
  | (_, value) :: rest => legible value ∧ legibleMembers rest

end

/-- Whether there is only space around the parts of a document. -/
structure Style.Blank (style : Style) : Prop where
  newline_blank : ∀ depth, ∀ c ∈ style.newline depth, isSpace c = true
  colon_blank : ∃ space, style.colon = ':' :: space ∧ ∀ c ∈ space, isSpace c = true

theorem Style.blank_compact : Style.compact.Blank where
  newline_blank := by simp [compact]
  colon_blank := ⟨[], rfl, by simp⟩

theorem Style.blank_pretty : Style.pretty.Blank where
  newline_blank := by
    intro depth c member
    rcases List.mem_cons.mp member with rfl | indent
    · rfl
    · rw [List.eq_of_mem_replicate indent]
      rfl
  colon_blank := by
    refine ⟨[' '], rfl, fun c member => ?_⟩
    rw [List.mem_singleton.mp member]
    rfl

section Space

variable {space : List Char}

theorem skipSpace_append (blank : ∀ c ∈ space, isSpace c = true) (rest : List Char) :
    skipSpace (space ++ rest) = skipSpace rest := List.dropWhile_append_of_pos blank

theorem skipSpace_cons {c : Char} (some : isSpace c = false) (rest : List Char) :
    skipSpace (c :: rest) = c :: rest := List.dropWhile_cons_of_neg (by simp [some])

theorem skipSpace_append_cons (blank : ∀ c ∈ space, isSpace c = true) {c : Char}
    (some : isSpace c = false) (rest : List Char) : skipSpace (space ++ c :: rest) = c :: rest := by
  rw [skipSpace_append blank, skipSpace_cons some]

private theorem stops_of_isSpace {c : Char} (blank : isSpace c = true) (rest : List Char) :
    Numeral.Stops (c :: rest) := by
  have one : c = ' ' ∨ c = '\t' ∨ c = '\n' ∨ c = '\r' := by simpa [isSpace] using blank
  rcases one with rfl | rfl | rfl | rfl <;>
    exact .cons (by decide) (by decide) (by decide) (by decide) rest

private theorem stops_append (blank : ∀ c ∈ space, isSpace c = true) {rest : List Char}
    (stops : Numeral.Stops rest) : Numeral.Stops (space ++ rest) := by
  cases space with
  | nil => exact stops
  | cons c space => exact stops_of_isSpace (blank c List.mem_cons_self) _

end Space

/-- The items of an array between its brackets. -/
def itemsText (style : Style) (depth : Nat) : List Json → List Char
  | [] => []
  | item :: rest => write style depth item ++ writeItems style depth rest

/-- The members of an object between its braces. -/
def membersText (style : Style) (depth : Nat) : List (String × Json) → List Char
  | [] => []
  | (key, value) :: rest =>
    quoted key ++ style.colon ++ write style depth value ++ writeMembers style depth rest

section Parts

variable {style : Style} {depth : Nat}

private theorem writeItems_cons (item : Json) (rest : List Json) :
    writeItems style depth (item :: rest) =
      ',' :: (style.newline depth ++ itemsText style depth (item :: rest)) := by
  simp only [writeItems, itemsText, List.cons_append, List.append_assoc]

private theorem writeMembers_cons (member : String × Json) (rest : List (String × Json)) :
    writeMembers style depth (member :: rest) =
      ',' :: (style.newline depth ++ membersText style depth (member :: rest)) := by
  simp only [writeMembers, membersText, List.cons_append, List.append_assoc]

theorem write_array (item : Json) (rest : List Json) : write style depth (.array (item :: rest)) =
    '[' :: (style.newline (depth + 1) ++ (itemsText style (depth + 1) (item :: rest) ++
      (style.newline depth ++ [']']))) := by
  simp only [write, itemsText, List.cons_append, List.append_assoc]

theorem write_object (member : String × Json) (rest : List (String × Json)) :
    write style depth (.object (member :: rest)) =
      '\x7b' :: (style.newline (depth + 1) ++ (membersText style (depth + 1) (member :: rest) ++
        (style.newline depth ++ ['\x7d']))) := by
  simp only [write, membersText, List.cons_append, List.append_assoc]

theorem write_null : write style depth .null = ['n', 'u', 'l', 'l'] := rfl

theorem write_true : write style depth (.bool true) = ['t', 'r', 'u', 'e'] := rfl

theorem write_false : write style depth (.bool false) = ['f', 'a', 'l', 's', 'e'] := rfl

theorem write_number (numeral : Numeral) : write style depth (.number numeral) = numeral.text := rfl

theorem write_string (text : String) : write style depth (.string text) = quoted text := rfl

theorem write_array_nil : write style depth (.array []) = ['[', ']'] := rfl

theorem write_object_nil : write style depth (.object []) = ['\x7b', '\x7d'] := rfl

theorem toChar_apart (d : Digit) : isSpace d.toChar = false ∧ d.toChar ≠ ']' ∧ d.toChar ≠ '"' ∧
    d.toChar ≠ '[' ∧
    d.toChar ≠ '\x7b' ∧ d.toChar ≠ 'n' ∧ d.toChar ≠ 't' ∧ d.toChar ≠ 'f' := by
  revert d
  decide

/-- No text of a value begins with space or closes an array. -/
theorem exists_write_cons (style : Style) (depth : Nat) {j : Json} (legible : j.legible) :
    ∃ c text, write style depth j = c :: text ∧ isSpace c = false ∧ c ≠ ']' := by
  cases j with
  | null => exact ⟨_, _, write_null, by decide⟩
  | bool value =>
    cases value with
    | true => exact ⟨_, _, write_true, by decide⟩
    | false => exact ⟨_, _, write_false, by decide⟩
  | number numeral =>
    obtain ⟨c, text, same, first⟩ := Numeral.exists_text_cons legible
    refine ⟨c, text, (write_number numeral).trans same, ?_⟩
    rcases first with rfl | ⟨d, rfl⟩
    · decide
    · obtain ⟨space, bracket, -⟩ := toChar_apart d
      exact ⟨space, bracket⟩
  | string text => exact ⟨_, _, write_string text, by decide⟩
  | array items =>
    cases items with
    | nil => exact ⟨_, _, write_array_nil, by decide⟩
    | cons item rest => exact ⟨_, _, write_array item rest, by decide⟩
  | object members =>
    cases members with
    | nil => exact ⟨_, _, write_object_nil, by decide⟩
    | cons member rest => exact ⟨_, _, write_object member rest, by decide⟩
  | unreadable => exact legible.elim

theorem exists_itemsText_cons (style : Style) (depth : Nat) {item : Json} (legible : item.legible)
    (rest : List Json) :
    ∃ c text, itemsText style depth (item :: rest) = c :: text ∧ isSpace c = false ∧ c ≠ ']' := by
  obtain ⟨c, text, same, first⟩ := exists_write_cons style depth legible
  exact ⟨c, text ++ writeItems style depth rest, by rw [itemsText, same]; rfl, first⟩

/-- What stands behind an item or member does not continue it. -/
theorem stops_close {space : List Char} (blank : ∀ c ∈ space, isSpace c = true) {close : Char}
    (closes : close = ']' ∨ close = '\x7d') (rest :
    List Char) : Numeral.Stops (space ++ close :: rest) := by
  apply stops_append blank
  rcases closes with rfl | rfl <;> exact .cons (by decide) (by decide) (by decide) (by decide) rest

theorem stops_comma (rest : List Char) : Numeral.Stops (',' :: rest) :=
  .cons (by decide) (by decide) (by decide) (by decide) rest

end Parts

section Reading

variable {fuel : Nat} {text rest left : List Char}

private theorem readValue_array {items : List Json} {c : Char}
    (skipped : skipSpace rest = c :: text) (some : c ≠ ']') (read :
    readItems fuel (c :: text) = .some (items, left)) :
    readValue (fuel + 1) ('[' :: rest) = .some (.array items, left) := by
  simp only [readValue, skipped]
  split
  · rename_i same
    exact absurd (List.cons.inj same).1 some
  · simp [read]

private theorem readValue_object {members : List (String × Json)} {c : Char}
    (skipped : skipSpace rest = c :: text) (some : c ≠ '\x7d')
    (read : readMembers fuel (c :: text) = .some (.object members, left)) :
    readValue (fuel + 1) ('\x7b' :: rest) = .some (.object members, left) := by
  simp only [readValue, skipped]
  split
  · rename_i same
    exact absurd (List.cons.inj same).1 some
  · exact read

private theorem readValue_number {numeral : Numeral} (wellFormed : numeral.WellFormed)
    (stops : Numeral.Stops rest) :
    readValue (fuel + 1) (numeral.text ++ rest) = some (.number numeral, rest) := by
  have scanned := Numeral.scan?_append wellFormed stops
  obtain ⟨c, text, same, first⟩ := Numeral.exists_text_cons wellFormed
  rw [same, List.cons_append] at scanned ⊢
  rcases first with rfl | ⟨d, rfl⟩
  · simp [readValue, scanned]
  · obtain ⟨-, -, quote, bracket, brace, null, yes, no⟩ := toChar_apart d
    simp [readValue, quote, bracket, brace, null, yes, no, scanned]

private theorem readItems_last {item : Json} (read : readValue fuel text = some (item, rest))
    (closes : skipSpace rest = ']' :: left) : readItems (fuel + 1) text = some ([item], left) := by
  simp only [readItems, read, bind, Option.bind, closes, pure]

private theorem readItems_more {item : Json} {items : List Json} {behind : List Char}
    (read : readValue fuel text = some (item, rest)) (more : skipSpace rest = ',' :: behind)
    (others : readItems fuel (skipSpace behind) = some (items, left)) :
    readItems (fuel + 1) text = some (item :: items, left) := by
  simp only [readItems, read, bind, Option.bind, more, others, pure]

private theorem readMembers_last {key : String} {value : Json} {colon behind : List Char}
    (named : readQuoted? (fuel + 1) text = some (some key, colon))
    (colons : skipSpace colon = ':' :: behind)
    (read : readValue fuel (skipSpace behind) = some (value, rest))
    (closes : skipSpace rest = '\x7d' :: left) :
    readMembers (fuel + 1) text = some (.object [(key, value)], left) := by
  simp only [readMembers, named, bind, Option.bind, colons, read, closes, pure, addMember]

private theorem readMembers_more {key : String} {value : Json} {members : List (String × Json)}
    {colon behind after : List Char} (named : readQuoted? (fuel + 1) text = some (some key, colon))
    (colons : skipSpace colon = ':' :: behind)
    (read : readValue fuel (skipSpace behind) = some (value, rest))
    (more : skipSpace rest = ',' :: after)
    (others : readMembers fuel (skipSpace after) = some (.object members, left)) :
    readMembers (fuel + 1) text = some (.object ((key, value) :: members), left) := by
  simp only [readMembers, named, bind, Option.bind, colons, read, more, others, pure, addMember]

end Reading

theorem exists_membersText_cons (style : Style) (depth : Nat) (member : String × Json)
    (rest : List (String × Json)) :
    ∃ text, membersText style depth (member :: rest) = '"' :: text :=
  ⟨_, rfl⟩

variable {style : Style}

mutual

/-- A value is read back from its text, with fuel for each of its characters. -/
theorem readValue_write (blank : style.Blank) :
    ∀ (j : Json) (depth fuel : Nat) (rest : List Char), j.legible →
    Numeral.Stops rest → (write style depth j).length < fuel →
      readValue fuel (write style depth j ++ rest) = some (j, rest)
  | _, _, 0, _, _, _, enough => absurd enough (Nat.not_lt_zero _)
  | .null, depth, fuel + 1, rest, _, _, _ => by simp [write_null, readValue, dropWord?]
  | .bool true, depth, fuel + 1, rest, _, _, _ => by simp [write_true, readValue, dropWord?]
  | .bool false, depth, fuel + 1, rest, _, _, _ => by simp [write_false, readValue, dropWord?]
  | .number numeral, depth, fuel + 1, rest, wellFormed, stops, _ => by
    rw [write_number]
    exact readValue_number wellFormed stops
  | .string text, depth, fuel + 1, rest, _, _, enough => by
    rw [write_string] at enough ⊢
    have read := readQuoted?_quoted text rest (fuel + 1) (Nat.le_of_lt enough)
    simp only [quoted, List.cons_append] at read ⊢
    simp only [readValue, read, bind, Option.bind, pure]
  | .array [], depth, fuel + 1, rest, _, _, _ => by
    simp [write_array_nil, readValue, skipSpace_cons (c := ']') rfl]
  | .array (item :: items), depth, fuel + 1, rest, legible, _, enough => by
    rw [write_array] at enough ⊢
    obtain ⟨c, text, first, visible, bracket⟩ :=
      exists_itemsText_cons style (depth + 1) legible.1 items
    simp only [List.length_cons, List.length_append] at enough
    have read := readItems_write blank (item :: items) (depth + 1) fuel (style.newline depth) rest
      (List.cons_ne_nil _ _) legible (blank.newline_blank depth) (by omega)
    rw [first, List.cons_append] at read
    simp only [List.cons_append, List.append_assoc, List.nil_append, first]
    exact readValue_array (skipSpace_append_cons (blank.newline_blank _) visible _) bracket read
  | .object [], depth, fuel + 1, rest, _, _, _ => by
    simp [write_object_nil, readValue, skipSpace_cons (c := '\x7d') rfl]
  | .object (member :: members), depth, fuel + 1, rest, legible, _, enough => by
    rw [write_object] at enough ⊢
    obtain ⟨text, first⟩ := exists_membersText_cons style (depth + 1) member members
    simp only [List.length_cons, List.length_append] at enough
    have read := readMembers_write blank (member :: members) (depth + 1) fuel
      (style.newline depth) rest
      (List.cons_ne_nil _ _) legible (blank.newline_blank depth) (by omega)
    rw [first, List.cons_append] at read
    simp only [List.cons_append, List.append_assoc, List.nil_append, first]
    exact readValue_object (skipSpace_append_cons (blank.newline_blank _) rfl _) (by decide) read
  | .unreadable, _, _ + 1, _, legible, _, _ => legible.elim

/-- The items of an array are read back up to its closing bracket. -/
theorem readItems_write (blank : style.Blank) :
    ∀ (items : List Json) (depth fuel : Nat) (space rest : List Char),
    items ≠ [] → legibleItems items → (∀ c ∈ space, isSpace c = true) →
      (itemsText style depth items).length + 1 < fuel →
      readItems fuel (itemsText style depth items ++ (space ++ ']' :: rest)) = some (items, rest)
  | [], _, _, _, _, nonempty, _, _, _ => absurd rfl nonempty
  | _, _, 0, _, _, _, _, _, enough => absurd enough (Nat.not_lt_zero _)
  | [item], depth, fuel + 1, space, rest, _, legible, spaces, enough => by
    simp only [itemsText, writeItems, List.append_nil] at enough ⊢
    have read := readValue_write blank item depth fuel (space ++ ']' :: rest) legible.1
      (stops_close spaces (.inl rfl) rest) (by omega)
    exact readItems_last read (skipSpace_append_cons spaces rfl rest)
  | item :: next :: items, depth, fuel + 1, space, rest, _, legible, spaces, enough => by
    rw [itemsText, writeItems_cons] at enough ⊢
    simp only [List.length_cons, List.length_append] at enough
    simp only [List.append_assoc, List.cons_append]
    obtain ⟨c, text, first, visible, -⟩ := exists_itemsText_cons style depth legible.2.1 items
    have read := readValue_write blank item depth fuel
      (',' :: (style.newline depth ++
        (itemsText style depth (next :: items) ++ (space ++ ']' :: rest)))) legible.1
      (stops_comma _) (by omega)
    have others := readItems_write blank (next :: items) depth fuel space rest
      (List.cons_ne_nil _ _) legible.2
      spaces (by omega)
    refine readItems_more read (skipSpace_cons rfl _) ?_
    rw [first, List.cons_append] at others ⊢
    rw [skipSpace_append_cons (blank.newline_blank depth) visible, others]

/-- The members of an object are read back up to its closing brace. -/
theorem readMembers_write (blank : style.Blank) :
    ∀ (members : List (String × Json)) (depth fuel : Nat) (space rest : List Char),
    members ≠ [] → legibleMembers members → (∀ c ∈ space, isSpace c = true) →
      (membersText style depth members).length + 1 < fuel →
      readMembers fuel (membersText style depth members ++ (space ++ '\x7d' :: rest)) =
        some (.object members, rest)
  | [], _, _, _, _, nonempty, _, _, _ => absurd rfl nonempty
  | _, _, 0, _, _, _, _, _, enough => absurd enough (Nat.not_lt_zero _)
  | [(key, value)], depth, fuel + 1, space, rest, _, legible, spaces, enough => by
    obtain ⟨around, colon, blanks⟩ := blank.colon_blank
    simp only [membersText, writeMembers, List.append_nil, colon, List.length_append,
      List.length_cons] at enough
    simp only [membersText, writeMembers, List.append_nil, colon, List.append_assoc,
      List.cons_append]
    have named := readQuoted?_quoted key
      (':' :: (around ++ (write style depth value ++ (space ++ '\x7d' :: rest))))
      (fuel + 1) (by omega)
    have read := readValue_write blank value depth fuel (space ++ '\x7d' :: rest) legible.1
      (stops_close spaces (.inr rfl) rest) (by omega)
    obtain ⟨c, text, first, visible, -⟩ := exists_write_cons style depth legible.1
    refine readMembers_last named (skipSpace_cons rfl _) ?_ (skipSpace_append_cons spaces rfl rest)
    rw [first, List.cons_append] at read ⊢
    rw [skipSpace_append_cons blanks visible, read]
  | (key, value) :: next :: members, depth, fuel + 1, space, rest, _, legible, spaces, enough => by
    obtain ⟨around, colon, blanks⟩ := blank.colon_blank
    rw [membersText, writeMembers_cons] at enough ⊢
    simp only [colon, List.length_append, List.length_cons] at enough
    simp only [colon, List.append_assoc, List.cons_append]
    obtain ⟨others, second⟩ := exists_membersText_cons style depth next members
    let behind := style.newline depth ++
      (membersText style depth (next :: members) ++ (space ++ '\x7d' :: rest))
    have named := readQuoted?_quoted key
      (':' :: (around ++ (write style depth value ++ ',' :: behind))) (fuel + 1)
      (by omega)
    have read := readValue_write blank value depth fuel (',' :: behind) legible.1
      (stops_comma _) (by omega)
    have left := readMembers_write blank (next :: members) depth fuel space rest
      (List.cons_ne_nil _ _) legible.2
      spaces (by omega)
    obtain ⟨c, text, first, visible, -⟩ := exists_write_cons style depth legible.1
    refine readMembers_more named (skipSpace_cons rfl _) ?_ (skipSpace_cons rfl behind) ?_
    · rw [first, List.cons_append] at read ⊢
      rw [skipSpace_append_cons blanks visible, read]
    · rw [second, List.cons_append] at left
      rw [show behind = style.newline depth ++ '"' :: (others ++ (space ++ '\x7d' :: rest)) by
        simp only [behind, second, List.cons_append]]
      rw [skipSpace_append_cons (blank.newline_blank depth) rfl, left]

end

/-- The reader gives back every legible value from its text. -/
theorem ofText?_write (blank : style.Blank) {j : Json} (legible : j.legible) :
    ofText? (.ofList (write style 0 j)) = some j := by
  have read :=
    readValue_write blank j 0 (2 * (write style 0 j).length + 2) [] legible .nil (by omega)
  obtain ⟨c, text, first, visible, -⟩ := exists_write_cons style 0 legible
  rw [List.append_nil] at read
  simp only [ofText?, String.toList_ofList]
  rw [show skipSpace (write style 0 j) = write style 0 j by rw [first, skipSpace_cons visible],
    read]
  rfl

end ParticleSystem.Json
