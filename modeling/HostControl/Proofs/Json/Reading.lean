/-
Module: HostControl.Proofs.Json.Reading
Purpose: Every JSON value without fractions is read back from its compact text as it was written, whatever texts,
  names and nesting it holds, and the text has no control character in it.
Main exports: stringBody_escapeChars, number_signed, Json.Whole, readValue_compactChars, readChars?_compactChars,
  solid_compactChars
-/
import HostControl.Json.Reader
import HostControl.Proofs.Text.Numerals

namespace HostControl.Json

open Text

/-! ### Strings -/

/-- A control character is found again under its number in hexadecimal digits. -/
theorem unicodeEscape_control {c : Char} (control : c.toNat < 32) (rest : List Char) :
    unicodeEscape ('0' :: '0' :: digitChar (c.toNat / 16) :: digitChar (c.toNat % 16) :: rest) = some (c, rest) := by
  have unit : ∀ n < 32, readNumeral? 16 ['0', '0', digitChar (n / 16), digitChar (n % 16)] = some n := by decide
  have single : ¬(0xD800 ≤ c.toNat ∧ c.toNat < 0xDC00) ∧ ¬(0xDC00 ≤ c.toNat ∧ c.toNat < 0xE000) := by omega
  simp [unicodeEscape, codeUnit, unit _ control, single, Char.ofNat_toNat]

/-- One written character is read as one character. -/
theorem stringBody_escapeChar (fuel : Nat) (c : Char) (rest : List Char) :
    stringBody (fuel + 1) (escapeChar c ++ rest) =
      (stringBody fuel rest).map fun (ds, after) => (c :: ds, after) := by
  unfold escapeChar
  split
  · next same => subst same; rfl
  split
  · next same => subst same; rfl
  split
  · next same => subst same; rfl
  split
  · next same => subst same; rfl
  split
  · next same => subst same; rfl
  split
  · next same => subst same; rfl
  split
  · next same => subst same; rfl
  split
  · next control =>
    have read := unicodeEscape_control control rest
    simp [stringBody, escape, read]
  · next quote backslash _ _ _ _ _ plain => simp [stringBody, quote, backslash, plain]

theorem escapeChar_ne_nil (c : Char) : escapeChar c ≠ [] := by
  unfold escapeChar
  repeat' split
  all_goals simp

theorem length_le_escapeChars (cs : List Char) : cs.length ≤ (escapeChars cs).length := by
  induction cs with
  | nil => simp
  | cons c cs ih =>
    have written := List.length_pos_iff.2 (escapeChar_ne_nil c)
    simp only [escapeChars, List.flatMap_cons, List.length_append, List.length_cons] at ih ⊢
    omega

theorem stringBody_escapeChars (cs rest : List Char) {fuel : Nat} (enough : cs.length < fuel) :
    stringBody fuel (escapeChars cs ++ '"' :: rest) = some (cs, rest) := by
  induction cs generalizing fuel with
  | nil =>
    obtain ⟨more, rfl⟩ : ∃ more, fuel = more + 1 := ⟨fuel - 1, by simp at enough; omega⟩
    rfl
  | cons c cs ih =>
    obtain ⟨more, rfl⟩ : ∃ more, fuel = more + 1 := ⟨fuel - 1, by simp at enough; omega⟩
    rw [escapeChars, List.flatMap_cons, List.append_assoc, stringBody_escapeChar]
    rw [escapeChars] at ih
    rw [ih (by simpa using enough)]
    rfl

/-- A string is read up to its closing quote. -/
theorem stringAfterQuote_escapeChars (s : String) (rest : List Char) :
    stringAfterQuote (escapeChars s.toList ++ '"' :: rest) = some (s, rest) := by
  have shorter := length_le_escapeChars s.toList
  rw [stringAfterQuote, stringBody_escapeChars _ _ (by simp only [List.length_append]; omega)]
  simp

/-! ### Numbers -/

/-- What may follow a value in a text: nothing, a comma, or a closing bracket. -/
def Follows : List Char → Prop
  | [] => True
  | c :: _ => c = ',' ∨ c = ']' ∨ c = '}'

variable {rest : List Char}

theorem Follows.no_digit (follows : Follows rest) (c : Char) (first : rest.head? = some c) :
    digitValue? 10 c = none := by
  cases rest with
  | nil => cases first
  | cons d rest =>
    cases first
    rcases follows with rfl | rfl | rfl <;> rfl

theorem Follows.no_fraction (follows : Follows rest) : fractionPart rest = some ([], rest) := by
  cases rest with
  | nil => rfl
  | cons c rest => rcases follows with rfl | rfl | rfl <;> rfl

theorem Follows.no_exponent (follows : Follows rest) : exponentPart rest = some (none, rest) := by
  cases rest with
  | nil => rfl
  | cons c rest => rcases follows with rfl | rfl | rfl <;> rfl

/-- The digits of a number in front of what may follow it. -/
theorem wholePart_decimal (n : Nat) (follows : Follows rest) :
    ∃ ds, wholePart (decimal n ++ rest) = some (ds, rest) ∧ ofDigits 10 ds = n := by
  obtain ⟨ds, digits⟩ := exists_digitsOf (show 2 ≤ 10 by decide) n
  have taken := spanDigits_map (by decide) digits.small follows.no_digit
  refine ⟨ds, ?_, digits.value⟩
  rw [decimal, digits.written, wholePart, taken]
  split
  · next none => exact absurd (congrArg Prod.fst none) digits.filled
  · next zeros =>
    obtain ⟨rfl, -⟩ := Prod.mk.inj zeros
    have single := digits.eq_singleton (by decide) rfl
    simp at single
  · next same =>
    obtain ⟨rfl, rfl⟩ := Prod.mk.inj same
    rfl

/-- A written natural number begins with a digit. -/
theorem exists_decimal_eq_cons (n : Nat) : ∃ d < 10, ∃ cs, decimal n = digitChar d :: cs := by
  cases written : decimal n with
  | nil => exact absurd written (numeral_ne_nil 10 n)
  | cons c cs =>
    obtain ⟨d, small, rfl⟩ := exists_digit_of_mem_numeral (by decide) n c (written ▸ List.mem_cons_self)
    exact ⟨d, small, cs, rfl⟩

theorem digitChar_ne_minus {d : Nat} (small : d < 10) : digitChar d ≠ '-' := by
  have each : ∀ d < 10, digitChar d ≠ '-' := by decide
  exact each d small

theorem number_decimal {n : Nat} (greatest : (n : Int) ≤ greatestInt) (follows : Follows rest) :
    number (decimal n ++ rest) = some (.int n, rest) := by
  obtain ⟨ds, whole, value⟩ := wholePart_decimal n follows
  obtain ⟨d, small, cs, written⟩ := exists_decimal_eq_cons n
  have least : leastInt ≤ (n : Int) := by simp only [leastInt]; omega
  rw [written, List.cons_append] at whole ⊢
  simp [number, digitChar_ne_minus small, whole, follows.no_fraction, follows.no_exponent, value, least, greatest]

theorem number_minus {n : Nat} (positive : 0 < n) (least : leastInt ≤ -(n : Int)) (follows : Follows rest) :
    number ('-' :: (decimal n ++ rest)) = some (.int (-(n : Int)), rest) := by
  obtain ⟨ds, whole, value⟩ := wholePart_decimal n follows
  have greatest : -(n : Int) ≤ greatestInt := by simp only [greatestInt]; omega
  have other : n ≠ 0 := by omega
  simp [number, whole, follows.no_fraction, follows.no_exponent, value, least, greatest, other]

theorem number_signed {n : Int} (least : leastInt ≤ n) (greatest : n ≤ greatestInt) (follows : Follows rest) :
    number (signed n ++ rest) = some (.int n, rest) := by
  cases n with
  | ofNat n => exact number_decimal greatest follows
  | negSucc n => exact number_minus (Nat.succ_pos n) least follows

/-! ### Values -/

mutual

/-- A value without fractions, whose numbers fit into 64 bits with or without a sign. -/
def Whole : Json → Prop
  | .null | .bool _ | .str _ => True
  | .int n => leastInt ≤ n ∧ n ≤ greatestInt
  | .real _ => False
  | .arr items => WholeItems items
  | .obj fields => WholeFields fields

/-- Items without fractions. -/
def WholeItems : List Json → Prop
  | [] => True
  | v :: more => v.Whole ∧ WholeItems more

/-- Fields whose values are without fractions, whatever their names are. -/
def WholeFields : List (String × Json) → Prop
  | [] => True
  | (_, v) :: more => v.Whole ∧ WholeFields more

end

theorem wholeFields_iff {fields : List (String × Json)} :
    WholeFields fields ↔ ∀ field ∈ fields, field.2.Whole := by
  induction fields with
  | nil => simp [WholeFields]
  | cons field fields ih => rw [WholeFields, ih, List.forall_mem_cons]

/-- A value that begins like a number is read as one. -/
theorem readValue_digit {d : Nat} (small : d < 10) (fuel : Nat) (cs : List Char) :
    readValue (fuel + 1) (digitChar d :: cs) = number (digitChar d :: cs) := by
  match d, small with
  | 0, _ | 1, _ | 2, _ | 3, _ | 4, _ | 5, _ | 6, _ | 7, _ | 8, _ | 9, _ => rfl

theorem readValue_signed (n : Int) (fuel : Nat) (rest : List Char) :
    readValue (fuel + 1) (signed n ++ rest) = number (signed n ++ rest) := by
  cases n with
  | ofNat n =>
    obtain ⟨d, small, cs, written⟩ := exists_decimal_eq_cons n
    simp only [signed, written, List.cons_append]
    exact readValue_digit small fuel _
  | negSucc n => rfl

/-- The first character of a value: no blank and no closing bracket. -/
structure Opens (c : Char) : Prop where
  solid : isGap c = false
  bracket : c ≠ ']'
  brace : c ≠ '}'

theorem opens_digit {d : Nat} (small : d < 10) : Opens (digitChar d) := by
  match d, small with
  | 0, _ | 1, _ | 2, _ | 3, _ | 4, _ | 5, _ | 6, _ | 7, _ | 8, _ | 9, _ => exact ⟨rfl, by decide, by decide⟩

theorem exists_compactChars_eq_cons {v : Json} (whole : v.Whole) : ∃ c cs, v.compactChars = c :: cs ∧ Opens c := by
  cases v with
  | null | str | arr | obj => exact ⟨_, _, rfl, rfl, by decide, by decide⟩
  | bool b => cases b <;> exact ⟨_, _, rfl, rfl, by decide, by decide⟩
  | real => exact whole.elim
  | int n =>
    cases n with
    | ofNat n =>
      obtain ⟨d, small, cs, written⟩ := exists_decimal_eq_cons n
      exact ⟨_, cs, written, opens_digit small⟩
    | negSucc n => exact ⟨_, _, rfl, rfl, by decide, by decide⟩

theorem compactItems_cons_cons (v w : Json) (items : List Json) :
    compactItems (v :: w :: items) = v.compactChars ++ ',' :: compactItems (w :: items) := rfl

theorem compactFields_cons_cons (name : String) (v : Json) (next : String × Json) (fields : List (String × Json)) :
    compactFields ((name, v) :: next :: fields) =
      quoted name ++ ':' :: (v.compactChars ++ ',' :: compactFields (next :: fields)) := rfl

theorem exists_compactItems_eq_cons {v : Json} (items : List Json) (whole : v.Whole) :
    ∃ c cs, compactItems (v :: items) = c :: cs ∧ Opens c := by
  obtain ⟨c, cs, first, opens⟩ := exists_compactChars_eq_cons whole
  cases items with
  | nil => exact ⟨c, cs, first, opens⟩
  | cons w items => exact ⟨c, cs ++ ',' :: compactItems (w :: items), by rw [compactItems_cons_cons, first]; rfl, opens⟩

theorem exists_compactFields_eq_cons (name : String) (v : Json) (fields : List (String × Json)) :
    ∃ cs, compactFields ((name, v) :: fields) = '"' :: cs := by
  cases fields <;> exact ⟨_, rfl⟩

theorem skipGap_cons {c : Char} (solid : isGap c = false) (cs : List Char) : skipGap (c :: cs) = c :: cs := by
  rw [skipGap, List.dropWhile_cons_of_neg (by simp [solid])]

theorem skipGap_comma (cs : List Char) : skipGap (',' :: cs) = ',' :: cs := skipGap_cons rfl cs

theorem skipGap_colon (cs : List Char) : skipGap (':' :: cs) = ':' :: cs := skipGap_cons rfl cs

theorem skipGap_quote (cs : List Char) : skipGap ('"' :: cs) = '"' :: cs := skipGap_cons rfl cs

theorem skipGap_bracket (cs : List Char) : skipGap (']' :: cs) = ']' :: cs := skipGap_cons rfl cs

theorem skipGap_brace (cs : List Char) : skipGap ('}' :: cs) = '}' :: cs := skipGap_cons rfl cs

section

variable {fuel : Nat} {v : Json} {rest after : List Char}

/-- An item before the closing bracket is the last one. -/
theorem readItems_last (whole : v.Whole)
    (read : readValue fuel (v.compactChars ++ ']' :: rest) = some (v, ']' :: rest)) :
    readItems (fuel + 1) (v.compactChars ++ ']' :: rest) = some ([v], rest) := by
  obtain ⟨c, cs, first, opens⟩ := exists_compactChars_eq_cons whole
  rw [first, List.cons_append] at read ⊢
  simp [readItems, skipGap_cons opens.solid, read, skipGap_bracket]

/-- An item before a comma is followed by others. -/
theorem readItems_next {items : List Json} (whole : v.Whole)
    (read : readValue fuel (v.compactChars ++ ',' :: rest) = some (v, ',' :: rest))
    (others : readItems fuel rest = some (items, after)) :
    readItems (fuel + 1) (v.compactChars ++ ',' :: rest) = some (v :: items, after) := by
  obtain ⟨c, cs, first, opens⟩ := exists_compactChars_eq_cons whole
  rw [first, List.cons_append] at read ⊢
  simp [readItems, skipGap_cons opens.solid, read, skipGap_comma, others]

/-- A field before the closing brace is the last one. -/
theorem readFields_last (name : String) (whole : v.Whole)
    (read : readValue fuel (v.compactChars ++ '}' :: rest) = some (v, '}' :: rest)) :
    readFields (fuel + 1) (quoted name ++ ':' :: (v.compactChars ++ '}' :: rest)) = some ([(name, v)], rest) := by
  obtain ⟨c, cs, first, opens⟩ := exists_compactChars_eq_cons whole
  rw [first, List.cons_append] at read ⊢
  have named := stringAfterQuote_escapeChars name (':' :: c :: (cs ++ '}' :: rest))
  simp [quoted, readFields, skipGap_quote, named, skipGap_colon, skipGap_cons opens.solid, read, skipGap_brace]

/-- A field before a comma is followed by others. -/
theorem readFields_next {fields : List (String × Json)} (name : String) (whole : v.Whole)
    (read : readValue fuel (v.compactChars ++ ',' :: rest) = some (v, ',' :: rest))
    (others : readFields fuel rest = some (fields, after)) :
    readFields (fuel + 1) (quoted name ++ ':' :: (v.compactChars ++ ',' :: rest)) =
      some ((name, v) :: fields, after) := by
  obtain ⟨c, cs, first, opens⟩ := exists_compactChars_eq_cons whole
  rw [first, List.cons_append] at read ⊢
  have named := stringAfterQuote_escapeChars name (':' :: c :: (cs ++ ',' :: rest))
  simp [quoted, readFields, skipGap_quote, named, skipGap_colon, skipGap_cons opens.solid, read, skipGap_comma, others]

end

theorem readValue_arr {fuel : Nat} {c : Char} (opens : Opens c) (cs : List Char) :
    readValue (fuel + 1) ('[' :: c :: cs) =
      (readItems fuel (c :: cs)).map fun (items, rest) => (.arr items, rest) := by
  simp [readValue, skipGap_cons opens.solid, opens.bracket]

theorem readValue_obj {fuel : Nat} {c : Char} (opens : Opens c) (cs : List Char) :
    readValue (fuel + 1) ('{' :: c :: cs) =
      (readFields fuel (c :: cs)).map fun (fields, rest) => (.obj fields, rest) := by
  simp [readValue, skipGap_cons opens.solid, opens.brace]

mutual

/-- A value is read up to what follows it. -/
theorem readValue_compactChars : ∀ (v : Json), v.Whole → ∀ (fuel : Nat) (rest : List Char),
    v.compactChars.length < fuel → Follows rest → readValue fuel (v.compactChars ++ rest) = some (v, rest)
  | .null, _, fuel + 1, rest, _, _ => rfl
  | .bool true, _, fuel + 1, rest, _, _ => rfl
  | .bool false, _, fuel + 1, rest, _, _ => rfl
  | .int n, ⟨least, greatest⟩, fuel + 1, rest, _, follows => by
    rw [compactChars, readValue_signed, number_signed least greatest follows]
  | .str s, _, fuel + 1, rest, _, _ => by
    have read := stringAfterQuote_escapeChars s rest
    simp [compactChars, quoted, readValue, read]
  | .arr [], _, fuel + 1, rest, _, _ => rfl
  | .arr (v :: items), ⟨whole, wholes⟩, fuel + 1, rest, enough, _ => by
    have read := readItems_compactItems v items whole wholes fuel rest
      (by simp only [compactChars, List.length_cons, List.length_append] at enough; omega)
    obtain ⟨c, cs, first, opens⟩ := exists_compactItems_eq_cons items whole
    rw [compactChars, List.cons_append, List.append_assoc, List.singleton_append]
    rw [first, List.cons_append] at read ⊢
    rw [readValue_arr opens, read]
    rfl
  | .obj [], _, fuel + 1, rest, _, _ => rfl
  | .obj ((name, v) :: fields), ⟨whole, wholes⟩, fuel + 1, rest, enough, _ => by
    have read := readFields_compactFields name v fields whole wholes fuel rest
      (by simp only [compactChars, List.length_cons, List.length_append] at enough; omega)
    obtain ⟨cs, first⟩ := exists_compactFields_eq_cons name v fields
    rw [compactChars, List.cons_append, List.append_assoc, List.singleton_append]
    rw [first, List.cons_append] at read ⊢
    rw [readValue_obj ⟨rfl, by decide, by decide⟩, read]
    rfl

/-- Items are read up to their closing bracket. -/
theorem readItems_compactItems : ∀ (v : Json) (items : List Json), v.Whole → WholeItems items →
    ∀ (fuel : Nat) (rest : List Char), (compactItems (v :: items)).length + 1 < fuel →
      readItems fuel (compactItems (v :: items) ++ ']' :: rest) = some (v :: items, rest)
  | v, [], whole, _, fuel + 1, rest, enough => by
    have read := readValue_compactChars v whole fuel (']' :: rest)
      (by simp only [compactItems] at enough; omega) (.inr (.inl rfl))
    rw [compactItems, readItems_last whole read]
  | v, w :: items, whole, ⟨other, wholes⟩, fuel + 1, rest, enough => by
    simp only [compactItems, List.length_append, List.length_cons] at enough
    have more := readItems_compactItems w items other wholes fuel rest (by omega)
    have read := readValue_compactChars v whole fuel (',' :: (compactItems (w :: items) ++ ']' :: rest))
      (by omega) (.inl rfl)
    rw [compactItems_cons_cons, List.append_assoc, List.cons_append, readItems_next whole read more]

/-- Fields are read up to their closing brace. -/
theorem readFields_compactFields : ∀ (name : String) (v : Json) (fields : List (String × Json)), v.Whole →
    WholeFields fields → ∀ (fuel : Nat) (rest : List Char), (compactFields ((name, v) :: fields)).length + 1 < fuel →
      readFields fuel (compactFields ((name, v) :: fields) ++ '}' :: rest) = some ((name, v) :: fields, rest)
  | name, v, [], whole, _, fuel + 1, rest, enough => by
    simp only [compactFields, List.length_append, List.length_cons] at enough
    have read := readValue_compactChars v whole fuel ('}' :: rest) (by omega) (.inr (.inr rfl))
    rw [compactFields, List.append_assoc, List.cons_append, readFields_last name whole read]
  | name, v, (other, w) :: fields, whole, ⟨holds, wholes⟩, fuel + 1, rest, enough => by
    simp only [compactFields, List.length_append, List.length_cons] at enough
    have more := readFields_compactFields other w fields holds wholes fuel rest (by omega)
    have read := readValue_compactChars v whole fuel (',' :: (compactFields ((other, w) :: fields) ++ '}' :: rest))
      (by omega) (.inl rfl)
    rw [compactFields_cons_cons, List.append_assoc, List.cons_append, List.append_assoc, List.cons_append,
      readFields_next name whole read more]

end

/-- A value is read back from its compact text. -/
theorem readChars?_compactChars {v : Json} (whole : v.Whole) : readChars? v.compactChars = some v := by
  have read := readValue_compactChars v whole (2 * v.compactChars.length + 1) [] (by omega) trivial
  obtain ⟨c, cs, first, opens⟩ := exists_compactChars_eq_cons whole
  rw [List.append_nil] at read
  rw [readChars?]
  rw [first] at read ⊢
  rw [skipGap_cons opens.solid, read]
  rfl

/-! ### Characters of a text -/

/-- A text without control characters. -/
def Solid (cs : List Char) : Prop := ∀ c ∈ cs, 32 ≤ c.toNat

instance (cs : List Char) : Decidable (Solid cs) := List.decidableBAll _ cs

theorem solid_cons {c : Char} {cs : List Char} : Solid (c :: cs) ↔ 32 ≤ c.toNat ∧ Solid cs := List.forall_mem_cons

theorem solid_append {cs more : List Char} : Solid (cs ++ more) ↔ Solid cs ∧ Solid more := List.forall_mem_append

theorem solid_nil : Solid [] := nofun

theorem solid_escapeChar (c : Char) : Solid (escapeChar c) := by
  have control : ∀ n < 32, Solid ['\\', 'u', '0', '0', digitChar (n / 16), digitChar (n % 16)] := by decide
  unfold escapeChar
  repeat' split
  -- All that has a letter for its escape, then what is written by its number, then what stands for itself.
  iterate 7
    · decide
  · next small => exact control _ small
  · next plain => exact solid_cons.2 ⟨Nat.not_lt.1 plain, solid_nil⟩

theorem solid_quoted (s : String) : Solid (quoted s) := by
  have body : Solid (escapeChars s.toList) := by
    intro d member
    obtain ⟨c, -, written⟩ := List.mem_flatMap.1 member
    exact solid_escapeChar c d written
  rw [quoted, solid_cons, solid_append]
  exact ⟨by decide, body, by decide⟩

theorem solid_decimal (n : Nat) : Solid (decimal n) := by
  intro c member
  obtain ⟨d, small, rfl⟩ := exists_digit_of_mem_numeral (by decide) n c member
  have each : ∀ d < 10, 32 ≤ (digitChar d).toNat := by decide
  exact each d small

mutual

/-- The text of a value has no control character, whatever its texts and names have. -/
theorem solid_compactChars : ∀ v : Json, v.Whole → Solid v.compactChars
  | .null, _ => by decide
  | .bool true, _ => by decide
  | .bool false, _ => by decide
  | .int (.ofNat n), _ => solid_decimal n
  | .int (.negSucc n), _ => solid_cons.2 ⟨by decide, solid_decimal (n + 1)⟩
  | .str s, _ => solid_quoted s
  | .arr items, whole => by
    rw [compactChars, solid_cons, solid_append]
    exact ⟨by decide, solid_compactItems items whole, by decide⟩
  | .obj fields, whole => by
    rw [compactChars, solid_cons, solid_append]
    exact ⟨by decide, solid_compactFields fields whole, by decide⟩

theorem solid_compactItems : ∀ items : List Json, WholeItems items → Solid (compactItems items)
  | [], _ => solid_nil
  | [v], ⟨whole, _⟩ => solid_compactChars v whole
  | v :: w :: items, ⟨whole, wholes⟩ => by
    rw [compactItems_cons_cons, solid_append, solid_cons]
    exact ⟨solid_compactChars v whole, by decide, solid_compactItems (w :: items) wholes⟩

theorem solid_compactFields : ∀ fields : List (String × Json), WholeFields fields → Solid (compactFields fields)
  | [], _ => solid_nil
  | [(name, v)], ⟨whole, _⟩ => by
    rw [compactFields, solid_append, solid_cons]
    exact ⟨solid_quoted name, by decide, solid_compactChars v whole⟩
  | (name, v) :: next :: fields, ⟨whole, wholes⟩ => by
    rw [compactFields_cons_cons, solid_append, solid_cons, solid_append, solid_cons]
    exact ⟨solid_quoted name, by decide, solid_compactChars v whole, by decide,
      solid_compactFields (next :: fields) wholes⟩

end

end HostControl.Json
