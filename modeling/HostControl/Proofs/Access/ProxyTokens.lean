/-
Module: HostControl.Proofs.Access.ProxyTokens
Purpose: What the TOML reader makes of the parts of the proxy file. Every text, key and list of texts
  is read back as it was before it was written, whatever characters it holds.
Main exports: string_basicString, keyName_keyChars, items_itemChars
-/
import HostControl.Access.ProxyFile

namespace HostControl.Access

open Text

/-! ### Texts in double quotes -/

/-- A control character is found again under its number in hexadecimal digits. -/
theorem scalar_upperDigits {c : Char} (control : isControl c = true) :
    Toml.scalar ['0', '0', upperDigit (c.toNat / 16), upperDigit (c.toNat % 16)] = some c := by
  have below : ∀ n < 32, Toml.scalar ['0', '0', upperDigit (n / 16), upperDigit (n % 16)] =
      some (Char.ofNat n) := by decide
  have delete : Toml.scalar ['0', '0', upperDigit (127 / 16), upperDigit (127 % 16)] =
      some (Char.ofNat 127) := by decide
  simp only [isControl, Bool.or_eq_true, decide_eq_true_eq, beq_iff_eq] at control
  rcases control with small | large
  · rw [below _ small, Char.ofNat_toNat]
  · rw [large, delete, ← large, Char.ofNat_toNat]

/-- What is neither a control character nor escaped may stand in a text as it is. -/
theorem isText_of_not_isControl {c : Char} (plain : isControl c = false) : Toml.isText c = true := by
  simp only [isControl, Bool.or_eq_false_iff, decide_eq_false_iff_not, beq_eq_false_iff_ne,
    Nat.not_lt] at plain
  simp [Toml.isText, plain.1, plain.2]

/-- One written character is read as one character. -/
theorem basicBody_basicChar (fuel : Nat) (c : Char) (rest : List Char) :
    Toml.basicBody (fuel + 1) (basicChar c ++ rest) =
      (Toml.basicBody fuel rest).map fun (ds, after) => (c :: ds, after) := by
  unfold basicChar
  split
  · next same => subst same; rfl
  split
  · next same => subst same; rfl
  split
  · next same => subst same; rfl
  split
  · next same => subst same; rfl
  split
  · next same => subst same; rfl
  split
  · next same => subst same; rfl
  split
  · next same => subst same; rfl
  split
  · next control =>
      have read := scalar_upperDigits control
      have long : ¬rest.length + 1 + 1 + 1 + 1 < 4 := by omega
      simp [Toml.basicBody, Toml.escape, read, long]
  · next quote backslash _ _ _ _ _ plain =>
      have text : Toml.isText c = true := isText_of_not_isControl (by simpa using plain)
      simp [Toml.basicBody, quote, backslash, text]

theorem basicChar_ne_nil (c : Char) : basicChar c ≠ [] := by
  unfold basicChar
  repeat' split
  all_goals simp

theorem length_le_flatMap_basicChar (cs : List Char) :
    cs.length ≤ (cs.flatMap basicChar).length := by
  induction cs with
  | nil => simp
  | cons c rest ih =>
      have written := List.length_pos_iff.2 (basicChar_ne_nil c)
      simp only [List.flatMap_cons, List.length_append, List.length_cons]
      omega

theorem basicBody_flatMap_basicChar (cs rest : List Char) {fuel : Nat} (enough : cs.length < fuel) :
    Toml.basicBody fuel (cs.flatMap basicChar ++ '"' :: rest) = some (cs, rest) := by
  induction cs generalizing fuel with
  | nil =>
      obtain ⟨more, rfl⟩ : ∃ more, fuel = more + 1 := ⟨fuel - 1, by simp at enough; omega⟩
      simp [Toml.basicBody]
  | cons c cs ih =>
      obtain ⟨more, rfl⟩ : ∃ more, fuel = more + 1 := ⟨fuel - 1, by simp at enough; omega⟩
      rw [List.flatMap_cons, List.append_assoc, basicBody_basicChar,
        ih (by simpa using enough)]
      rfl

/-- A text in double quotes is read up to its closing quote. -/
theorem basicString_flatMap_basicChar (cs rest : List Char) :
    Toml.basicString (cs.flatMap basicChar ++ '"' :: rest) = some (String.ofList cs, rest) := by
  have shorter := length_le_flatMap_basicChar cs
  unfold Toml.basicString
  rw [basicBody_flatMap_basicChar cs rest (by simp only [List.length_append]; omega)]
  rfl

/-- A written character does not begin with a quote. -/
theorem basicChar_head (c : Char) : ∃ d ds, basicChar c = d :: ds ∧ d ≠ '"' := by
  unfold basicChar
  split
  · exact ⟨_, _, rfl, by decide⟩
  repeat' split
  all_goals exact ⟨_, _, rfl, by first | decide | assumption⟩

/-- A written text is read as one text, unless a further quote behind an empty one makes it the
beginning of a text over several lines. -/
theorem string_basicString (cs rest : List Char) (next : rest.head? ≠ some '"') :
    Toml.string (basicString cs ++ rest) = some (String.ofList cs, rest) := by
  have read := basicString_flatMap_basicChar cs rest
  cases cs with
  | nil =>
      cases rest with
      | nil => rfl
      | cons d ds =>
          have other : d ≠ '"' := by simpa using next
          simpa [basicString, Toml.string, other] using read
  | cons c cs =>
      obtain ⟨d, ds, written, other⟩ := basicChar_head c
      simp only [basicString, List.flatMap_cons, written, List.cons_append, List.append_assoc,
        List.nil_append] at read ⊢
      simpa [Toml.string, other] using read

/-! ### Keys -/

theorem literalBody_append (cs rest : List Char) (plain : ∀ c ∈ cs, c ≠ '\'' ∧ isControl c = false) :
    Toml.literalBody (cs ++ '\'' :: rest) = some (cs, rest) := by
  induction cs with
  | nil => simp [Toml.literalBody]
  | cons c cs ih =>
      have text : Toml.isText c = true := isText_of_not_isControl (plain c (by simp)).2
      have read := ih fun d member => plain d (by simp [member])
      simp [Toml.literalBody, (plain c (by simp)).1, text, read]

/-- A name without quotes is read up to the first character that cannot stand in one. -/
theorem keyName_bare {name rest : List Char} (named : name ≠ [])
    (plain : name.all Toml.isBare = true) (next : ∀ c ∈ rest.head?, Toml.isBare c = false) :
    Toml.keyName (name ++ rest) = some (String.ofList name, rest) := by
  have bare := List.all_eq_true.1 plain
  have taken : (name ++ rest).takeWhile Toml.isBare = name := by
    rw [List.takeWhile_append_of_pos bare]
    cases rest with
    | nil => simp
    | cons d ds => simp [next d (by simp)]
  have left : (name ++ rest).dropWhile Toml.isBare = rest := by
    rw [List.dropWhile_append_of_pos bare]
    cases rest with
    | nil => simp
    | cons d ds => simp [next d (by simp)]
  cases name with
  | nil => exact absurd rfl named
  | cons c cs =>
      have first : Toml.isBare c = true := bare c (by simp)
      have double : c ≠ '"' := by rintro rfl; exact absurd first (by decide)
      have single : c ≠ '\'' := by rintro rfl; exact absurd first (by decide)
      rw [List.cons_append] at taken left ⊢
      unfold Toml.keyName
      split
      · next same => exact absurd (List.cons.inj same).1 double
      · next same => exact absurd (List.cons.inj same).1 single
      · rw [taken, left]

/-- A written key is read as the name it was written for. -/
theorem keyName_keyChars (cs rest : List Char) :
    Toml.keyName (keyChars cs ++ '.' :: rest) = some (String.ofList cs, '.' :: rest) := by
  unfold keyChars
  split
  · next bare =>
      simp only [Bool.and_eq_true, Bool.not_eq_true', List.isEmpty_eq_false_iff] at bare
      refine keyName_bare bare.1 bare.2 ?_
      simp
      decide
  split
  · next quoted =>
      simp only [Bool.and_eq_true, Bool.not_eq_true', List.any_eq_false, Bool.or_eq_true,
        beq_iff_eq, not_or, Bool.not_eq_true] at quoted
      have read := literalBody_append cs ('.' :: rest) quoted.2
      simp [Toml.keyName, Toml.literalString, read]
  · have read := basicString_flatMap_basicChar cs ('.' :: rest)
    simpa [basicString, Toml.keyName] using read

/-- No blank stands in front of a written key. -/
theorem skipSpace_keyChars (cs rest : List Char) :
    Toml.skipSpace (keyChars cs ++ rest) = keyChars cs ++ rest := by
  unfold keyChars
  split
  · next bare =>
      simp only [Bool.and_eq_true, Bool.not_eq_true', List.isEmpty_eq_false_iff,
        List.all_eq_true] at bare
      cases cs with
      | nil => exact absurd rfl bare.1
      | cons c cs =>
          have first := bare.2 c (by simp)
          have solid : Toml.isSpace c = false := by
            rw [Bool.eq_false_iff]
            intro space
            simp only [Toml.isSpace, Bool.or_eq_true, beq_iff_eq] at space
            rcases space with rfl | rfl <;> exact absurd first (by decide)
          simp [Toml.skipSpace, solid]
  split
  · rfl
  · rfl

/-! ### Lists of texts -/

theorem skipGap_of_solid {fuel : Nat} {c : Char} {rest : List Char}
    (solid : c = '"' ∨ c = ',' ∨ c = ']') : Toml.skipGap fuel (c :: rest) = c :: rest := by
  rcases solid with rfl | rfl | rfl <;> cases fuel <;> rfl

theorem items_space (fuel depth : Nat) (cs : List Char) :
    Toml.items fuel depth (' ' :: cs) = Toml.items fuel depth cs := by
  cases fuel with
  | zero => rfl
  | succ fuel => rfl

/-- A text in front of the next comma or bracket is read as one item. -/
theorem items_basicString (fuel depth : Nat) (cs rest : List Char) (next : rest.head? ≠ some '"') :
    Toml.items (fuel + 2) depth (basicString cs ++ rest) =
      match Toml.skipGap rest.length rest with
      | ',' :: rest => (Toml.items (fuel + 1) depth rest).map fun (vs, rest) =>
          (.string (String.ofList cs) :: vs, rest)
      | ']' :: rest => some ([.string (String.ofList cs)], rest)
      | _ => none := by
  have read := string_basicString cs rest next
  unfold basicString at read ⊢
  rw [List.cons_append] at read ⊢
  generalize cs.flatMap basicChar ++ ['"'] ++ rest = text at read ⊢
  have first : Toml.value (fuel + 1) depth ('"' :: text) =
      some (.string (String.ofList cs), rest) := by
    simp [Toml.value, read]
  rw [Toml.items, skipGap_of_solid (.inl rfl)]
  split
  · next same => exact absurd (List.cons.inj same).1 (by decide)
  · generalize Toml.value (fuel + 1) depth ('"' :: text) = result at first ⊢
    subst first
    rfl

/-- A written list of texts is read up to its closing bracket. -/
theorem items_itemChars (depth : Nat) (ts : List String) (rest : List Char) {fuel : Nat}
    (enough : ts.length < fuel) :
    Toml.items fuel depth (itemChars ts ++ ']' :: rest) = some (ts.map .string, rest) := by
  induction ts generalizing fuel with
  | nil =>
      obtain ⟨more, rfl⟩ : ∃ more, fuel = more + 1 := ⟨fuel - 1, by simp at enough; omega⟩
      simp [itemChars, Toml.items, skipGap_of_solid]
  | cons t ts ih =>
      obtain ⟨more, rfl⟩ : ∃ more, fuel = more + 2 := ⟨fuel - 2, by simp at enough; omega⟩
      cases ts with
      | nil =>
          have read := items_basicString more depth t.toList (']' :: rest) (by simp)
          simpa [itemChars, skipGap_of_solid] using read
      | cons u us =>
          have again : Toml.items (more + 1) depth (itemChars (u :: us) ++ ']' :: rest) =
              some ((u :: us).map .string, rest) := ih (by simpa using enough)
          have read := items_basicString more depth t.toList
            (',' :: ' ' :: (itemChars (u :: us) ++ ']' :: rest)) (by simp)
          simpa [itemChars, skipGap_of_solid, items_space, again] using read

end HostControl.Access
