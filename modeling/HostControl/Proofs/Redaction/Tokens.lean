/-
Module: HostControl.Proofs.Redaction.Tokens
Purpose: What the replacing of bearer tokens leaves of a name with a value behind it. A quoted entry stays as it
  is; an assignment does where the text before does not come to its end within a token.
Main exports: NoBearer, bearerToken_keeps_quoted, untilTokenEnd, bearerToken_keeps_assigned
-/
import HostControl.Proofs.Redaction.Values

namespace HostControl.Redaction

open Text

section

variable {name head tail : List Char}

/-! ### Bearer tokens beside values -/

/-- No bearer token begins within a value. -/
def NoBearer (value tail : List Char) : Prop :=
  ∀ g, g <:+ value → g ≠ [] → bearerToken.rest? (g ++ tail) = none

instance (value tail : List Char) : Decidable (NoBearer value tail) :=
  decidable_of_iff (∀ g ∈ value.tails, g ≠ [] → bearerToken.rest? (g ++ tail) = none)
    (forall_congr' fun _ => imp_congr_left (List.mem_tails ..))

theorem bearerToken_of_assignment {a : List Char} (solid : ∀ c ∈ a, isBlank c = false) (b : List Char) :
    bearerToken.rest? (a ++ '=' :: b) = none := by
  have parts : bearerToken = [.word [anyCase "bearer"], .some isBlank] ++
    [.some isTokenChar, .many (exactly '=')] := rfl
  have fails : Pattern.rest? [.word [anyCase "bearer"], .some isBlank] a = none :=
    (Pattern.rest?_some_within [.word [anyCase "bearer"]] isBlank [] a).trans (Pattern.rest?_of_clear solid)
  rw [parts, Pattern.rest?_append, Pattern.rest?_before (by decide), fails]
  rfl

theorem bearerToken_of_other {c : Char} (other : isValueChar c = false) (solid : isBlank c = false)
    {a : List Char} (solid_front : ∀ c ∈ a, isBlank c = false) (b : List Char) :
    bearerToken.rest? (a ++ c :: b) = none := by
  have avoids : bearerToken.avoids c = true := by
    simp only [isValueChar, Bool.not_eq_false', Bool.or_eq_true, beq_iff_eq, solid, Bool.false_eq_true,
      or_false] at other
    rcases other with ((rfl | rfl) | rfl) | rfl <;> decide
  rw [Pattern.rest?_before avoids, bearerToken_of_solid solid_front]
  rfl

/-- No bearer token begins where a value ends. -/
theorem bearerToken_of_ends (ends : EndsValue tail) : bearerToken.rest? tail = none := by
  cases tail with
  | nil => rfl
  | cons c b =>
    cases solid : isBlank c with
    | false => exact bearerToken_of_other (endsValue_cons.1 ends) solid (a := []) nofun b
    | true => exact (bearerToken_at (a := []) nofun solid).trans (if_neg nofun)

/-- Where no bearer token begins a text stays as it is. -/
theorem bearerToken_keeps {a b : List Char}
    (none_begins : ∀ g, g <:+ a → g ≠ [] → bearerToken.rest? (g ++ b) = none) :
    bearerToken.replaceAll marker (a ++ b) = a ++ bearerToken.replaceAll marker b := by
  induction a with
  | nil => rfl
  | cons c a ih =>
    have fails : bearerToken.rest? (c :: (a ++ b)) = none :=
      none_begins (c :: a) (List.suffix_refl _) (List.cons_ne_nil _ _)
    rw [List.cons_append, Pattern.replaceAll_of_none fails,
      ih fun g among => none_begins g (among.trans (List.suffix_cons c a)), List.cons_append]

theorem bearerToken_keeps_solid {a : List Char} (solid : ∀ c ∈ a, isBlank c = false) :
    bearerToken.replaceAll marker a = a := by
  have kept := bearerToken_keeps (a := a) (b := []) fun g among _ => by
    rw [List.append_nil]
    exact bearerToken_of_solid fun c listed => solid c (among.subset listed)
  rw [List.append_nil] at kept
  rw [kept, Pattern.replaceAll, List.append_nil]

/-- An entry in quotation marks stays as it is, but for what follows the value. -/
theorem bearerToken_keeps_quoted (secret : SecretName name) (apart : NoBearer head tail) (a : List Char) :
    bearerToken.replaceAll marker (a ++ quotedEntry name (head ++ tail)) =
      bearerToken.replaceAll marker a ++ quotedEntry name (head ++ bearerToken.replaceAll marker tail) := by
  have quote : bearerToken.avoids '"' = true := by decide
  have name_solid : ∀ c ∈ name, isBlank c = false := fun c listed => isBlank_of_folds (secret.chars c listed)
  have colon : bearerToken.replaceAll marker [':', ' '] = [':', ' '] := by
    rw [Pattern.replaceAll_of_none (by decide), Pattern.replaceAll_of_none (by decide), Pattern.replaceAll]
  have between : ∀ z, ':' :: ' ' :: '"' :: z = [':', ' '] ++ '"' :: z := fun z => rfl
  rw [quotedEntry, Pattern.replaceAll_before bearerToken_consumes quote,
    Pattern.replaceAll_before bearerToken_consumes quote, bearerToken_keeps_solid name_solid, between,
    Pattern.replaceAll_before bearerToken_consumes quote, colon, bearerToken_keeps apart, quotedEntry]
  rfl

/-- The pattern of bearer tokens up to where equals signs may follow. -/
def untilTokenEnd : Pattern := [.word [anyCase "bearer"], .some isBlank, .many isTokenChar]

theorem untilTokenEnd_at {c : Char} {a b : List Char} (solid : ∀ c ∈ a, isBlank c = false)
    (blank : isBlank c = true) :
    untilTokenEnd.rest? (a ++ c :: b) =
      if Pattern.rest? [.word [anyCase "bearer"]] a = some [] then
        some ((b.dropWhile isBlank).dropWhile isTokenChar) else none := by
  have parts : untilTokenEnd.rest? (a ++ c :: b) = Pattern.rest? ([.word [anyCase "bearer"]] ++
      .one isBlank :: [.many isBlank, .many isTokenChar]) (a ++ c :: b) :=
    Pattern.rest?_some_within [.word [anyCase "bearer"]] isBlank _ _
  rw [parts, Pattern.rest?_at_first (fun d => bearer_avoids_blank) solid blank]
  rfl

/-- A token that ends before a name does not reach into it. -/
theorem bearerRest_before {c : Char} (folds : isNameChar (fold c) = true) (b : List Char) {a : List Char}
    (goes_on : (a.dropWhile isBlank).dropWhile isTokenChar ≠ []) :
    bearerRest.rest? (a ++ c :: b) = (bearerRest.rest? a).map (· ++ c :: b) := by
  have no_equals : exactly '=' c = false := by
    rw [exactly, beq_eq_false_iff_ne]
    rintro rfl
    revert folds
    decide
  rw [bearerRest, Pattern.rest?_cons, Pattern.rest?_cons, Piece.rest?, Piece.rest?, Option.bind_some,
    Option.bind_some, dropWhile_before (isBlank_of_folds folds)]
  cases left : a.dropWhile isBlank with
  | nil =>
    rw [left] at goes_on
    exact absurd rfl goes_on
  | cons d r =>
    rw [left] at goes_on
    by_cases token : isTokenChar d = true
    · rw [List.dropWhile_cons_of_pos token] at goes_on
      have kept : (r ++ c :: b).dropWhile isTokenChar = r.dropWhile isTokenChar ++ c :: b := by
        rw [List.dropWhile_append, if_neg (by simpa using goes_on)]
      simp only [Pattern.rest?_cons, Piece.rest?, List.cons_append, token, if_true, Option.bind_some, kept,
        dropWhile_before no_equals]
      rfl
    · simp [Pattern.rest?_cons, Piece.rest?, token]

/-- An assignment stays as it is, but for what follows the value. -/
theorem bearerToken_keeps_entry (secret : SecretName name) (apart : NoBearer head tail) :
    bearerToken.replaceAll marker (assignedEntry name (head ++ tail)) =
      assignedEntry name (head ++ bearerToken.replaceAll marker tail) := by
  have parts : ∀ z, assignedEntry name z = (name ++ ['=']) ++ z := by simp [assignedEntry]
  rw [parts, parts, ← bearerToken_keeps apart]
  apply bearerToken_keeps
  intro g among some_text
  rcases List.suffix_concat_iff.1 among with rfl | ⟨g, rfl, within⟩
  · exact absurd rfl some_text
  · rw [List.append_assoc]
    exact bearerToken_of_assignment
      (fun c listed => isBlank_of_folds (secret.chars c (within.subset listed))) _

/-- Behind a text that does not leave a bearer token open, an assignment stays as it is, but for what follows the
value. -/
theorem bearerToken_keeps_assigned (secret : SecretName name) (apart : NoBearer head tail) {a : List Char}
    (closed : ¬ LeavesOpen bearerToken untilTokenEnd a) :
    bearerToken.replaceAll marker (a ++ assignedEntry name (head ++ tail)) =
      bearerToken.replaceAll marker a ++ assignedEntry name (head ++ bearerToken.replaceAll marker tail) := by
  rw [← bearerToken_keeps_entry secret apart]
  refine Pattern.replaceAll_append (fun z => ¬ LeavesOpen bearerToken untilTokenEnd z) bearerToken_consumes
    ?_ a closed
  intro c z closed
  refine ⟨?_, fun fails => mt (.later fails) closed, fun r taken => mt (.after taken) closed⟩
  rw [← List.cons_append, assignedEntry]
  rcases first_of isBlank (c :: z) with solid | ⟨f, d, b, parts, solid, blank⟩
  · have solid' : ∀ e ∈ c :: z ++ name, isBlank e = false :=
      List.forall_mem_append.2 ⟨solid, fun e listed => isBlank_of_folds (secret.chars e listed)⟩
    rw [bearerToken_of_solid solid, Option.map_none, ← List.append_assoc]
    exact bearerToken_of_assignment solid' _
  · obtain ⟨k, ks, rfl⟩ := List.exists_cons_of_ne_nil secret.ne_nil
    have front : ∀ y, f ++ d :: b ++ y = f ++ d :: (b ++ y) := by simp
    rw [parts, front, bearerToken_at solid blank, bearerToken_at solid blank]
    split
    · next word =>
      apply bearerRest_before (secret.chars k List.mem_cons_self)
      intro none_left
      apply closed
      apply LeavesOpen.here
      rw [parts, untilTokenEnd_at solid blank, if_pos word, none_left]
    · rfl

end

end HostControl.Redaction
