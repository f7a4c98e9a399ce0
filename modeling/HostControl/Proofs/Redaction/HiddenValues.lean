/-
Module: HostControl.Proofs.Redaction.HiddenValues
Purpose: What a sanitised text tells of a secret value in it: nothing of the characters up to the first one that
  ends values, unless the text before comes to its end where a value, or a token, is expected. In a quoted entry
  the value is hidden for all texts after it exactly if the text before does not do that.
Main exports: afterValue, ExpectsValue, ExpectsToken, quotedText, assignedText, Hides, sanitize_hides_values
-/
import HostControl.Proofs.Redaction.Narrowing
import HostControl.Proofs.Redaction.Tokens

namespace HostControl.Redaction

open Text

section

variable {name head tail : List Char}

/-! ### From the text as it comes -/

/-- What ends a value before the white space is narrowed ends it then, and what begins no bearer token begins
none then. -/
theorem endsValue_ending (ends : EndsValue tail) : EndsValue (ending tail) := by
  cases tail with
  | nil => exact ends
  | cons c b =>
    cases solid : isBlank c with
    | false =>
      rw [ending_of_solid solid]
      exact endsValue_cons.2 (endsValue_cons.1 ends)
    | true =>
      rcases ending_of_blank (b := b) solid with ⟨_, nothing⟩ | ⟨_, space⟩
      · rw [nothing]
        exact endsValue_nil
      · rw [space]
        exact endsValue_cons.2 (by decide)

/-- Whether a token follows a blank is told by the first character that is not blank. -/
theorem bearerRest_eq_none_iff (cs : List Char) :
    bearerRest.rest? cs = none ↔ ∀ c, (cs.dropWhile isBlank).head? = some c → isTokenChar c = false := by
  rw [bearerRest, Pattern.rest?_cons, Piece.rest?, Option.bind_some]
  cases cs.dropWhile isBlank with
  | nil => exact iff_of_true rfl fun c first => by cases first
  | cons c b => by_cases token : isTokenChar c = true <;> simp [Pattern.rest?, Piece.rest?, token]

theorem head?_dropWhile_squeeze (cs : List Char) :
    ((squeeze cs).dropWhile isBlank).head? = (cs.dropWhile isBlank).head? := by
  have first := head?_squeeze cs
  rw [← first]
  cases narrow : squeeze cs with
  | nil => rfl
  | cons c b =>
    have solid : isBlank c = false := by
      have stops := List.head?_dropWhile_not isBlank cs
      rw [← first, narrow] at stops
      exact (Bool.not_eq_true' _).mp (by simpa using stops)
    rw [List.dropWhile_cons_of_neg (by simp [solid])]

theorem noBearer_ending (value : IsValue head) (ends : EndsValue tail) (apart : NoBearer head tail) :
    NoBearer head (ending tail) := by
  intro g among some_text
  have solid : ∀ c ∈ g, isBlank c = false := fun c listed => solid_of_value (value.2 c (among.subset listed))
  have own := apart g among some_text
  cases tail with
  | nil => exact own
  | cons c b =>
    cases blank : isBlank c with
    | false =>
      rw [ending_of_solid blank]
      exact bearerToken_of_other (endsValue_cons.1 ends) blank solid _
    | true =>
      rcases ending_of_blank (b := b) blank with ⟨_, nothing⟩ | ⟨_, space⟩
      · rw [nothing, List.append_nil]
        exact bearerToken_of_solid solid
      · rw [bearerToken_at solid blank] at own
        rw [space, bearerToken_at solid (by decide)]
        split
        · next word =>
          rw [if_pos word, bearerRest_eq_none_iff, ← head?_dropWhile_squeeze] at own
          exact (bearerRest_eq_none_iff _).2 own
        · rfl

/-- A quotation mark behind a value keeps bearer tokens away from it. -/
theorem noBearer_quote (value : IsValue head) (b : List Char) : NoBearer head ('"' :: b) := by
  intro g among _
  exact bearerToken_of_other (by decide) (by decide)
    (fun c listed => solid_of_value (value.2 c (among.subset listed))) b

theorem endsValue_replaced (ends : EndsValue tail) : EndsValue (bearerToken.replaceAll marker tail) := by
  have fails := bearerToken_of_ends ends
  cases tail with
  | nil =>
    rw [Pattern.replaceAll]
    exact ends
  | cons c b =>
    rw [Pattern.replaceAll_of_none fails]
    exact endsValue_cons.2 (endsValue_cons.1 ends)

theorem ending_name (secret : SecretName name) (b : List Char) : ending (name ++ b) = name ++ ending b :=
  ending_word fun c listed => isBlank_of_folds (secret.chars c listed)

theorem ending_value (value : IsValue head) (b : List Char) : ending (head ++ b) = head ++ ending b :=
  ending_word fun c listed => solid_of_value (value.2 c listed)

theorem squeeze_quoted (secret : SecretName name) (value : IsValue head) (before tail : List Char) :
    squeeze (before ++ quotedEntry name (head ++ tail)) =
      narrowed true before ++ quotedEntry name (head ++ ending tail) := by
  have space : ∀ z, ending (' ' :: '"' :: z) = ' ' :: '"' :: ending z := fun z => by
    have quote : words ('"' :: z) ≠ [] := by
      apply words_ne_nil_of_squeeze
      rw [squeeze_of_word (by decide)]
      exact List.cons_ne_nil _ _
    rcases ending_of_blank (c := ' ') (b := '"' :: z) (by decide) with ⟨nothing, _⟩ | ⟨_, narrow⟩
    · exact absurd nothing quote
    · rw [narrow, squeeze_of_word (by decide)]
  rw [quotedEntry, (squeeze_append _ _ (by decide)).1, ending_name secret,
    ending_of_solid (by decide), ending_of_solid (by decide), space, ending_value value, quotedEntry]

theorem squeeze_assigned (secret : SecretName name) (value : IsValue head) (before tail : List Char) :
    squeeze (before ++ assignedEntry name (head ++ tail)) =
      narrowed true before ++ assignedEntry name (head ++ ending tail) := by
  have whole := ending_name secret ('=' :: (head ++ tail))
  rw [ending_of_solid (by decide), ending_value value] at whole
  obtain ⟨k, ks, rfl⟩ := List.exists_cons_of_ne_nil secret.ne_nil
  have first := isBlank_of_folds (secret.chars k List.mem_cons_self)
  rw [List.cons_append, ending_of_solid first] at whole
  rw [assignedEntry, List.cons_append, (squeeze_append _ _ first).1, (List.cons.inj whole).2]
  rfl

end

/-! ### What the redacted text depends on -/

namespace Valued

/-- A value on one line, with the bearer tokens behind it replaced. -/
def tokenless (v : Valued) : Valued where
  head := v.head
  tail := bearerToken.replaceAll marker (ending v.tail)
  value := v.value
  ends := endsValue_replaced (endsValue_ending v.ends)

end Valued

/-- What is left of a text that stands behind a value: it is redacted by itself, and a quotation mark at its
front goes with the value. -/
def afterValue (rest : List Char) : List Char :=
  webToken.replaceAll marker (keyedValue.replaceAll marker (unquote (bearerToken.replaceAll marker (ending rest))))

/-- What stands in place of a credential ends every web token before it. -/
theorem webToken_replaced (front : List Char) : ∃ front', ∀ v : Valued,
    webToken.replaceAll marker (front ++ v.tokenless.replaced) = front' ++ afterValue v.tail := by
  have bracket : marker = "[REDACTED".toList ++ [']'] := by decide
  refine ⟨webToken.replaceAll marker (front ++ "[REDACTED".toList) ++ [']'], fun v => ?_⟩
  rw [Valued.replaced]
  nth_rewrite 2 [bracket]
  have parts : front ++ ("[REDACTED".toList ++ [']'] ++
      keyedValue.replaceAll marker (unquote v.tokenless.tail)) = (front ++ "[REDACTED".toList) ++
        ']' :: keyedValue.replaceAll marker (unquote v.tokenless.tail) := by simp
  rw [parts, Pattern.replaceAll_before (by decide) (by decide), List.append_assoc]
  rfl

section

variable {name head tail : List Char}

/-- Behind a text that does not leave a value open, nothing of a quoted value is left. -/
theorem redact_hides_quoted (secret : SecretName name) {before : List Char}
    (closed : ¬ LeavesOpen keyedValue untilValue (bearerToken.replaceAll marker (narrowed true before))) :
    ∃ front, ∀ v : Valued, NoBearer v.head v.tail →
      redact (before ++ quotedEntry name v.text) = front ++ afterValue v.tail := by
  obtain ⟨front, keyed⟩ := keyedValue_hides_quoted secret closed
  obtain ⟨front', web⟩ := webToken_replaced front
  refine ⟨front', fun v apart => ?_⟩
  rw [redact, Valued.text, squeeze_quoted secret v.value,
    bearerToken_keeps_quoted secret (noBearer_ending v.value v.ends apart), ← web v, ← keyed v.tokenless]
  rfl

/-- Behind a text that does not leave a bearer token open, nothing of a value behind an equals sign is left. -/
theorem redact_hides_assigned (secret : SecretName name) {before : List Char}
    (closed : ¬ LeavesOpen bearerToken untilTokenEnd (narrowed true before)) :
    ∃ front, ∀ v : Valued, NoBearer v.head v.tail →
      redact (before ++ assignedEntry name v.text) = front ++ afterValue v.tail := by
  obtain ⟨front, keyed⟩ :=
    keyedValue_hides_assigned secret (bearerToken.replaceAll marker (narrowed true before))
  obtain ⟨front', web⟩ := webToken_replaced front
  refine ⟨front', fun v apart => ?_⟩
  rw [redact, Valued.text, squeeze_assigned secret v.value,
    bearerToken_keeps_assigned secret (noBearer_ending v.value v.ends apart) closed, ← web v,
    ← keyed v.tokenless]
  rfl

/-- No bearer token begins at a value of one character that is no letter of that word's beginning. -/
theorem noBearer_single {c : Char} (avoids : (Piece.word [anyCase "bearer"]).avoids c = true)
    (tail : List Char) : NoBearer [c] tail := by
  intro g among some_text
  obtain rfl : g = [c] := by
    rcases List.suffix_cons_iff.1 among with whole | nothing
    · exact whole
    · exact absurd (List.suffix_nil.1 nothing) some_text
  exact Pattern.rest?_of_front (by decide) avoids _

/-- Behind a text that leaves a value open, the first character of a quoted value is left as it is, if it is one
of two letters that begin no credential. -/
theorem redact_opened (secret : SecretName name) {before : List Char}
    (opens : LeavesOpen keyedValue untilValue (bearerToken.replaceAll marker (narrowed true before))) :
    ∃ front, ∀ c ∈ ['x', 'z'], ∀ tail, ∃ after,
      redact (before ++ quotedEntry name (c :: tail)) = front ++ c :: after := by
  obtain ⟨front, shows⟩ := keyedValue_shows_quoted secret opens
  have plain : ∀ c ∈ ['x', 'z'], isValueChar c = true ∧ exactly '"' c = false ∧
      (Piece.word (secretKeys.map anyCase)).avoids c = true ∧
      (Piece.word [anyCase "bearer"]).avoids c = true ∧
      (Piece.word [[exactly 'e', exactly 'y', exactly 'J']]).avoids c = true :=
    List.forall_mem_cons.2 ⟨by decide, List.forall_mem_singleton.2 (by decide)⟩
  refine ⟨webToken.replaceAll marker front ++ ':' :: (webToken.replaceAll marker [' '] ++ ['"']), ?_⟩
  intro c either tail
  obtain ⟨value, no_quote, no_name, no_bearer, no_token⟩ := plain c either
  have is_value : IsValue [c] := ⟨List.cons_ne_nil _ _, List.forall_mem_singleton.2 value⟩
  have web : ∀ b, webToken.rest? (c :: b) = none := Pattern.rest?_of_front (by decide) no_token
  have text := squeeze_quoted secret is_value before tail
  have kept := bearerToken_keeps_quoted secret (noBearer_single no_bearer (ending tail)) (narrowed true before)
  rw [List.singleton_append, List.singleton_append] at text kept
  refine ⟨webToken.replaceAll marker (keyedValue.replaceAll marker
    (bearerToken.replaceAll marker (ending tail))), ?_⟩
  -- The colon, the space and the quotation mark are part of no credential, and neither is the letter.
  rw [redact, text, kept, shows,
    Pattern.replaceAll_of_none (keyedValue_of_other (by decide) (by decide) _).1,
    Pattern.replaceAll_of_none (keyedValue_of_other (by decide) (by decide) _).1,
    Pattern.replaceAll_of_none (keyedValue_of_other no_name no_quote _).2,
    Pattern.replaceAll_of_none (keyedValue_of_other no_name no_quote _).1]
  have space : ∀ z, ' ' :: '"' :: z = [' '] ++ '"' :: z := fun z => rfl
  rw [Pattern.replaceAll_before (by decide) (by decide), space,
    Pattern.replaceAll_before (by decide) (by decide), Pattern.replaceAll_of_none (web _)]
  simp

/-- Behind a text that leaves a value open, values of a quoted entry show. -/
theorem redact_shows_quoted (secret : SecretName name) {before : List Char}
    (opens : LeavesOpen keyedValue untilValue (bearerToken.replaceAll marker (narrowed true before)))
    (tail : List Char) :
    redact (before ++ quotedEntry name ('x' :: tail)) ≠ redact (before ++ quotedEntry name ('z' :: tail)) := by
  obtain ⟨front, shown⟩ := redact_opened secret opens
  obtain ⟨after, x_shown⟩ := shown 'x' (by simp) tail
  obtain ⟨after', z_shown⟩ := shown 'z' (by simp) tail
  rw [x_shown, z_shown]
  intro same
  have letters := (List.cons.inj (List.append_cancel_left same)).1
  revert letters
  decide

end

/-! ### Texts with secret values -/

/-- The text comes to its end where the value of a secret is expected, as behind "password=". -/
def ExpectsValue (before : String) : Prop :=
  LeavesOpen keyedValue untilValue (bearerToken.replaceAll marker (narrowed true before.toList))

/-- The text comes to its end within a bearer token, or where one is expected. -/
def ExpectsToken (before : String) : Prop := LeavesOpen bearerToken untilTokenEnd (narrowed true before.toList)

/-- A text with a name and a value in quotation marks in it. -/
def quotedText (before name value rest : String) : String :=
  before ++ "\"" ++ name ++ "\": \"" ++ value ++ rest

/-- A text with a name, an equals sign and a value in it. -/
def assignedText (before name value rest : String) : String := before ++ name ++ "=" ++ value ++ rest

theorem quotedText_toList (before name value rest : String) : (quotedText before name value rest).toList =
    before.toList ++ quotedEntry name.toList (value.toList ++ rest.toList) := by
  simp [quotedText, quotedEntry]

theorem assignedText_toList (before name value rest : String) :
    (assignedText before name value rest).toList =
      before.toList ++ assignedEntry name.toList (value.toList ++ rest.toList) := by
  simp [assignedText, assignedEntry]

/-- Nothing of a value is left in a redacted text, which has the same beginning for all values, and then what is
left of the text behind the value. -/
def Hides (text : String → String → String) : Prop :=
  ∃ front, ∀ value rest : String, IsValue value.toList → EndsValue rest.toList →
    NoBearer value.toList rest.toList → redact (text value rest).toList = front ++ afterValue rest.toList

theorem Hides.sanitize_eq {text : String → String → String} (hides : Hides text) {value₁ value₂ rest : String}
    (is_value₁ : IsValue value₁.toList) (is_value₂ : IsValue value₂.toList) (ends : EndsValue rest.toList)
    (apart₁ : NoBearer value₁.toList rest.toList) (apart₂ : NoBearer value₂.toList rest.toList) :
    sanitize (text value₁ rest) = sanitize (text value₂ rest) := by
  obtain ⟨front, hidden⟩ := hides
  rw [sanitize, sanitize, hidden _ _ is_value₁ ends apart₁, hidden _ _ is_value₂ ends apart₂]

/-- What a sanitised text tells of the value of a secret. Unless the text before a quoted entry ends where a
value is expected, nothing of the value is left up to the first character that ends values, and nothing at all
if the quotation mark is that character; and if the text before does end so, the value shows. Unless the text
before an assignment ends within a bearer token, or where one is expected, nothing of the value is left there
either. In both cases no bearer token may begin in the value. -/
theorem sanitize_hides_values (before name : String) (secret : SecretName name.toList) :
    (¬ ExpectsValue before →
      (∀ value₁ value₂ after : String, IsValue value₁.toList → IsValue value₂.toList →
        sanitize (quotedText before name value₁ ("\"" ++ after)) =
          sanitize (quotedText before name value₂ ("\"" ++ after))) ∧
      Hides (quotedText before name)) ∧
    (ExpectsValue before → ∀ rest : String,
      redact (quotedText before name "x" rest).toList ≠ redact (quotedText before name "z" rest).toList) ∧
    (¬ ExpectsToken before →
      (∀ value₁ value₂ after : String, IsValue value₁.toList → IsValue value₂.toList →
        NoBearer value₁.toList (" " ++ after).toList → NoBearer value₂.toList (" " ++ after).toList →
        sanitize (assignedText before name value₁ (" " ++ after)) =
          sanitize (assignedText before name value₂ (" " ++ after))) ∧
      Hides (assignedText before name)) := by
  refine ⟨fun closed => ?quoted, fun opens rest => ?opened, fun closed => ?assigned⟩
  case quoted =>
    have hides : Hides (quotedText before name) := by
      obtain ⟨front, hidden⟩ := redact_hides_quoted secret closed
      refine ⟨front, fun value rest is_value ends apart => ?_⟩
      rw [quotedText_toList]
      exact hidden ⟨value.toList, rest.toList, is_value, ends⟩ apart
    refine ⟨fun value₁ value₂ after is_value₁ is_value₂ => ?_, hides⟩
    have quote : ("\"" ++ after).toList = '"' :: after.toList := by simp
    apply hides.sanitize_eq is_value₁ is_value₂
    · rw [quote]
      exact endsValue_cons.2 (by decide)
    · rw [quote]
      exact noBearer_quote is_value₁ _
    · rw [quote]
      exact noBearer_quote is_value₂ _
  case opened =>
    rw [quotedText_toList, quotedText_toList]
    exact redact_shows_quoted secret opens rest.toList
  case assigned =>
    have hides : Hides (assignedText before name) := by
      obtain ⟨front, hidden⟩ := redact_hides_assigned secret closed
      refine ⟨front, fun value rest is_value ends apart => ?_⟩
      rw [assignedText_toList]
      exact hidden ⟨value.toList, rest.toList, is_value, ends⟩ apart
    refine ⟨fun value₁ value₂ after is_value₁ is_value₂ apart₁ apart₂ => ?_, hides⟩
    have space : (" " ++ after).toList = ' ' :: after.toList := by simp
    have ends : EndsValue (" " ++ after).toList := by
      rw [space]
      exact endsValue_cons.2 (by decide)
    exact hides.sanitize_eq is_value₁ is_value₂ ends apart₁ apart₂

/-- A password in an answer of a service, in quotation marks and as a parameter. -/
theorem sanitize_hides_values_password :
    SecretName "Password".toList ∧
    sanitize (quotedText "denied: " "Password" "hunter2" ("\"" ++ ", try later")) =
      sanitize (quotedText "denied: " "Password" "x" ("\"" ++ ", try later")) ∧
    (∃ front, redact (quotedText "denied: " "Password" "hunter2" " and more\"").toList =
      front ++ " and more\"".toList) ∧
    redact (quotedText "secret=" "Password" "x" "\"").toList ≠
      redact (quotedText "secret=" "Password" "z" "\"").toList ∧
    sanitize (assignedText "denied: " "Password" "hunter2" (" " ++ "was given")) =
      sanitize (assignedText "denied: " "Password" "x" (" " ++ "was given")) := by
  have secret : SecretName "Password".toList := ⟨"password", by decide, by decide⟩
  have value : ∀ v ∈ ["hunter2", "x"], IsValue v.toList := by decide +kernel
  have no_value : ¬ ExpectsValue "denied: " := not_leavesOpen (by decide +kernel)
  have no_token : ¬ ExpectsToken "denied: " := not_leavesOpen (by decide +kernel)
  have expects : ExpectsValue "secret=" := .here (by decide +kernel)
  have ends : EndsValue " and more\"".toList := endsValue_cons.2 (by decide)
  have left : afterValue " and more\"".toList = " and more\"".toList := by decide +kernel
  obtain ⟨closed, _, closed'⟩ := sanitize_hides_values "denied: " "Password" secret
  obtain ⟨hidden, front, shown⟩ := closed no_value
  refine ⟨secret, ?_, ⟨front, ?_⟩, ?_, ?_⟩
  · exact hidden _ _ _ (value _ (by simp)) (value _ (by simp))
  · rw [shown _ _ (value _ (by simp)) ends (by decide), left]
  · exact (sanitize_hides_values "secret=" "Password" secret).2.1 expects "\""
  · exact (closed' no_token).1 _ _ _ (value _ (by simp)) (value _ (by simp)) (by decide) (by decide)

/-- Values show behind a character that ends values, behind a name before the entry, behind a token before the
name, and where they end in the word "bearer". -/
theorem sanitize_shows_values :
    sanitize (quotedText "" "password" "abc def" "\"") ≠ sanitize (quotedText "" "password" "abc" "\"") ∧
    sanitize (quotedText "secret=" "password" "abc" "\"") ≠
      sanitize (quotedText "secret=" "password" "abd" "\"") ∧
    sanitize (assignedText "bearer " "password" "abc" " ") ≠
      sanitize (assignedText "bearer " "password" "abd" " ") ∧
    sanitize (assignedText "" "password" "bearer" " abc") ≠
      sanitize (assignedText "" "password" "abc" " abc") := by
  decide +kernel

end HostControl.Redaction
