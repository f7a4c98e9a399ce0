/-
Module: HostControl.Proofs.Redaction.Credentials
Purpose: Where the patterns of credentials match. A bearer token is found by its first blank, a secret value
  by the first colon or equals sign; a value reaches up to the first character that ends values.
Main exports: SecretName, EndsValue, unquote, bearerToken_at, keyedValue_at, value_rest?, value_rest?_none
-/
import HostControl.Proofs.Redaction.Matching
import HostControl.Redaction.Credentials

namespace HostControl.Redaction

open Text

/-! ### Characters of names -/

/-- A name of a secret, its letters in any case. -/
def SecretName (name : List Char) : Prop := ∃ key ∈ secretKeys, name.map fold = key.toList

/-- Lower-case letters, and what joins the words of a name. -/
def isNameChar (l : Char) : Bool := isLower l || l == '_'

/-- Colons and equals signs, one of which stands between a name and its value. -/
def isSeparator (c : Char) : Bool := c == ':' || c == '='

variable {c : Char} {name : List Char}

theorem fold_of_blank (blank : isBlank c = true) : fold c = c := by
  have small : ¬ (65 ≤ c.toNat ∧ c.toNat ≤ 90) := by
    intro upper
    simp only [isBlank, Bool.or_eq_true, Bool.and_eq_true, decide_eq_true_eq, beq_iff_eq] at blank
    omega
  have long_s : c ≠ '\u017f' := by
    rintro rfl
    revert blank
    decide
  have kelvin : c ≠ '\u212a' := by
    rintro rfl
    revert blank
    decide
  rw [fold, if_neg small, if_neg long_s, if_neg kelvin]

theorem isBlank_of_isNameChar (name : isNameChar c = true) : isBlank c = false := by
  cases blank : isBlank c with
  | false => rfl
  | true =>
    simp only [isNameChar, isLower, Bool.or_eq_true, Bool.and_eq_true, decide_eq_true_eq, beq_iff_eq] at name
    rcases name with ⟨low, high⟩ | rfl
    · simp only [isBlank, Bool.or_eq_true, Bool.and_eq_true, decide_eq_true_eq, beq_iff_eq] at blank
      omega
    · revert blank
      decide

theorem isNameChar_of_secret : ∀ key ∈ secretKeys, ∀ l ∈ key.toList, isNameChar l = true := by
  have names : (secretKeys.all fun key => key.toList.all isNameChar) = true := by decide
  simpa only [List.all_eq_true] using names

/-- What a name of a secret is made of. -/
theorem SecretName.chars (secret : SecretName name) : ∀ c ∈ name, isNameChar (fold c) = true := by
  intro c listed
  obtain ⟨key, known, same⟩ := secret
  apply isNameChar_of_secret key known
  rw [← same]
  exact List.mem_map_of_mem listed

theorem SecretName.ne_nil (secret : SecretName name) : name ≠ [] := by
  rintro rfl
  obtain ⟨key, known, same⟩ := secret
  have some_chars : ∀ key ∈ secretKeys, key.toList ≠ [] := by decide
  exact some_chars key known same.symm

section

variable (folds : isNameChar (fold c) = true)

include folds

theorem isBlank_of_folds : isBlank c = false := by
  cases blank : isBlank c with
  | false => rfl
  | true =>
    have solid := isBlank_of_isNameChar folds
    rw [fold_of_blank blank, blank] at solid
    exact solid

theorem isValueChar_of_folds : isValueChar c = true := by
  have others : (['"', ',', '&', '\x7d'].all fun d => isNameChar (fold d) == false) = true := by decide
  simp only [List.all_eq_true, beq_iff_eq] at others
  simp only [isValueChar, Bool.not_eq_true', Bool.or_eq_false_iff, isBlank_of_folds folds, beq_eq_false_iff_ne,
    and_true]
  refine ⟨⟨⟨?_, ?_⟩, ?_⟩, ?_⟩
  all_goals
    rintro rfl
    rw [others _ (by simp)] at folds
    cases folds

theorem isSeparator_of_folds : isSeparator c = false := by
  have others : ([':', '='].all fun d => isNameChar (fold d) == false) = true := by decide
  simp only [List.all_eq_true, beq_iff_eq] at others
  simp only [isSeparator, Bool.or_eq_false_iff, beq_eq_false_iff_ne]
  constructor
  all_goals
    rintro rfl
    rw [others _ (by simp)] at folds
    cases folds

end

/-! ### Words in any case -/

/-- A word in any case fits where the folded text begins with it. -/
theorem afterWord_letters (ls cs : List Char) :
    afterWord (ls.map letter) cs = if ls <+: cs.map fold then some (cs.drop ls.length) else none := by
  induction ls generalizing cs with
  | nil => simp [afterWord]
  | cons l ls ih =>
    cases cs with
    | nil => simp [afterWord]
    | cons c cs =>
      rw [List.map_cons, afterWord, ih]
      by_cases same : fold c = l
      · simp [letter, same]
      · simp [letter, same, Ne.symm same]

/-- No name of a secret begins with another one. -/
theorem secretKeys_apart : ∀ key ∈ secretKeys, ∀ other ∈ secretKeys, other.toList <+: key.toList →
    other = key := by decide

/-- A name of a secret is taken as a whole. -/
theorem SecretName.rest? (secret : SecretName name) :
    (Piece.word (secretKeys.map anyCase)).rest? name = some [] := by
  obtain ⟨key, known, same⟩ := secret
  have whole : name.drop key.toList.length = [] := by rw [← same, List.length_map, List.drop_length]
  have fits : afterWord (anyCase key) name = some [] := by
    rw [anyCase, afterWord_letters, same, if_pos (List.prefix_refl _), whole]
  rw [Piece.rest?, List.findSome?_map]
  cases found : secretKeys.findSome? ((afterWord · name) ∘ anyCase) with
  | none =>
    rw [List.findSome?_eq_none_iff] at found
    rw [← fits]
    exact (found key known).symm
  | some after =>
    obtain ⟨other, known', fits'⟩ := List.exists_of_findSome?_eq_some found
    rw [Function.comp, anyCase, afterWord_letters, same, Option.ite_none_right_eq_some] at fits'
    obtain rfl := secretKeys_apart key known other known' fits'.1
    rw [← fits'.2, whole]

/-! ### Bearer tokens -/

/-- What follows the word "bearer" and a blank. -/
def bearerRest : Pattern := [.many isBlank, .some isTokenChar, .many (exactly '=')]

theorem bearerToken_consumes : bearerToken.consumes = true := by decide

theorem bearerToken_eq (cs : List Char) : bearerToken.rest? cs =
    Pattern.rest? ([.word [anyCase "bearer"]] ++ .one isBlank :: bearerRest) cs :=
  Pattern.rest?_some_within [.word [anyCase "bearer"]] isBlank _ cs

theorem bearer_avoids_blank (blank : isBlank c = true) :
    Pattern.avoids c [.word [anyCase "bearer"]] = true := by
  have other : ∀ l ∈ "bearer".toList, fold c ≠ l := by
    intro l listed same
    have letters : "bearer".toList.all isNameChar = true := by decide
    have solid := isBlank_of_isNameChar (List.all_eq_true.1 letters l listed)
    rw [← same, fold_of_blank blank, blank] at solid
    cases solid
  simp only [Pattern.avoids, List.all_cons, List.all_nil, Bool.and_true, Piece.avoids, anyCase,
    List.all_map, List.all_eq_true, Function.comp, letter, Bool.not_eq_true', beq_eq_false_iff_ne]
  exact other

/-- The first blank tells whether the text begins with a bearer token. -/
theorem bearerToken_at {a b : List Char} (solid : ∀ c ∈ a, isBlank c = false) (blank : isBlank c = true) :
    bearerToken.rest? (a ++ c :: b) =
      if Pattern.rest? [.word [anyCase "bearer"]] a = some [] then bearerRest.rest? b else none := by
  rw [bearerToken_eq]
  exact Pattern.rest?_at_first (fun d => bearer_avoids_blank) solid blank

theorem bearerToken_of_solid {cs : List Char} (solid : ∀ c ∈ cs, isBlank c = false) :
    bearerToken.rest? cs = none := by
  rw [bearerToken_eq]
  exact Pattern.rest?_of_clear solid

/-! ### Secret values -/

/-- Where no value goes on. -/
def EndsValue (cs : List Char) : Prop := ∀ c, cs.head? = some c → isValueChar c = false

theorem endsValue_nil : EndsValue [] := nofun

@[simp] theorem endsValue_cons {cs : List Char} : EndsValue (c :: cs) ↔ isValueChar c = false :=
  ⟨fun ends => ends c rfl, fun other _ first => Option.some.inj first ▸ other⟩

/-- A text without a quotation mark at its front. -/
def unquote : List Char → List Char
  | [] => []
  | c :: cs => if c == '"' then cs else c :: cs

/-- A name, and quotation marks around it. -/
def keyedHead : Pattern :=
  [.maybe (exactly '"'), .word (secretKeys.map anyCase), .maybe (exactly '"'), .many isBlank]

/-- A value, and quotation marks around it. -/
def keyedRest : Pattern := [.maybe (exactly '"'), .some isValueChar, .maybe (exactly '"')]

theorem keyedValue_consumes : keyedValue.consumes = true := by decide

theorem keyedHead_avoids (separates : isSeparator c = true) : keyedHead.avoids c = true := by
  simp only [isSeparator, Bool.or_eq_true, beq_iff_eq] at separates
  rcases separates with rfl | rfl <;> decide

theorem keyedValue_eq : keyedValue = keyedHead ++ .one isSeparator :: (.many isBlank :: keyedRest) := rfl

/-- The first colon or equals sign tells whether the text begins with a secret value. -/
theorem keyedValue_at {a b : List Char} (clear : ∀ c ∈ a, isSeparator c = false)
    (separates : isSeparator c = true) :
    keyedValue.rest? (a ++ c :: b) =
      if keyedHead.rest? a = some [] then keyedRest.rest? (b.dropWhile isBlank) else none := by
  rw [keyedValue_eq]
  exact Pattern.rest?_at_first (fun d => keyedHead_avoids) clear separates

theorem keyedValue_of_clear {cs : List Char} (clear : ∀ c ∈ cs, isSeparator c = false) :
    keyedValue.rest? cs = none := by
  rw [keyedValue_eq]
  exact Pattern.rest?_of_clear clear

@[simp] theorem unquote_quote (cs : List Char) : unquote ('"' :: cs) = cs := rfl

theorem maybe_quote (cs : List Char) : (Piece.maybe (exactly '"')).rest? cs = some (unquote cs) := by
  cases cs with
  | nil => rfl
  | cons c cs => rfl

theorem unquote_append {a : List Char} (some_front : a ≠ []) (b : List Char) :
    unquote (a ++ b) = unquote a ++ b := by
  cases a with
  | nil => exact absurd rfl some_front
  | cons c a =>
    rw [List.cons_append, unquote, unquote]
    split <;> rfl

theorem unquote_of_value (value : isValueChar c = true) (cs : List Char) : unquote (c :: cs) = c :: cs := by
  rw [unquote, if_neg]
  intro quote
  rw [beq_iff_eq] at quote
  rw [quote] at value
  revert value
  decide

theorem dropWhile_value {v t : List Char} (value : ∀ c ∈ v, isValueChar c = true) (ends : EndsValue t) :
    (v ++ t).dropWhile isValueChar = t := by
  rw [List.dropWhile_append_of_pos value]
  cases t with
  | nil => rfl
  | cons c t => rw [List.dropWhile_cons_of_neg (by simp [endsValue_cons.1 ends])]

/-- A value is taken as a whole, and so is the quotation mark after it. -/
theorem value_rest? {cs v t : List Char} (begins : unquote cs = v ++ t) (some_value : v ≠ [])
    (value : ∀ c ∈ v, isValueChar c = true) (ends : EndsValue t) : keyedRest.rest? cs = some (unquote t) := by
  cases v with
  | nil => exact absurd rfl some_value
  | cons c v =>
    have rest := dropWhile_value (fun d listed => value d (List.mem_cons_of_mem _ listed)) ends
    rw [keyedRest, Pattern.rest?_cons, maybe_quote, Option.bind_some, begins, Pattern.rest?_cons,
      List.cons_append, Piece.rest?, if_pos (value c List.mem_cons_self), Option.bind_some, rest,
      Pattern.rest?_cons, maybe_quote]
    rfl

/-- Where no value begins there is none. -/
theorem value_rest?_none {cs : List Char} (ends : EndsValue (unquote cs)) : keyedRest.rest? cs = none := by
  rw [keyedRest, Pattern.rest?_cons, maybe_quote, Option.bind_some, Pattern.rest?_cons]
  cases begins : unquote cs with
  | nil => rfl
  | cons c cs =>
    rw [Piece.rest?, if_neg (by simp [ends c (by rw [begins]; rfl)])]
    rfl

/-! ### Names in front of values -/

/-- A name, with a quotation mark before it, after it, or both, is taken as a whole. -/
theorem SecretName.keyedHead_rest? (secret : SecretName name) :
    keyedHead.rest? name = some [] ∧ keyedHead.rest? (name ++ ['"']) = some [] ∧
      keyedHead.rest? ('"' :: (name ++ ['"'])) = some [] := by
  have avoids : (Piece.word (secretKeys.map anyCase)).avoids '"' = true := by decide
  have quoted : (Piece.word (secretKeys.map anyCase)).rest? (name ++ ['"']) = some ['"'] := by
    rw [Piece.rest?_before avoids, secret.rest?]
    rfl
  obtain ⟨c, cs, rfl⟩ := List.exists_cons_of_ne_nil secret.ne_nil
  have value := isValueChar_of_folds (secret.chars c List.mem_cons_self)
  refine ⟨?_, ?_, ?_⟩
  · rw [keyedHead, Pattern.rest?_cons, maybe_quote, unquote_of_value value, Option.bind_some,
      Pattern.rest?_cons, secret.rest?]
    rfl
  · rw [keyedHead, Pattern.rest?_cons, maybe_quote, List.cons_append, unquote_of_value value,
      Option.bind_some, Pattern.rest?_cons, ← List.cons_append, quoted]
    rfl
  · rw [keyedHead, Pattern.rest?_cons, maybe_quote, unquote_quote, Option.bind_some, Pattern.rest?_cons,
      quoted]
    rfl

end HostControl.Redaction
