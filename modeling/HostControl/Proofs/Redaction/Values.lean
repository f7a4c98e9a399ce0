/-
Module: HostControl.Proofs.Redaction.Values
Purpose: What the replacing of secret values makes of a name with a value behind it, whatever stands before.
  Of an assignment the value is never left. Of a quoted entry it is left where the text before comes to its end
  while a value is expected, so that the quotation mark and the name are taken for that value.
Main exports: LeavesOpen, IsValue, Valued, assignedEntry, keyedValue_hides_assigned, quotedEntry, untilValue,
  keyedValue_hides_quoted, keyedValue_shows_quoted
-/
import HostControl.Proofs.Redaction.Credentials
import Mathlib.Data.List.Infix

namespace HostControl.Redaction

open Text

/-! ### Texts that leave a pattern open -/

/-- Where a text comes to its end while a match is under way, after the part of the pattern that is called its
stub. -/
inductive LeavesOpen (p stub : Pattern) : List Char → Prop where
  | here {cs : List Char} : stub.rest? cs = some [] → LeavesOpen p stub cs
  | after {cs rest : List Char} : p.rest? cs = some rest → LeavesOpen p stub rest → LeavesOpen p stub cs
  | later {c : Char} {cs : List Char} :
      p.rest? (c :: cs) = none → LeavesOpen p stub cs → LeavesOpen p stub (c :: cs)

/-- A text leaves no pattern open that matches nowhere in it, not even its stub up to the end. -/
theorem not_leavesOpen {p stub : Pattern} {cs : List Char}
    (nowhere : ∀ g ∈ cs.tails, p.rest? g = none ∧ stub.rest? g ≠ some []) : ¬ LeavesOpen p stub cs := by
  intro opens
  have whole := nowhere _ ((List.mem_tails ..).2 (List.suffix_refl _))
  induction opens with
  | here ends => exact whole.2 ends
  | after taken _ _ =>
    rw [whole.1] at taken
    cases taken
  | later _ _ ih =>
    have nowhere' := fun g among => nowhere g ((List.mem_tails ..).2 (List.suffix_cons_iff.2 (.inr among)))
    apply ih
    · exact fun g listed => nowhere' g ((List.mem_tails ..).1 listed)
    · exact nowhere' _ (List.suffix_refl _)

/-- A text either has no character of a set, or a first one. -/
theorem first_of (set : CharSet) (cs : List Char) :
    (∀ c ∈ cs, set c = false) ∨
      ∃ a d b, cs = a ++ d :: b ∧ (∀ c ∈ a, set c = false) ∧ set d = true := by
  induction cs with
  | nil => exact .inl nofun
  | cons c cs ih =>
    cases fits : set c with
    | true => exact .inr ⟨[], c, cs, rfl, nofun, fits⟩
    | false =>
      rcases ih with clear | ⟨a, d, b, rfl, clear, here⟩
      · exact .inl (List.forall_mem_cons.2 ⟨fits, clear⟩)
      · exact .inr ⟨c :: a, d, b, rfl, List.forall_mem_cons.2 ⟨fits, clear⟩, here⟩

/-- A text begins with some characters of a value, or none, and then with what ends a value. -/
theorem value_first (cs : List Char) :
    ∃ v r, cs = v ++ r ∧ (∀ c ∈ v, isValueChar c = true) ∧ EndsValue r := by
  rcases first_of (fun c => !isValueChar c) cs with value | ⟨v, d, r, rfl, value, other⟩
  · refine ⟨cs, [], (List.append_nil _).symm, ?_, nofun⟩
    intro c listed
    exact (Bool.not_eq_false' _).mp (value c listed)
  · refine ⟨v, d :: r, rfl, fun c listed => (Bool.not_eq_false' _).mp (value c listed), ?_⟩
    exact endsValue_cons.2 ((Bool.not_eq_true' _).mp other)

section

variable {name : List Char}

/-- Characters of a value, at least one. -/
def IsValue (cs : List Char) : Prop := cs ≠ [] ∧ ∀ c ∈ cs, isValueChar c = true

instance (cs : List Char) : Decidable (IsValue cs) :=
  decidable_of_iff (cs ≠ [] ∧ cs.all isValueChar = true) (and_congr_right' List.all_eq_true)

theorem solid_of_value {c : Char} (value : isValueChar c = true) : isBlank c = false := by
  cases blank : isBlank c with
  | false => rfl
  | true => simp [isValueChar, blank] at value

/-- A value, and what stands behind it. -/
structure Valued where
  head : List Char
  tail : List Char
  value : IsValue head
  ends : EndsValue tail

namespace Valued

def text (v : Valued) : List Char := v.head ++ v.tail

/-- What becomes of a value and of what stands behind it: a quotation mark after the value goes with it. -/
def replaced (v : Valued) : List Char := marker ++ keyedValue.replaceAll marker (unquote v.tail)

variable (v : Valued)

theorem exists_cons : ∃ c cs, v.text = c :: cs ∧ isValueChar c = true := by
  obtain ⟨c, cs, same⟩ := List.exists_cons_of_ne_nil v.value.1
  exact ⟨c, cs ++ v.tail, by rw [text, same, List.cons_append], v.value.2 c (same ▸ List.mem_cons_self)⟩

theorem unquote_append_text (b : List Char) : unquote (b ++ v.text) = unquote b ++ v.text := by
  cases b with
  | nil =>
    obtain ⟨c, cs, same, value⟩ := v.exists_cons
    rw [List.nil_append, same, unquote_of_value value]
    rfl
  | cons c b => exact unquote_append (List.cons_ne_nil _ _) _

theorem dropWhile_append_text (b : List Char) :
    (b ++ v.text).dropWhile isBlank = b.dropWhile isBlank ++ v.text := by
  obtain ⟨c, cs, same, value⟩ := v.exists_cons
  rw [same, dropWhile_before (solid_of_value value)]

/-- A value is taken as a whole, with a quotation mark before it or without. -/
theorem rest? {cs : List Char} (begins : unquote cs = v.text) : keyedRest.rest? cs = some (unquote v.tail) :=
  value_rest? begins v.value.1 v.value.2 v.ends

theorem replaceAll_eq {cs : List Char} (taken : keyedValue.rest? cs = some (unquote v.tail)) :
    keyedValue.replaceAll marker cs = v.replaced := Pattern.replaceAll_of_some keyedValue_consumes taken

/-- A value with more characters of values in front. -/
def extended (front : List Char) (value : ∀ c ∈ front, isValueChar c = true) : Valued where
  head := front ++ v.head
  tail := v.tail
  value := ⟨List.append_ne_nil_of_right_ne_nil _ v.value.1, List.forall_mem_append.2 ⟨value, v.value.2⟩⟩
  ends := v.ends

theorem extended_text (front : List Char) (value : ∀ c ∈ front, isValueChar c = true) :
    (v.extended front value).text = front ++ v.text := List.append_assoc ..

end Valued

/-- Where a value is looked for in a text before a value, there is none, or it goes on with the other one, or it
ends before. -/
theorem value_across (b : List Char) :
    (∀ v : Valued, keyedRest.rest? (b ++ v.text) = none) ∨
      (∀ v : Valued, keyedRest.rest? (b ++ v.text) = some (unquote v.tail)) ∨
      ∃ r, ∀ v : Valued, keyedRest.rest? (b ++ v.text) = some (r ++ v.text) := by
  obtain ⟨u, r, begins, front, stops⟩ := value_first (unquote b)
  cases r with
  | nil =>
    refine .inr (.inl fun v => (v.extended u front).rest? ?_)
    rw [v.unquote_append_text, begins, v.extended_text, List.append_nil]
  | cons d r =>
    cases u with
    | nil =>
      refine .inl fun v => value_rest?_none ?_
      rw [v.unquote_append_text, begins]
      exact endsValue_cons.2 (endsValue_cons.1 stops)
    | cons c u =>
      refine .inr (.inr ⟨unquote (d :: r), fun v => ?_⟩)
      rw [← unquote_append (List.cons_ne_nil _ _)]
      refine value_rest? (v := c :: u) ?_ (List.cons_ne_nil _ _) front
        (endsValue_cons.2 (endsValue_cons.1 stops))
      rw [v.unquote_append_text, begins, List.append_assoc]

/-! ### Values behind an equals sign -/

/-- A name, an equals sign, and what stands behind. -/
def assignedEntry (name rest : List Char) : List Char := name ++ '=' :: rest

/-- A name, an equals sign and a value look like a value. -/
def Valued.assigned (secret : SecretName name) (v : Valued) : Valued :=
  v.extended (name ++ ['=']) (List.forall_mem_append.2
    ⟨fun c listed => isValueChar_of_folds (secret.chars c listed), List.forall_mem_singleton.2 (by decide)⟩)

theorem Valued.assigned_text (secret : SecretName name) (v : Valued) :
    (v.assigned secret).text = assignedEntry name v.text := by
  rw [assigned, extended_text, assignedEntry, List.append_assoc, List.singleton_append]

/-- Whether a value stands behind a text without separators and a name. -/
theorem keyedValue_assigned (secret : SecretName name) (v : Valued) {a : List Char}
    (clear : ∀ c ∈ a, isSeparator c = false) :
    keyedValue.rest? (a ++ assignedEntry name v.text) =
      if keyedHead.rest? (a ++ name) = some [] then some (unquote v.tail) else none := by
  have clear' : ∀ c ∈ a ++ name, isSeparator c = false :=
    List.forall_mem_append.2 ⟨clear, fun c listed => isSeparator_of_folds (secret.chars c listed)⟩
  have solid : v.text.dropWhile isBlank = v.text := v.dropWhile_append_text []
  have bare : unquote v.text = v.text := v.unquote_append_text []
  rw [assignedEntry, ← List.append_assoc, keyedValue_at clear' (by decide), solid, v.rest? bare]

/-- Whatever stands before a name, an equals sign and a value, what becomes of it does not depend on the
value. -/
theorem keyedValue_hides_assigned (secret : SecretName name) (a : List Char) :
    ∃ front, ∀ v : Valued, keyedValue.replaceAll marker (a ++ assignedEntry name v.text) =
      front ++ v.replaced := by
  apply Pattern.replaceAll_front (fun _ => True) keyedValue_consumes
  case a => trivial
  case base =>
    refine ⟨[], fun v => v.replaceAll_eq ?_⟩
    have whole := keyedValue_assigned secret v (a := []) nofun
    rwa [List.nil_append, List.nil_append, if_pos secret.keyedHead_rest?.1] at whole
  case alike =>
    intro c a _
    simp only [← List.cons_append]
    rcases first_of isSeparator (c :: a) with clear | ⟨f, d, b, parts, clear, separates⟩
    · simp only [keyedValue_assigned secret _ clear]
      by_cases named : keyedHead.rest? (c :: a ++ name) = some []
      · refine .inr (.inr ⟨[], fun v => v.replaceAll_eq ?_⟩)
        rw [keyedValue_assigned secret v clear, if_pos named]
      · exact .inl ⟨trivial, fun v => if_neg named⟩
    · have across : ∀ v : Valued, keyedValue.rest? (c :: a ++ assignedEntry name v.text) =
          if keyedHead.rest? f = some [] then
            keyedRest.rest? (b.dropWhile isBlank ++ (v.assigned secret).text) else none := by
        intro v
        rw [parts, List.append_assoc, List.cons_append, keyedValue_at clear separates,
          ← v.assigned_text secret, Valued.dropWhile_append_text]
      by_cases named : keyedHead.rest? f = some []
      · simp only [if_pos named] at across
        rcases value_across (b.dropWhile isBlank) with none_there | taken | ⟨r, before⟩
        · exact .inl ⟨trivial, fun v => (across v).trans (none_there _)⟩
        · exact .inr (.inr ⟨[], fun v => v.replaceAll_eq ((across v).trans (taken _))⟩)
        · refine .inr (.inl ⟨r, trivial, fun v => ?_⟩)
          rw [across, before, v.assigned_text secret]
      · exact .inl ⟨trivial, fun v => (across v).trans (if_neg named)⟩

/-! ### Values between quotation marks -/

/-- A name in quotation marks, a colon, a space and a quotation mark, and what stands behind. -/
def quotedEntry (name rest : List Char) : List Char := '"' :: (name ++ '"' :: ':' :: ' ' :: '"' :: rest)

/-- The pattern of secret values up to where the value begins, or the quotation mark before it. -/
def untilValue : Pattern := keyedHead ++ [.one isSeparator, .many isBlank]

theorem untilValue_at {c : Char} {a b : List Char} (clear : ∀ c ∈ a, isSeparator c = false)
    (separates : isSeparator c = true) :
    untilValue.rest? (a ++ c :: b) = if keyedHead.rest? a = some [] then some (b.dropWhile isBlank) else none := by
  rw [untilValue, Pattern.rest?_at_first (fun d => keyedHead_avoids) clear separates]
  rfl

theorem keyedValue_quoted (v : Valued) {a : List Char} (clear : ∀ c ∈ a, isSeparator c = false) :
    keyedValue.rest? (a ++ ':' :: ' ' :: '"' :: v.text) =
      if keyedHead.rest? a = some [] then some (unquote v.tail) else none := by
  have solid : (' ' :: '"' :: v.text).dropWhile isBlank = '"' :: v.text := rfl
  rw [keyedValue_at clear (by decide), solid, v.rest? (unquote_quote _)]

/-- Where a value is looked for in a text before a quotation mark, there is none, or it ends before, or with the
quotation mark. -/
theorem value_before_quote {b : List Char} (some_text : b ≠ []) :
    keyedRest.rest? b = none ∧ (∀ y, keyedRest.rest? (b ++ '"' :: y) = none) ∨
      (∃ r, keyedRest.rest? b = some r ∧ ∀ y, keyedRest.rest? (b ++ '"' :: y) = some (r ++ '"' :: y)) ∨
      keyedRest.rest? b = some [] ∧ ∀ y, keyedRest.rest? (b ++ '"' :: y) = some y := by
  obtain ⟨u, r, begins, front, stops⟩ := value_first (unquote b)
  have begins' : ∀ y, unquote (b ++ '"' :: y) = u ++ (r ++ '"' :: y) := by
    intro y
    rw [unquote_append some_text, begins, List.append_assoc]
  have stops' : ∀ y, EndsValue (r ++ '"' :: y) := by
    intro y
    cases r with
    | nil => exact endsValue_cons.2 (by decide)
    | cons d r => exact endsValue_cons.2 (endsValue_cons.1 stops)
  cases u with
  | nil =>
    refine .inl ⟨value_rest?_none (begins ▸ stops), fun y => value_rest?_none ?_⟩
    rw [begins']
    exact stops' y
  | cons c u =>
    have taken := value_rest? begins (List.cons_ne_nil _ _) front stops
    have taken' := fun y => value_rest? (begins' y) (List.cons_ne_nil _ _) front (stops' y)
    cases r with
    | nil => exact .inr (.inr ⟨taken, taken'⟩)
    | cons d r =>
      refine .inr (.inl ⟨_, taken, fun y => ?_⟩)
      rw [taken', unquote_append (List.cons_ne_nil _ _)]

/-- Where a secret value is looked for in a text before a quotation mark, and the text has a separator and does not
end where the value would begin, there is none, or it ends before, or with the quotation mark. -/
theorem keyedValue_before_quote {z f b : List Char} {d : Char} (parts : z = f ++ d :: b)
    (clear : ∀ c ∈ f, isSeparator c = false) (separates : isSeparator d = true)
    (goes_on : untilValue.rest? z ≠ some []) :
    keyedValue.rest? z = none ∧ (∀ y, keyedValue.rest? (z ++ '"' :: y) = none) ∨
      (∃ r, keyedValue.rest? z = some r ∧ ∀ y, keyedValue.rest? (z ++ '"' :: y) = some (r ++ '"' :: y)) ∨
      keyedValue.rest? z = some [] ∧ ∀ y, keyedValue.rest? (z ++ '"' :: y) = some y := by
  subst parts
  have across : ∀ y, keyedValue.rest? (f ++ d :: b ++ '"' :: y) =
      if keyedHead.rest? f = some [] then keyedRest.rest? (b.dropWhile isBlank ++ '"' :: y) else none := by
    intro y
    rw [List.append_assoc, List.cons_append, keyedValue_at clear separates, dropWhile_before (by decide)]
  simp only [across, keyedValue_at clear separates]
  rw [untilValue_at clear separates] at goes_on
  by_cases named : keyedHead.rest? f = some []
  · simp only [named, if_true] at goes_on ⊢
    exact value_before_quote fun none_left => goes_on (congrArg some none_left)
  · simp only [named, if_false]
    exact .inl ⟨trivial, fun _ => trivial⟩

theorem SecretName.quote_clear (secret : SecretName name) : ∀ c ∈ name ++ ['"'], isSeparator c = false :=
  List.forall_mem_append.2 ⟨fun c listed => isSeparator_of_folds (secret.chars c listed),
    List.forall_mem_singleton.2 (by decide)⟩

/-- Whether a secret value is found in a text without separators and a quoted entry behind it. -/
theorem keyedValue_quotedEntry (secret : SecretName name) (v : Valued) {a : List Char}
    (clear : ∀ c ∈ a, isSeparator c = false) :
    keyedValue.rest? (a ++ quotedEntry name v.text) =
      if keyedHead.rest? (a ++ '"' :: (name ++ ['"'])) = some [] then some (unquote v.tail) else none := by
  have clear' : ∀ c ∈ a ++ '"' :: (name ++ ['"']), isSeparator c = false :=
    List.forall_mem_append.2 ⟨clear, List.forall_mem_cons.2 ⟨by decide, secret.quote_clear⟩⟩
  rw [← keyedValue_quoted v clear', quotedEntry]
  simp

/-- The quotation mark before the name may belong to a value before it, and nothing changes with that. -/
theorem keyedValue_unopened (secret : SecretName name) (v : Valued) :
    keyedValue.replaceAll marker (name ++ '"' :: ':' :: ' ' :: '"' :: v.text) = v.replaced := by
  apply v.replaceAll_eq
  have whole := keyedValue_quoted v secret.quote_clear
  rwa [if_pos secret.keyedHead_rest?.2.1, List.append_assoc] at whole

/-- Where a text that does not leave a value open stands before a quoted name and a quoted value, what becomes
of it does not depend on the value. -/
theorem keyedValue_hides_quoted (secret : SecretName name) {a : List Char}
    (closed : ¬ LeavesOpen keyedValue untilValue a) :
    ∃ front, ∀ v : Valued, keyedValue.replaceAll marker (a ++ quotedEntry name v.text) =
      front ++ v.replaced := by
  apply Pattern.replaceAll_front (fun z => ¬ LeavesOpen keyedValue untilValue z) keyedValue_consumes
  case a => exact closed
  case base =>
    refine ⟨[], fun v => v.replaceAll_eq ?_⟩
    have whole := keyedValue_quotedEntry secret v (a := []) nofun
    rwa [List.nil_append, List.nil_append, if_pos secret.keyedHead_rest?.2.2] at whole
  case alike =>
    intro c z closed
    have later : keyedValue.rest? (c :: z) = none → ¬ LeavesOpen keyedValue untilValue z :=
      fun fails => mt (.later fails) closed
    simp only [← List.cons_append]
    rcases first_of isSeparator (c :: z) with clear | ⟨f, d, b, parts, clear, separates⟩
    · by_cases named : keyedHead.rest? (c :: z ++ '"' :: (name ++ ['"'])) = some []
      · refine .inr (.inr ⟨[], fun v => v.replaceAll_eq ?_⟩)
        rw [keyedValue_quotedEntry secret v clear, if_pos named]
      · exact .inl ⟨later (keyedValue_of_clear clear),
          fun v => (keyedValue_quotedEntry secret v clear).trans (if_neg named)⟩
    · rcases keyedValue_before_quote parts clear separates (mt .here closed) with
        ⟨fails, fails'⟩ | ⟨r, taken, taken'⟩ | ⟨_, taken'⟩
      · exact .inl ⟨later fails, fun v => fails' _⟩
      · exact .inr (.inl ⟨r, mt (.after taken) closed, fun v => taken' _⟩)
      · refine .inr (.inr ⟨marker, fun v => ?_⟩)
        rw [quotedEntry, Pattern.replaceAll_of_some keyedValue_consumes (taken' _),
          keyedValue_unopened secret v]

/-- A text that leaves a value open has a separator. -/
theorem LeavesOpen.separator {a : List Char} (opens : LeavesOpen keyedValue untilValue a) :
    ∃ f d b, a = f ++ d :: b ∧ (∀ c ∈ f, isSeparator c = false) ∧ isSeparator d = true := by
  rcases first_of isSeparator a with clear | found
  · exfalso
    induction opens with
    | here ends =>
      rw [untilValue, Pattern.rest?_of_clear clear] at ends
      cases ends
    | after taken =>
      rw [keyedValue_of_clear clear] at taken
      cases taken
    | later _ _ ih => exact ih fun c listed => clear c (List.mem_cons_of_mem _ listed)
  · exact found

/-- Where a value is expected, a name in quotation marks is taken for it. -/
theorem keyedValue_swallows (secret : SecretName name) {a : List Char} (expects : untilValue.rest? a = some [])
    (rest : List Char) :
    keyedValue.rest? (a ++ quotedEntry name rest) = some (':' :: ' ' :: '"' :: rest) := by
  have value : ∀ c ∈ name, isValueChar c = true := fun c listed => isValueChar_of_folds (secret.chars c listed)
  obtain ⟨f, d, b, rfl, clear, separates⟩ := (LeavesOpen.here (p := keyedValue) expects).separator
  rw [untilValue_at clear separates, Option.ite_none_right_eq_some] at expects
  have none_left := Option.some.inj expects.2
  rw [List.append_assoc, List.cons_append, keyedValue_at clear separates, if_pos expects.1, quotedEntry,
    dropWhile_before (by decide), none_left, List.nil_append]
  exact value_rest? (unquote_quote _) secret.ne_nil value (endsValue_cons.2 (by decide))

/-- Where a text leaves a value open, the name behind it is taken for that value, and what stands behind the
name is not covered. -/
theorem keyedValue_shows_quoted (secret : SecretName name) {a : List Char}
    (opens : LeavesOpen keyedValue untilValue a) :
    ∃ front, ∀ rest, keyedValue.replaceAll marker (a ++ quotedEntry name rest) =
      front ++ keyedValue.replaceAll marker (':' :: ' ' :: '"' :: rest) := by
  have here : ∀ z, untilValue.rest? z = some [] → ∃ front, ∀ rest,
      keyedValue.replaceAll marker (z ++ quotedEntry name rest) =
        front ++ keyedValue.replaceAll marker (':' :: ' ' :: '"' :: rest) := fun z ends =>
    ⟨marker, fun rest => Pattern.replaceAll_of_some keyedValue_consumes (keyedValue_swallows secret ends rest)⟩
  induction opens with
  | @here z ends => exact here z ends
  | @after z r taken opens ih =>
    by_cases ends : untilValue.rest? z = some []
    · exact here z ends
    · obtain ⟨front, shows⟩ := ih
      obtain ⟨f, d, b, parts, clear, separates⟩ := (LeavesOpen.after taken opens).separator
      obtain ⟨f', d', b', parts', _⟩ := opens.separator
      have after : ∀ y, keyedValue.rest? (z ++ '"' :: y) = some (r ++ '"' :: y) := by
        rcases keyedValue_before_quote parts clear separates ends with
          ⟨fails, _⟩ | ⟨r', taken', across⟩ | ⟨taken', _⟩
        · rw [fails] at taken
          cases taken
        · rw [taken'] at taken
          cases taken
          exact across
        · rw [taken'] at taken
          cases taken
          simp at parts'
      refine ⟨marker ++ front, fun rest => ?_⟩
      rw [List.append_assoc, ← shows]
      exact Pattern.replaceAll_of_some keyedValue_consumes (after _)
  | @later c z fails opens ih =>
    by_cases ends : untilValue.rest? (c :: z) = some []
    · exact here _ ends
    · obtain ⟨front, shows⟩ := ih
      obtain ⟨f, d, b, parts, clear, separates⟩ := (LeavesOpen.later fails opens).separator
      have across : ∀ y, keyedValue.rest? (c :: z ++ '"' :: y) = none := by
        rcases keyedValue_before_quote parts clear separates ends with
          ⟨_, across⟩ | ⟨r', taken, _⟩ | ⟨taken, _⟩
        · exact across
        · rw [taken] at fails
          cases fails
        · rw [taken] at fails
          cases fails
      refine ⟨c :: front, fun rest => ?_⟩
      rw [List.cons_append, List.cons_append, ← shows]
      exact Pattern.replaceAll_of_none (across _)

/-- No name of a secret begins with a character that is in none of them. -/
theorem keyedValue_of_other {c : Char} (avoids : (Piece.word (secretKeys.map anyCase)).avoids c = true)
    (no_quote : exactly '"' c = false) (b : List Char) :
    keyedValue.rest? (c :: b) = none ∧ keyedValue.rest? ('"' :: c :: b) = none := by
  constructor
  · rw [keyedValue, Pattern.rest?_cons, Piece.rest?, if_neg (by simp [no_quote]), Option.bind_some,
      Pattern.rest?_of_front (by decide) avoids]
  · rw [keyedValue, Pattern.rest?_cons, maybe_quote, unquote_quote, Option.bind_some,
      Pattern.rest?_of_front (by decide) avoids]

end

end HostControl.Redaction
