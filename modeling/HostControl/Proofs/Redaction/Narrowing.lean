/-
Module: HostControl.Proofs.Redaction.Narrowing
Purpose: What the narrowing of white space makes of a text that is put together from parts: the part before
  a word and the part after it are narrowed each by itself.
Main exports: narrowed, ending, squeeze_append, ending_word, ending_of_blank, Tidy, tidy_squeeze
-/
import HostControl.Text.Blank

namespace HostControl.Text

/-- A text with every run of blanks narrowed to one space. A run at the front goes where a blank, or nothing,
stands before the text. -/
def narrowed (afterBlank : Bool) : List Char → List Char
  | [] => []
  | c :: cs =>
    if isBlank c then if afterBlank then narrowed true cs else ' ' :: narrowed true cs
    else c :: narrowed false cs

/-- What becomes of a text that stands after a word, up to the end of all. -/
def ending : List Char → List Char
  | [] => []
  | c :: cs =>
    if isBlank c then if words cs = [] then [] else ' ' :: squeeze cs
    else c :: ending cs

variable {c : Char} {cs word : List Char}

theorem squeeze_of_blank (blank : isBlank c = true) : squeeze (c :: cs) = squeeze cs := by
  rw [squeeze, words, wordsFrom, if_pos blank]
  rfl

/-- The word that has been begun goes on, and is followed by the narrowed rest. -/
theorem unwords_wordsFrom (begun : word ≠ []) : unwords (wordsFrom word cs) = word.reverse ++ ending cs := by
  induction cs generalizing word with
  | nil =>
    rw [wordsFrom, if_neg (by simp [begun]), ending, List.append_nil]
    rfl
  | cons c cs ih =>
    rw [wordsFrom, ending]
    cases blank : isBlank c with
    | true =>
      rw [if_pos rfl, if_pos rfl, if_neg (by simp [begun]), squeeze, words]
      cases wordsFrom [] cs with
      | nil => simp [unwords]
      | cons w ws => simp [unwords]
    | false =>
      rw [if_neg Bool.false_ne_true, if_neg Bool.false_ne_true, ih (List.cons_ne_nil _ _),
        List.reverse_cons, List.append_assoc]
      rfl

theorem squeeze_of_word (solid : isBlank c = false) : squeeze (c :: cs) = c :: ending cs := by
  rw [squeeze, words, wordsFrom, if_neg (by simp [solid]), unwords_wordsFrom (List.cons_ne_nil _ _)]
  rfl

theorem words_ne_nil_of_squeeze (some_left : squeeze cs ≠ []) : words cs ≠ [] := by
  intro no_words
  rw [squeeze, no_words] at some_left
  exact some_left rfl

theorem ending_of_solid (solid : isBlank c = false) : ending (c :: cs) = c :: ending cs := by
  rw [ending, if_neg (by simp [solid])]

/-- A blank after a word is narrowed together with those that follow, and goes at the end. -/
theorem ending_of_blank {b : List Char} (blank : isBlank c = true) :
    words b = [] ∧ ending (c :: b) = [] ∨ words b ≠ [] ∧ ending (c :: b) = ' ' :: squeeze b := by
  rw [ending, if_pos blank]
  by_cases no_words : words b = []
  · exact .inl ⟨no_words, if_pos no_words⟩
  · exact .inr ⟨no_words, if_neg no_words⟩

/-- A word stays as it is. -/
theorem ending_word {b : List Char} (solid : ∀ c ∈ word, isBlank c = false) :
    ending (word ++ b) = word ++ ending b := by
  induction word with
  | nil => rfl
  | cons c cs ih =>
    rw [List.cons_append, ending_of_solid (solid c List.mem_cons_self),
      ih fun d listed => solid d (List.mem_cons_of_mem _ listed), List.cons_append]

/-- A character that is not blank parts the text. -/
theorem squeeze_append (a b : List Char) (solid : isBlank c = false) :
    squeeze (a ++ c :: b) = narrowed true a ++ c :: ending b ∧
      ending (a ++ c :: b) = narrowed false a ++ c :: ending b := by
  induction a with
  | nil => exact ⟨squeeze_of_word solid, ending_of_solid solid⟩
  | cons d a ih =>
    rw [List.cons_append]
    cases blank : isBlank d with
    | true =>
      have some_words : words (a ++ c :: b) ≠ [] := by
        apply words_ne_nil_of_squeeze
        rw [ih.1]
        simp
      rw [squeeze_of_blank blank, ending, if_pos blank, if_neg some_words, ih.1, narrowed, narrowed,
        if_pos blank, if_pos blank]
      exact ⟨rfl, rfl⟩
    | false =>
      rw [squeeze_of_word blank, ending_of_solid blank, ih.2, narrowed, narrowed, if_neg (by simp [blank]),
        if_neg (by simp [blank])]
      exact ⟨rfl, rfl⟩

/-- The first character of a narrowed text is the first one of the text that is not blank. -/
theorem head?_squeeze (cs : List Char) : (squeeze cs).head? = (cs.dropWhile isBlank).head? := by
  induction cs with
  | nil => rfl
  | cons c cs ih =>
    cases blank : isBlank c with
    | true => rw [squeeze_of_blank blank, List.dropWhile_cons_of_pos blank, ih]
    | false => rw [squeeze_of_word blank, List.dropWhile_cons_of_neg (by simp [blank])]; rfl

/-! ### The blanks that are left -/

/-- A text whose only blanks are spaces, none of them next to another and none at either end. -/
structure Tidy (cs : List Char) : Prop where
  spaces : ∀ c ∈ cs, isBlank c = true → c = ' '
  single : ¬ [' ', ' '] <:+: cs
  first : cs.head? ≠ some ' '
  last : cs.getLast? ≠ some ' '

theorem space_not_mem (solid : ∀ c ∈ cs, isBlank c = false) : ' ' ∉ cs := by
  intro listed
  have blank := solid ' ' listed
  revert blank
  decide

theorem Tidy.of_solid (solid : ∀ c ∈ cs, isBlank c = false) : Tidy cs where
  spaces c listed blank := by
    rw [solid c listed] at blank
    cases blank
  single two := space_not_mem solid (two.subset List.mem_cons_self)
  first here := space_not_mem solid (List.mem_of_head? here)
  last here := space_not_mem solid (List.mem_of_getLast? here)

/-- A word, a space and a tidy text that is not empty make a tidy text. -/
theorem Tidy.after_word {b : List Char} (some_word : word ≠ []) (solid : ∀ c ∈ word, isBlank c = false)
    (some_text : b ≠ []) (tidy : Tidy b) : Tidy (word ++ ' ' :: b) where
  spaces c listed blank := by
    rcases List.mem_append.1 listed with here | there
    · exact (Tidy.of_solid solid).spaces c here blank
    · rcases List.mem_cons.1 there with rfl | later
      · rfl
      · exact tidy.spaces c later blank
  single := by
    rintro ⟨x, y, parts⟩
    rw [List.append_assoc, List.append_eq_append_iff] at parts
    rcases parts with ⟨a, rfl, parts⟩ | ⟨a, rfl, parts⟩
    · cases a with
      | nil =>
        cases parts
        exact tidy.first rfl
      | cons d a =>
        obtain rfl := (List.cons.inj parts).1
        exact space_not_mem solid (by simp)
    · cases a with
      | nil =>
        cases parts
        exact tidy.first rfl
      | cons d a =>
        have later := (List.cons.inj parts).2
        exact tidy.single ⟨a, y, by rw [later, List.append_assoc]; rfl⟩
  first := by
    obtain ⟨c, w, rfl⟩ := List.exists_cons_of_ne_nil some_word
    exact (Tidy.of_solid solid).first
  last := by
    obtain ⟨c, b, rfl⟩ := List.exists_cons_of_ne_nil some_text
    rw [List.getLast?_append, List.getLast?_cons_cons]
    simpa using tidy.last

/-- Every word has a character, and none that is blank. -/
theorem solid_of_wordsFrom (begun : ∀ c ∈ word, isBlank c = false) :
    ∀ w ∈ wordsFrom word cs, w ≠ [] ∧ ∀ c ∈ w, isBlank c = false := by
  induction cs generalizing word with
  | nil =>
    intro w listed
    rw [wordsFrom] at listed
    split at listed
    · cases listed
    · next some_word =>
      obtain rfl := List.mem_singleton.1 listed
      exact ⟨by simpa using some_word, by simpa using begun⟩
  | cons c cs ih =>
    intro w listed
    rw [wordsFrom] at listed
    split at listed
    · have later := @ih [] nofun w
      split at listed
      · exact later listed
      · next some_word =>
        rcases List.mem_cons.1 listed with rfl | listed
        · exact ⟨by simpa using some_word, by simpa using begun⟩
        · exact later listed
    · next solid => exact ih (List.forall_mem_cons.2 ⟨by simpa using solid, begun⟩) w listed

theorem tidy_unwords {ws : List (List Char)} (solid : ∀ w ∈ ws, w ≠ [] ∧ ∀ c ∈ w, isBlank c = false) :
    Tidy (unwords ws) := by
  induction ws with
  | nil => exact Tidy.of_solid nofun
  | cons w ws ih =>
    rw [List.forall_mem_cons] at solid
    cases ws with
    | nil => exact Tidy.of_solid solid.1.2
    | cons v ws =>
      have some_text : unwords (v :: ws) ≠ [] := by
        have some_word := (solid.2 v List.mem_cons_self).1
        cases ws with
        | nil => exact some_word
        | cons u ws => exact List.append_ne_nil_of_left_ne_nil some_word _
      exact (ih solid.2).after_word solid.1.1 solid.1.2 some_text

/-- What the narrowing of white space leaves of it. -/
theorem tidy_squeeze (cs : List Char) : Tidy (squeeze cs) := tidy_unwords (solid_of_wordsFrom nofun)

end HostControl.Text
