/-
Module: HostControl.Proofs.Redaction.Matching
Purpose: What decides a match in a text that is put together from parts. What is matched is a text of the
  pattern. A character that no piece takes ends every match before it; the first character of a set that only
  one piece takes tells where that piece is; and a text in two parts is replaced part by part as long as no match
  goes across.
Main exports: Pattern.avoids, Pattern.consumes, rest?_sound, rest?_append, rest?_before, rest?_at_first,
  replaceAll_append, replaceAll_front
-/
import HostControl.Redaction.Pattern

namespace HostControl.Redaction

/-! ### Pieces -/

namespace Piece

/-- The piece does not take a character wherever it is. -/
def avoids (d : Char) : Piece → Bool
  | .one set | .maybe set | .many set | .some set => !set d
  | .word choices => choices.all fun w => w.all fun set => !set d

/-- The piece takes at least one character. -/
def consumes : Piece → Bool
  | .one _ | .some _ => true
  | .maybe _ | .many _ => false
  | .word choices => choices.all fun w => !w.isEmpty

end Piece

theorem afterWord_before {w : List CharSet} {d : Char} (avoids : ∀ set ∈ w, set d = false)
    (a b : List Char) : afterWord w (a ++ d :: b) = (afterWord w a).map (· ++ d :: b) := by
  induction w generalizing a with
  | nil => rfl
  | cons set sets ih =>
    have rest := fun a => ih (fun s listed => avoids s (List.mem_cons_of_mem _ listed)) a
    cases a with
    | nil => simp [afterWord, avoids set List.mem_cons_self]
    | cons c cs =>
      rw [List.cons_append, afterWord, afterWord]
      split
      · exact rest cs
      · rfl

theorem spells_of_afterWord {w : List CharSet} {cs after : List Char} (fits : afterWord w cs = some after) :
    ∃ front, cs = front ++ after ∧ Spells w front := by
  induction w generalizing cs with
  | nil =>
    cases fits
    exact ⟨[], rfl, .nil⟩
  | cons set sets ih =>
    cases cs with
    | nil => cases fits
    | cons c cs =>
      rw [afterWord, Option.ite_none_right_eq_some] at fits
      obtain ⟨front, rfl, spelled⟩ := ih fits.2
      exact ⟨c :: front, rfl, .cons fits.1 spelled⟩

theorem dropWhile_before {set : CharSet} {d : Char} (avoids : set d = false) (a b : List Char) :
    (a ++ d :: b).dropWhile set = a.dropWhile set ++ d :: b := by
  induction a with
  | nil => rw [List.nil_append, List.dropWhile_cons_of_neg (by simp [avoids])]; rfl
  | cons c cs ih =>
    rw [List.cons_append, List.dropWhile_cons, List.dropWhile_cons]
    split
    · exact ih
    · rfl

theorem Piece.rest?_before {p : Piece} {d : Char} (avoids : p.avoids d = true) (a b : List Char) :
    p.rest? (a ++ d :: b) = (p.rest? a).map (· ++ d :: b) := by
  cases p with
  | one set =>
    rw [Piece.avoids, Bool.not_eq_true'] at avoids
    cases a with
    | nil => simp [Piece.rest?, avoids]
    | cons c cs => by_cases fits : set c = true <;> simp [Piece.rest?, fits]
  | maybe set =>
    rw [Piece.avoids, Bool.not_eq_true'] at avoids
    cases a with
    | nil => simp [Piece.rest?, avoids]
    | cons c cs => by_cases fits : set c = true <;> simp [Piece.rest?, fits]
  | many set =>
    rw [Piece.avoids, Bool.not_eq_true'] at avoids
    rw [Piece.rest?, Piece.rest?, dropWhile_before avoids, Option.map_some]
  | some set =>
    rw [Piece.avoids, Bool.not_eq_true'] at avoids
    cases a with
    | nil => simp [Piece.rest?, avoids]
    | cons c cs =>
      rw [List.cons_append, Piece.rest?, Piece.rest?, dropWhile_before avoids]
      split <;> rfl
  | word choices =>
    simp only [Piece.avoids, List.all_eq_true, Bool.not_eq_true'] at avoids
    rw [Piece.rest?, Piece.rest?]
    induction choices with
    | nil => rfl
    | cons w ws ih =>
      rw [List.findSome?_cons, List.findSome?_cons, afterWord_before (avoids w List.mem_cons_self)]
      cases afterWord w a with
      | none => exact ih fun v listed => avoids v (List.mem_cons_of_mem _ listed)
      | some after => rfl

namespace Piece

variable {p : Piece} {cs after : List Char}

/-- What a piece takes is a text of the piece. -/
theorem rest?_sound (fits : p.rest? cs = Option.some after) : ∃ front, cs = front ++ after ∧ p.Accepts front := by
  cases p with
  | one set =>
    cases cs with
    | nil => cases fits
    | cons c cs =>
      rw [Piece.rest?, Option.ite_none_right_eq_some] at fits
      cases fits.2
      exact ⟨[c], rfl, .one fits.1⟩
  | maybe set =>
    cases cs with
    | nil =>
      cases fits
      exact ⟨[], rfl, .maybeNone⟩
    | cons c cs =>
      rw [Piece.rest?] at fits
      split at fits
      · next here =>
        cases fits
        exact ⟨[c], rfl, .maybeOne here⟩
      · cases fits
        exact ⟨[], rfl, .maybeNone⟩
  | many set =>
    cases fits
    exact ⟨cs.takeWhile set, List.takeWhile_append_dropWhile.symm, .many (List.all_eq_true.1 List.all_takeWhile)⟩
  | some set =>
    cases cs with
    | nil => cases fits
    | cons c cs =>
      rw [Piece.rest?, Option.ite_none_right_eq_some] at fits
      cases fits.2
      refine ⟨c :: cs.takeWhile set, by rw [List.cons_append, List.takeWhile_append_dropWhile],
        .some (List.cons_ne_nil _ _) ?_⟩
      exact List.forall_mem_cons.2 ⟨fits.1, List.all_eq_true.1 List.all_takeWhile⟩
  | word choices =>
    obtain ⟨w, listed, spelled⟩ := List.exists_of_findSome?_eq_some fits
    obtain ⟨front, rfl, spells⟩ := spells_of_afterWord spelled
    exact ⟨front, rfl, .word listed spells⟩

theorem Accepts.consumes (accepted : p.Accepts []) : p.consumes = false := by
  cases accepted with
  | maybeNone => rfl
  | many => rfl
  | some some_text => exact absurd rfl some_text
  | word listed spelled =>
    cases spelled
    exact List.all_eq_false.2 ⟨[], listed, by simp⟩

end Piece

/-! ### Patterns -/

namespace Pattern

variable {p q : Pattern} {m a b cs after : List Char} {d : Char}

/-- No piece of the pattern takes the character. -/
def avoids (d : Char) (p : Pattern) : Bool := p.all fun piece => piece.avoids d

/-- A piece of the pattern takes a character. -/
def consumes (p : Pattern) : Bool := p.any Piece.consumes

theorem rest?_cons (piece : Piece) (p : Pattern) (cs : List Char) :
    Pattern.rest? (piece :: p) cs = (piece.rest? cs).bind p.rest? := rfl

/-- A pattern in two parts matches part by part. -/
theorem rest?_append (p q : Pattern) (cs : List Char) :
    Pattern.rest? (p ++ q) cs = (p.rest? cs).bind q.rest? := by
  induction p generalizing cs with
  | nil => rfl
  | cons piece p ih =>
    rw [List.cons_append, rest?_cons, rest?_cons, Option.bind_assoc]
    congr 1
    funext after
    exact ih after

/-- A run of at least one character is a character and any number more. -/
theorem rest?_some (set : CharSet) (q : Pattern) (cs : List Char) :
    Pattern.rest? (.some set :: q) cs = Pattern.rest? (.one set :: .many set :: q) cs := by
  cases cs with
  | nil => rfl
  | cons c cs => by_cases fits : set c = true <;> simp [rest?_cons, Piece.rest?, fits]

theorem rest?_some_within (p : Pattern) (set : CharSet) (q : Pattern) (cs : List Char) :
    Pattern.rest? (p ++ .some set :: q) cs = Pattern.rest? (p ++ .one set :: .many set :: q) cs := by
  rw [rest?_append, rest?_append]
  congr 1
  funext after
  exact rest?_some ..

theorem rest?_before (avoids : p.avoids d = true) (a b : List Char) :
    p.rest? (a ++ d :: b) = (p.rest? a).map (· ++ d :: b) := by
  induction p generalizing a with
  | nil => rfl
  | cons piece p ih =>
    simp only [Pattern.avoids, List.all_cons, Bool.and_eq_true] at avoids
    rw [rest?_cons, rest?_cons, Piece.rest?_before avoids.1]
    cases piece.rest? a with
    | none => rfl
    | some after => exact ih avoids.2 after

/-- What a pattern takes is a text of the pattern. -/
theorem rest?_sound (fits : p.rest? cs = some after) : ∃ front, cs = front ++ after ∧ p.Accepts front := by
  induction p generalizing cs with
  | nil =>
    cases fits
    exact ⟨[], rfl, .nil⟩
  | cons piece p ih =>
    rw [rest?_cons, Option.bind_eq_some_iff] at fits
    obtain ⟨between, first, later⟩ := fits
    obtain ⟨front, rfl, accepted⟩ := Piece.rest?_sound first
    obtain ⟨back, rfl, accepted'⟩ := ih later
    exact ⟨front ++ back, (List.append_assoc ..).symm, .cons accepted accepted'⟩

theorem Accepts.consumes (accepted : p.Accepts []) : p.consumes = false := by
  induction p with
  | nil => rfl
  | cons piece p ih =>
    generalize nothing : ([] : List Char) = text at accepted
    cases accepted with
    | cons first later =>
      obtain ⟨rfl, rfl⟩ := List.append_eq_nil_iff.1 nothing.symm
      exact Bool.or_eq_false_iff.2 ⟨first.consumes, ih later⟩

/-- What follows a match is the end of the text, and the match is not empty if a piece takes a character. -/
theorem rest?_suffix (fits : p.rest? cs = some after) :
    ∃ front, cs = front ++ after ∧ (p.consumes = true → front ≠ []) := by
  obtain ⟨front, rfl, accepted⟩ := rest?_sound fits
  refine ⟨front, rfl, ?_⟩
  rintro consumes rfl
  rw [accepted.consumes] at consumes
  cases consumes

theorem length_lt_of_rest? (consumes : p.consumes = true) (fits : p.rest? cs = some after) :
    after.length < cs.length := by
  obtain ⟨front, rfl, takes⟩ := rest?_suffix fits
  have := List.length_pos_iff.2 (takes consumes)
  rw [List.length_append]
  omega

theorem rest?_nil (consumes : p.consumes = true) : p.rest? [] = none := by
  cases fits : p.rest? [] with
  | none => rfl
  | some after => exact absurd (length_lt_of_rest? consumes fits) (Nat.not_lt_zero _)

/-- A pattern does not match before a character that its first piece has to take and does not. -/
theorem rest?_of_front {piece : Piece} (consumes : piece.consumes = true) (avoids : piece.avoids d = true)
    (b : List Char) : Pattern.rest? (piece :: p) (d :: b) = none := by
  have nothing : Pattern.rest? [piece] [] = none := rest?_nil (by simp [Pattern.consumes, consumes])
  have fails := rest?_before (p := [piece]) (d := d) (by simp [Pattern.avoids, avoids]) [] b
  rw [nothing] at fails
  have parts : piece :: p = [piece] ++ p := rfl
  rw [parts, rest?_append, ← List.nil_append (d :: b), fails]
  rfl

/-- Where the pieces before one do not take the characters of its set, that piece is at the first character of
its set, if there is a match at all. -/
theorem rest?_at_first {set : CharSet} (avoids : ∀ d, set d = true → p.avoids d = true)
    (clear : ∀ c ∈ a, set c = false) (here : set d = true) :
    Pattern.rest? (p ++ .one set :: q) (a ++ d :: b) = if p.rest? a = some [] then q.rest? b else none := by
  rw [rest?_append, rest?_before (avoids d here)]
  cases fits : p.rest? a with
  | none => rfl
  | some after =>
    cases after with
    | nil => simp [rest?_cons, Piece.rest?, here]
    | cons c after =>
      obtain ⟨front, rfl, _⟩ := rest?_suffix fits
      have outside : set c = false := clear c (by simp)
      simp [rest?_cons, Piece.rest?, outside]

/-- Without a character of the set of a piece there is no match. -/
theorem rest?_of_clear {set : CharSet} (clear : ∀ c ∈ cs, set c = false) :
    Pattern.rest? (p ++ .one set :: q) cs = none := by
  rw [rest?_append]
  cases fits : p.rest? cs with
  | none => rfl
  | some after =>
    cases after with
    | nil => rfl
    | cons c after =>
      obtain ⟨front, rfl, _⟩ := rest?_suffix fits
      have outside : set c = false := clear c (by simp)
      simp [rest?_cons, Piece.rest?, outside]

/-! ### Replacing -/

theorem replaceAll_of_none {c : Char} (fails : p.rest? (c :: cs) = none) :
    p.replaceAll m (c :: cs) = c :: p.replaceAll m cs := by
  rw [replaceAll]
  split
  · next after fits => rw [fails] at fits; cases fits
  · rfl

theorem replaceAll_of_some (consumes : p.consumes = true) (fits : p.rest? cs = some after) :
    p.replaceAll m cs = m ++ p.replaceAll m after := by
  cases cs with
  | nil => rw [rest?_nil consumes] at fits; cases fits
  | cons c cs =>
    rw [replaceAll]
    split
    · next after' fits' =>
      rw [fits] at fits'
      cases fits'
      rw [dif_pos (length_lt_of_rest? consumes fits)]
    · next fails => rw [fits] at fails; cases fails

/-- A text in two parts is replaced part by part if a match that begins in the first part ends there. -/
theorem replaceAll_append (Closed : List Char → Prop) (consumes : p.consumes = true)
    (within : ∀ c a, Closed (c :: a) → p.rest? (c :: (a ++ b)) = (p.rest? (c :: a)).map (· ++ b) ∧
      (p.rest? (c :: a) = none → Closed a) ∧ ∀ r, p.rest? (c :: a) = some r → Closed r) :
    ∀ a, Closed a → p.replaceAll m (a ++ b) = p.replaceAll m a ++ p.replaceAll m b := by
  intro a
  induction h : a.length using Nat.strongRecOn generalizing a with
  | ind n ih =>
    intro closed
    cases a with
    | nil => rw [replaceAll]; rfl
    | cons c a =>
      obtain ⟨same, later, after⟩ := within c a closed
      cases fits : p.rest? (c :: a) with
      | none =>
        rw [fits] at same
        rw [List.cons_append, replaceAll_of_none same, replaceAll_of_none fits,
          ih a.length (by simp [← h]) a rfl (later fits), List.cons_append]
      | some r =>
        rw [fits] at same
        have shorter := length_lt_of_rest? consumes fits
        rw [List.cons_append, replaceAll_of_some consumes same, replaceAll_of_some consumes fits,
          ih r.length (h ▸ shorter) r rfl (after r fits), List.append_assoc]

/-- A character that no piece takes parts the text. -/
theorem replaceAll_before (consumes : p.consumes = true) (avoids : p.avoids d = true) (a b : List Char) :
    p.replaceAll m (a ++ d :: b) = p.replaceAll m a ++ d :: p.replaceAll m b := by
  have fails : p.rest? (d :: b) = none := by
    have := rest?_before avoids [] b
    rwa [rest?_nil consumes] at this
  rw [← replaceAll_of_none fails]
  exact replaceAll_append (fun _ => True) consumes (fun c a _ => ⟨rest?_before avoids (c :: a) b,
    fun _ => trivial, fun _ _ => trivial⟩) a trivial

/-- Texts that begin alike are replaced alike up to where they part, if each match either ends in what they
have in common or takes them to where they part: what is left of them behind that place follows one text that is
the same for all. -/
theorem replaceAll_front {ι : Type} {x outcome : ι → List Char} (Closed : List Char → Prop)
    (consumes : p.consumes = true)
    (base : ∃ front, ∀ i, p.replaceAll m (x i) = front ++ outcome i)
    (alike : ∀ c a, Closed (c :: a) →
      (Closed a ∧ ∀ i, p.rest? (c :: (a ++ x i)) = none) ∨
      (∃ r, Closed r ∧ ∀ i, p.rest? (c :: (a ++ x i)) = some (r ++ x i)) ∨
      ∃ front, ∀ i, p.replaceAll m (c :: (a ++ x i)) = front ++ outcome i) :
    ∀ a, Closed a → ∃ front, ∀ i, p.replaceAll m (a ++ x i) = front ++ outcome i := by
  intro a
  induction h : a.length using Nat.strongRecOn generalizing a with
  | ind n ih =>
    intro closed
    cases a with
    | nil => exact base
    | cons c a =>
      rcases alike c a closed with ⟨later, fails⟩ | ⟨r, later, taken⟩ | reached
      · obtain ⟨front, follows⟩ := ih a.length (by simp [← h]) a rfl later
        refine ⟨c :: front, fun i => ?_⟩
        rw [List.cons_append, replaceAll_of_none (fails i), follows i, List.cons_append]
      · by_cases some_text : Nonempty ι
        · obtain ⟨j⟩ := some_text
          have shorter := length_lt_of_rest? consumes (taken j)
          rw [← List.cons_append, List.length_append, List.length_append, Nat.add_lt_add_iff_right] at shorter
          obtain ⟨front, follows⟩ := ih r.length (h ▸ shorter) r rfl later
          refine ⟨m ++ front, fun i => ?_⟩
          rw [List.cons_append, replaceAll_of_some consumes (taken i), follows i, List.append_assoc]
        · exact ⟨[], fun i => absurd ⟨i⟩ some_text⟩
      · exact reached

end Pattern

end HostControl.Redaction
