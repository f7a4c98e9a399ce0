/-
Module: HostControl.Proofs.Redaction.Completeness
Purpose: Matching without giving anything back finds what a pattern describes, as long as no piece goes on with
  a character that what follows it may begin with. The patterns of credentials are of that kind, so where none
  of them matches no text of theirs begins.
Main exports: Piece.begins, Piece.goesOn, Piece.Decided, Pattern.begins, Pattern.Parted, rest?_eq_none_iff,
  accepts_append, bearerToken_parted, keyedValue_parted, webToken_parted
-/
import HostControl.Proofs.Redaction.Credentials

namespace HostControl.Redaction

open Text

/-! ### What comes first, and what is taken further -/

namespace Piece

/-- A text of the piece may begin with the character. -/
def begins (c : Char) : Piece → Bool
  | .one set | .maybe set | .many set | .some set => set c
  | .word choices => choices.any fun w => w.head?.any fun set => set c

/-- The piece may take the character after a text of its own. -/
def goesOn (c : Char) : Piece → Bool
  | .maybe set | .many set | .some set => set c
  | .one _ | .word _ => false

/-- At most one word of the piece fits at the front of a text. -/
def Decided : Piece → Prop
  | .word choices => ∀ w ∈ choices, ∀ v ∈ choices, ∀ cs, (afterWord w cs).isSome = true →
      (afterWord v cs).isSome = true → v = w
  | .one _ | .maybe _ | .many _ | .some _ => True

end Piece

namespace Pattern

/-- A text of the pattern may begin with the character. -/
def begins (c : Char) : Pattern → Bool
  | [] => false
  | piece :: p => piece.begins c || (!piece.consumes && Pattern.begins c p)

/-- No piece may take what the pieces after it may begin with. -/
def Parted : Pattern → Prop
  | [] => True
  | piece :: p => piece.Decided ∧ (∀ c, piece.goesOn c = true → Pattern.begins c p = false) ∧ Pattern.Parted p

end Pattern

/-! ### Words -/

variable {w : List CharSet} {front after cs z : List Char} {c d : Char}

theorem Spells.afterWord (spelled : Spells w front) (z : List Char) : afterWord w (front ++ z) = some z := by
  induction spelled with
  | nil => rfl
  | cons fits _ ih => rw [List.cons_append, HostControl.Redaction.afterWord, if_pos fits, ih]

theorem Spells.not_mem (spelled : Spells w cs) (avoids : (w.all fun set => !set d) = true) : d ∉ cs := by
  induction spelled with
  | nil => exact List.not_mem_nil
  | @cons set sets c cs fits _ ih =>
    rw [List.all_cons, Bool.and_eq_true, Bool.not_eq_true'] at avoids
    rw [List.mem_cons, not_or]
    refine ⟨?_, ih avoids.2⟩
    rintro rfl
    rw [avoids.1] at fits
    cases fits

/-! ### Pieces -/

namespace Piece

variable {p : Piece}

/-- Behind a text of the piece it stops where it cannot go on. -/
theorem Accepts.rest?_eq (decided : p.Decided) (accepted : p.Accepts front)
    (stops : ∀ c, z.head? = Option.some c → p.goesOn c = false) : p.rest? (front ++ z) = Option.some z := by
  cases accepted with
  | one fits => rw [List.singleton_append, Piece.rest?, if_pos fits]
  | maybeNone =>
    cases z with
    | nil => rfl
    | cons c z => rw [List.nil_append, Piece.rest?, if_neg (by simpa [goesOn] using stops c rfl)]
  | maybeOne fits => rw [List.singleton_append, Piece.rest?, if_pos fits]
  | many fits =>
    rw [Piece.rest?, List.dropWhile_append_of_pos fits]
    cases z with
    | nil => rfl
    | cons c z => rw [List.dropWhile_cons_of_neg (by simpa [goesOn] using stops c rfl)]
  | some some_text fits =>
    cases front with
    | nil => exact absurd rfl some_text
    | cons c front =>
      rw [List.forall_mem_cons] at fits
      rw [List.cons_append, Piece.rest?, if_pos fits.1, List.dropWhile_append_of_pos fits.2]
      cases z with
      | nil => rfl
      | cons c z => rw [List.dropWhile_cons_of_neg (by simpa [goesOn] using stops c rfl)]
  | @word choices w _ listed spelled =>
    have here := spelled.afterWord z
    rw [Piece.rest?]
    cases found : choices.findSome? (afterWord · (front ++ z)) with
    | none =>
      rw [List.findSome?_eq_none_iff] at found
      rw [found w listed] at here
      cases here
    | some after =>
      obtain ⟨v, listed', fits⟩ := List.exists_of_findSome?_eq_some found
      obtain rfl := decided w listed v listed' _ (by rw [here]; rfl) (by rw [fits]; rfl)
      rw [← here, fits]

/-- A text that begins with one of the piece has something behind it, if less than what it was put before. -/
theorem Accepts.isSome_rest? (accepted : p.Accepts front) (z : List Char) :
    (p.rest? (front ++ z)).isSome = true := by
  cases accepted with
  | one fits => rw [List.singleton_append, Piece.rest?, if_pos fits]; rfl
  | maybeNone => cases z <;> rfl
  | maybeOne => rfl
  | many => rfl
  | some some_text fits =>
    cases front with
    | nil => exact absurd rfl some_text
    | cons c front => rw [List.cons_append, Piece.rest?, if_pos (fits c List.mem_cons_self)]; rfl
  | word listed spelled =>
    rw [Piece.rest?, List.findSome?_isSome_iff]
    exact ⟨_, listed, by rw [spelled.afterWord z]; rfl⟩

theorem Accepts.begins (accepted : p.Accepts (c :: cs)) : p.begins c = true := by
  cases accepted with
  | one fits => exact fits
  | maybeOne fits => exact fits
  | many fits => exact fits c List.mem_cons_self
  | some _ fits => exact fits c List.mem_cons_self
  | word listed spelled =>
    cases spelled with
    | cons fits _ => exact List.any_eq_true.2 ⟨_, listed, fits⟩

theorem Accepts.not_mem (accepted : p.Accepts cs) (avoids : p.avoids d = true) : d ∉ cs := by
  intro listed
  cases accepted with
  | one fits =>
    obtain rfl := List.mem_singleton.1 listed
    simp [Piece.avoids, fits] at avoids
  | maybeNone => cases listed
  | maybeOne fits =>
    obtain rfl := List.mem_singleton.1 listed
    simp [Piece.avoids, fits] at avoids
  | many fits => simp [Piece.avoids, fits d listed] at avoids
  | some _ fits => simp [Piece.avoids, fits d listed] at avoids
  | word known spelled => exact spelled.not_mem (List.all_eq_true.1 avoids _ known) listed

theorem Accepts.exists_mem (set : CharSet) (takes : p = .one set ∨ p = .some set) (accepted : p.Accepts cs) :
    ∃ c ∈ cs, set c = true := by
  rcases takes with rfl | rfl
  · cases accepted with
    | one fits => exact ⟨_, List.mem_singleton_self _, fits⟩
  · cases accepted with
    | some some_text fits =>
      obtain ⟨c, cs, rfl⟩ := List.exists_cons_of_ne_nil some_text
      exact ⟨c, List.mem_cons_self, fits c List.mem_cons_self⟩

end Piece

/-! ### Patterns -/

namespace Pattern

variable {p q : Pattern}

theorem Accepts.begins (accepted : p.Accepts (c :: cs)) : p.begins c = true := by
  induction p generalizing cs with
  | nil => cases accepted
  | cons piece p ih =>
    generalize whole : c :: cs = text at accepted
    cases accepted with
    | @cons _ _ front back first later =>
      cases front with
      | nil =>
        rw [List.nil_append] at whole
        subst whole
        simp [Pattern.begins, first.consumes, ih later]
      | cons d front =>
        cases whole
        simp [Pattern.begins, first.begins]

/-- In a parted pattern nothing has to be given back: where a text of it begins, it matches. -/
theorem Accepts.isSome_rest? (parted : p.Parted) (accepted : p.Accepts cs) (z : List Char) :
    (p.rest? (cs ++ z)).isSome = true := by
  induction p generalizing cs z with
  | nil =>
    cases accepted
    rfl
  | cons piece p ih =>
    obtain ⟨decided, apart, later_parted⟩ := parted
    cases accepted with
    | @cons _ _ front back first later =>
      cases back with
      | nil =>
        -- The piece may take more than its own text here; what follows then matches the empty text.
        obtain ⟨after, fits⟩ := Option.isSome_iff_exists.1 (first.isSome_rest? z)
        rw [List.append_nil, rest?_cons, fits]
        exact ih later_parted later after
      | cons c back =>
        have stops : ∀ d, ((c :: back) ++ z).head? = some d → piece.goesOn d = false := by
          rintro d ⟨⟩
          cases goes : piece.goesOn c with
          | false => rfl
          | true =>
            have := apart c goes
            rw [later.begins] at this
            cases this
        rw [List.append_assoc, rest?_cons, first.rest?_eq decided stops]
        exact ih later_parted later z

/-- A parted pattern matches nowhere but where a text of it begins. -/
theorem rest?_eq_none_iff (parted : p.Parted) :
    p.rest? cs = none ↔ ∀ front, front <+: cs → ¬ p.Accepts front := by
  constructor
  · rintro fails front ⟨z, rfl⟩ accepted
    have := accepted.isSome_rest? parted z
    rw [fails] at this
    cases this
  · intro nowhere
    rw [Option.eq_none_iff_forall_ne_some]
    intro after fits
    obtain ⟨front, rfl, accepted⟩ := rest?_sound fits
    exact nowhere front (List.prefix_append ..) accepted

/-- The texts of two patterns in turn are texts of the one and of the other in turn. -/
theorem accepts_append :
    Pattern.Accepts (p ++ q) cs ↔ ∃ front back, cs = front ++ back ∧ p.Accepts front ∧ q.Accepts back := by
  constructor
  · intro accepted
    induction p generalizing cs with
    | nil => exact ⟨[], cs, rfl, .nil, accepted⟩
    | cons piece p ih =>
      rw [List.cons_append] at accepted
      cases accepted with
      | cons first later =>
        obtain ⟨front, back, rfl, accepted, accepted'⟩ := ih later
        exact ⟨_, back, (List.append_assoc ..).symm, .cons first accepted, accepted'⟩
  · rintro ⟨front, back, rfl, accepted, accepted'⟩
    induction accepted with
    | nil => exact accepted'
    | cons first _ ih =>
      rw [List.append_assoc]
      exact .cons first ih

/-- A text has no character that no piece of its pattern takes. -/
theorem Accepts.not_mem (accepted : p.Accepts cs) (avoids : p.avoids d = true) : d ∉ cs := by
  induction accepted with
  | nil => exact List.not_mem_nil
  | cons first _ ih =>
    simp only [Pattern.avoids, List.all_cons, Bool.and_eq_true] at avoids
    rw [List.mem_append, not_or]
    exact ⟨first.not_mem avoids.1, ih avoids.2⟩

/-- A text has a character of each set of which its pattern takes one or more. -/
theorem Accepts.exists_mem (set : CharSet) {piece : Piece} (takes : piece = .one set ∨ piece = .some set)
    (accepted : p.Accepts cs) (listed : piece ∈ p) : ∃ c ∈ cs, set c = true := by
  induction accepted with
  | nil => cases listed
  | cons first _ ih =>
    rcases List.mem_cons.1 listed with rfl | later
    · obtain ⟨c, inside, fits⟩ := first.exists_mem set takes
      exact ⟨c, List.mem_append_left _ inside, fits⟩
    · obtain ⟨c, inside, fits⟩ := ih later
      exact ⟨c, List.mem_append_right _ inside, fits⟩

end Pattern

/-! ### The patterns of credentials -/

theorem decided_of_one (w : List CharSet) : (Piece.word [w]).Decided := by
  intro v listed v' listed' _ _ _
  rw [List.mem_singleton.1 listed, List.mem_singleton.1 listed']

theorem secretKeys_decided : (Piece.word (secretKeys.map anyCase)).Decided := by
  intro w listed v listed' cs fits fits'
  obtain ⟨key, known, rfl⟩ := List.mem_map.1 listed
  obtain ⟨other, known', rfl⟩ := List.mem_map.1 listed'
  rw [anyCase, afterWord_letters, Option.isSome_ite] at fits fits'
  rcases List.prefix_or_prefix_of_prefix fits fits' with front | front
  · rw [secretKeys_apart other known' key known front]
  · rw [secretKeys_apart key known other known' front]

theorem isTokenChar_of_blank (blank : isBlank c = true) : isTokenChar c = false := by
  cases token : isTokenChar c with
  | false => rfl
  | true =>
    simp only [isTokenChar, fold_of_blank blank, isLower, isDecimal, Bool.or_eq_true, Bool.and_eq_true,
      decide_eq_true_eq, beq_iff_eq] at token
    simp only [isBlank, Bool.or_eq_true, Bool.and_eq_true, decide_eq_true_eq, beq_iff_eq] at blank
    rcases token with (((((((low | low) | rfl) | rfl) | rfl) | rfl) | rfl) | rfl)
    any_goals omega
    all_goals
      revert blank
      decide

theorem isValueChar_of_blank (blank : isBlank c = true) : isValueChar c = false := by
  simp [isValueChar, blank]

theorem ne_of_blank (blank : isBlank c = true) (solid : isBlank d = false) : c ≠ d := by
  rintro rfl
  rw [solid] at blank
  cases blank

theorem bearerToken_parted : bearerToken.Parted := by
  refine ⟨decided_of_one _, nofun, trivial, ?_, trivial, ?_, trivial, fun _ _ => rfl, trivial⟩
  · intro c blank
    simp [Pattern.begins, Piece.begins, Piece.consumes, isTokenChar_of_blank blank]
  · intro c token
    have other : c ≠ '=' := by
      rintro rfl
      revert token
      decide
    simp [Pattern.begins, Piece.begins, exactly, other]

theorem keyedValue_parted : keyedValue.Parted := by
  have after_blank : ∀ c, isBlank c = true → c ≠ '"' ∧ c ≠ ':' ∧ c ≠ '=' ∧ isValueChar c = false :=
    fun c blank => ⟨ne_of_blank blank (by decide), ne_of_blank blank (by decide),
      ne_of_blank blank (by decide), isValueChar_of_blank blank⟩
  refine ⟨trivial, ?_, secretKeys_decided, nofun, trivial, ?_, trivial, ?_, trivial, nofun, trivial, ?_,
    trivial, ?_, trivial, ?_, trivial, fun _ _ => rfl, trivial⟩
  · rintro c quote
    obtain rfl := eq_of_beq quote
    decide
  · rintro c quote
    obtain rfl := eq_of_beq quote
    decide
  · intro c blank
    simp [Pattern.begins, Piece.begins, Piece.consumes, after_blank c blank]
  · intro c blank
    simp [Pattern.begins, Piece.begins, Piece.consumes, exactly, after_blank c blank]
  · rintro c quote
    obtain rfl := eq_of_beq quote
    decide
  · intro c value
    have other : c ≠ '"' := by
      rintro rfl
      revert value
      decide
    simp [Pattern.begins, Piece.begins, exactly, other]

theorem webToken_parted : webToken.Parted := by
  have point : ∀ c, isWebTokenChar c = true → c ≠ '.' := by
    rintro c part rfl
    revert part
    decide
  refine ⟨decided_of_one _, nofun, trivial, ?_, trivial, nofun, trivial, ?_, trivial, nofun, trivial,
    fun _ _ => rfl, trivial⟩
  · intro c part
    simp [Pattern.begins, Piece.begins, Piece.consumes, exactly, point c part]
  · intro c part
    simp [Pattern.begins, Piece.begins, Piece.consumes, exactly, point c part]

end HostControl.Redaction
