/-
Module: HostControl.Proofs.Redaction.Residue
Purpose: What a redacted text still holds. Its characters are followed back through the replacements, each of
  them kept or put there with a marker: a part that no marker can overlap was kept all along, and no match began
  in front of it. So no bearer token and no web token is left, and where a name of a secret still has a value,
  that value begins with a marker that was put there.
Main exports: Glyph, reading, Replaced, Pattern.mark, Replaced.part_kept, redactMarked, KeyAndValue,
  redact_leaves_no_credential
-/
import HostControl.Proofs.Redaction.Completeness
import HostControl.Proofs.Redaction.Narrowing

namespace HostControl.Redaction

open Text

/-! ### Characters and where they come from -/

/-- A character that was kept, or one that was put there with a marker. -/
inductive Glyph where
  | kept (c : Char)
  | put (c : Char)

def Glyph.char : Glyph → Char
  | .kept c | .put c => c

/-- The text that glyphs show. -/
def reading (gs : List Glyph) : List Char := gs.map Glyph.char

/-- A marker that was put there. -/
def putMarker : List Glyph := marker.map .put

variable {p : Pattern} {g : Glyph} {gs out x y w a t : List Glyph} {cs : List Char}

@[simp] theorem reading_nil : reading [] = [] := rfl

@[simp] theorem reading_cons (g : Glyph) (gs : List Glyph) : reading (g :: gs) = g.char :: reading gs := rfl

@[simp] theorem reading_append (x y : List Glyph) : reading (x ++ y) = reading x ++ reading y :=
  List.map_append

@[simp] theorem length_reading (gs : List Glyph) : (reading gs).length = gs.length := List.length_map _

@[simp] theorem reading_kept (cs : List Char) : reading (cs.map .kept) = cs := by
  simp [reading, Function.comp_def, Glyph.char]

@[simp] theorem reading_putMarker : reading putMarker = marker := by
  simp [reading, putMarker, Function.comp_def, Glyph.char]

/-- A text that is read in parts was put together from such parts. -/
theorem parts_of_reading {b f e : List Char} (parts : reading gs = b ++ f ++ e) :
    ∃ x y w, gs = x ++ y ++ w ∧ reading x = b ∧ reading y = f ∧ reading w = e := by
  obtain ⟨xy, w, rfl, parts, last⟩ := List.map_eq_append_iff.1 parts
  obtain ⟨x, y, rfl, first, middle⟩ := List.map_eq_append_iff.1 parts
  exact ⟨x, y, w, rfl, first, middle, last⟩

/-! ### Replacing with the origins kept -/

/-- What becomes of glyphs when every text of a pattern is replaced by a marker. -/
inductive Replaced (p : Pattern) : List Glyph → List Glyph → Prop where
  | nil : Replaced p [] []
  | keep {g : Glyph} {gs out : List Glyph} :
      p.rest? (reading (g :: gs)) = none → Replaced p gs out → Replaced p (g :: gs) (g :: out)
  | mark {found gs out : List Glyph} :
      p.rest? (reading (found ++ gs)) = some (reading gs) → Replaced p gs out →
      Replaced p (found ++ gs) (putMarker ++ out)

/-- Replaces, from left to right, every text of the pattern by a marker that is put there. -/
def Pattern.mark (p : Pattern) : List Glyph → List Glyph
  | [] => []
  | g :: gs =>
    match p.rest? (reading (g :: gs)) with
    | some after => putMarker ++ p.mark (gs.drop (gs.length - after.length))
    | none => g :: p.mark gs
termination_by gs => gs.length
decreasing_by
  · rw [List.length_drop, List.length_cons]
    omega
  · exact Nat.lt_succ_self _

theorem replaced_mark (consumes : p.consumes = true) (gs : List Glyph) : Replaced p gs (p.mark gs) := by
  induction h : gs.length using Nat.strongRecOn generalizing gs with
  | ind n ih =>
    cases gs with
    | nil =>
      rw [Pattern.mark]
      exact .nil
    | cons g gs =>
      rw [Pattern.mark]
      cases fits : p.rest? (reading (g :: gs)) with
      | none => exact .keep fits (ih gs.length (by simp [← h]) gs rfl)
      | some after =>
        obtain ⟨front, parts, takes⟩ := Pattern.rest?_suffix fits
        obtain ⟨found, rest, whole, rfl, rfl⟩ := List.map_eq_append_iff.1 parts
        cases found with
        | nil => exact absurd rfl (takes consumes)
        | cons g' found =>
          rw [List.cons_append, List.cons.injEq] at whole
          obtain ⟨rfl, rfl⟩ := whole
          have behind : (found ++ rest).drop ((found ++ rest).length - (reading rest).length) = rest := by
            rw [length_reading, List.length_append, Nat.add_sub_cancel, List.drop_left]
          have shorter : rest.length < n := by
            rw [← h, List.length_cons, List.length_append]
            omega
          dsimp only
          rw [← reading, behind]
          exact @Replaced.mark _ (g :: found) _ _ fits (ih rest.length shorter rest rfl)

/-- The origins do not change what is read. -/
theorem Replaced.reading_eq (consumes : p.consumes = true) (replaced : Replaced p gs out) :
    reading out = p.replaceAll marker (reading gs) := by
  induction replaced with
  | nil => rw [reading_nil, Pattern.replaceAll]
  | keep fails _ ih =>
    rw [reading_cons] at fails
    rw [reading_cons, reading_cons, Pattern.replaceAll_of_none fails, ih]
  | mark fits _ ih => rw [reading_append, reading_putMarker, Pattern.replaceAll_of_some consumes fits, ih]

/-! ### Back to the text before -/

/-- A text that no marker can overlap: it has no bracket, and a character that is not of the marker. -/
structure Foreign (cs : List Char) : Prop where
  opens : '[' ∉ cs
  closes : ']' ∉ cs
  other : ∃ d ∈ cs, d ∉ marker

/-- Where such a text follows a front part of the marker, that part is all of it. -/
theorem Foreign.apart {found m n b e : List Char} (foreign : Foreign found) (marks : marker = n ++ m)
    (parts : found ++ e = m ++ b) : m = [] := by
  rcases List.eq_nil_or_concat m with none_left | ⟨m', d, rfl⟩
  · exact none_left
  · have last : d = ']' := by
      have := congrArg List.getLast? marks
      simp only [List.concat_eq_append, ← List.append_assoc, List.getLast?_concat] at this
      exact (Option.some.inj this).symm
    rcases List.append_eq_append_iff.1 parts with ⟨f, within, _⟩ | ⟨f, rfl, _⟩
    · obtain ⟨c, listed, other⟩ := foreign.other
      rw [marks, within] at other
      exact absurd (by simp [listed]) other
    · exact absurd (by simp [last]) foreign.closes

/-- Up to the first bracket that opens, everything was kept. -/
theorem Replaced.front_kept (opens : '[' ∉ reading a) (replaced : Replaced p gs (a ++ t)) :
    ∃ hs, gs = a ++ hs ∧ Replaced p hs t := by
  induction a generalizing gs with
  | nil => exact ⟨gs, rfl, replaced⟩
  | cons g a ih =>
    rw [reading_cons, List.mem_cons, not_or] at opens
    generalize whole : g :: a ++ t = out at replaced
    cases replaced with
    | nil => cases whole
    | keep fails later =>
      cases whole
      obtain ⟨hs, rfl, replaced⟩ := ih opens.2 later
      exact ⟨hs, rfl, replaced⟩
    | mark =>
      obtain rfl := (List.cons.inj whole).1
      exact absurd rfl opens.1

/-- A part that no marker can overlap was kept, and no match began in front of it. -/
theorem Replaced.part_kept (foreign : Foreign (reading y)) (replaced : Replaced p gs (x ++ y ++ w)) :
    ∃ b e, gs = b ++ y ++ e ∧ p.rest? (reading (y ++ e)) = none ∧ Replaced p e w := by
  have some_part : y ≠ [] := by
    rintro rfl
    obtain ⟨d, listed, _⟩ := foreign.other
    cases listed
  generalize whole : x ++ y ++ w = out at replaced
  induction replaced generalizing x with
  | nil => simp [some_part] at whole
  | @keep g gs out fails later ih =>
    cases x with
    | nil =>
      -- The part begins with this glyph, and no marker begins before its end.
      obtain ⟨h, y, rfl⟩ := List.exists_cons_of_ne_nil some_part
      cases whole
      obtain ⟨e, rfl, replaced⟩ := later.front_kept (fun listed => foreign.opens (List.mem_cons_of_mem _ listed))
      exact ⟨[], e, rfl, fails, replaced⟩
    | cons h x =>
      cases whole
      obtain ⟨b, e, rfl, fails', replaced⟩ := ih rfl
      exact ⟨g :: b, e, rfl, fails', replaced⟩
  | @mark found gs out fits later ih =>
    rw [List.append_assoc, List.append_eq_append_iff] at whole
    -- The part begins in the marker, of which then nothing is left, or behind it.
    rcases whole with ⟨m, marks, parts⟩ | ⟨x, rfl, parts⟩
    · have marks' : marker = reading x ++ reading m := by rw [← reading_append, ← marks, reading_putMarker]
      have parts' : reading y ++ reading w = reading m ++ reading out := by
        rw [← reading_append, parts, reading_append]
      obtain rfl := List.map_eq_nil_iff.1 (foreign.apart marks' parts')
      obtain ⟨b, e, rfl, fails', replaced⟩ := ih (x := []) parts
      exact ⟨found ++ b, e, by simp, fails', replaced⟩
    · rw [← List.append_assoc] at parts
      obtain ⟨b, e, rfl, fails', replaced⟩ := ih parts.symm
      exact ⟨found ++ b, e, by simp, fails', replaced⟩

/-- In front of the first place where a match may begin everything is kept. -/
theorem Replaced.keeps_front (fails : ∀ c ∈ reading a, ∀ cs, p.rest? (c :: cs) = none)
    (replaced : Replaced p (a ++ t) out) : ∃ out', out = a ++ out' ∧ Replaced p t out' := by
  induction a generalizing out with
  | nil => exact ⟨out, rfl, replaced⟩
  | cons g a ih =>
    rw [reading_cons, List.forall_mem_cons] at fails
    generalize whole : g :: a ++ t = gs at replaced
    cases replaced with
    | nil => cases whole
    | keep _ later =>
      cases whole
      obtain ⟨out', rfl, replaced⟩ := ih fails.2 later
      exact ⟨out', rfl, replaced⟩
    | mark fits =>
      rw [← whole, List.cons_append, reading_cons, fails.1] at fits
      cases fits

theorem Replaced.eq_nil (replaced : Replaced p gs []) : gs = [] := by
  generalize nothing : ([] : List Glyph) = out at replaced
  cases replaced with
  | nil => rfl
  | keep => cases nothing
  | mark => cases nothing

/-- The same of a part of the text that is read. -/
theorem Replaced.text_kept {before found after : List Char} (foreign : Foreign found)
    (replaced : Replaced p gs out) (whole : reading out = before ++ found ++ after) :
    ∃ b e, reading gs = b ++ found ++ e ∧ p.rest? (found ++ e) = none ∧ (after = [] → e = []) := by
  obtain ⟨x, y, w, rfl, rfl, rfl, rfl⟩ := parts_of_reading whole
  obtain ⟨b, e, rfl, fails, later⟩ := replaced.part_kept foreign
  refine ⟨reading b, reading e, by simp, by rwa [reading_append] at fails, fun nothing => ?_⟩
  obtain rfl := List.map_eq_nil_iff.1 nothing
  rw [later.eq_nil, reading_nil]

theorem Replaced.infix_kept {found : List Char} (foreign : Foreign found) (replaced : Replaced p gs out)
    (part : found <:+: reading out) : found <:+: reading gs := by
  obtain ⟨before, after, whole⟩ := part
  obtain ⟨b, e, whole', _⟩ := replaced.text_kept foreign whole.symm
  exact ⟨b, e, whole'.symm⟩

/-! ### White space -/

theorem foreign_of_blank {c : Char} (listed : c ∈ cs) (blank : cs.all isBlank = true) : Foreign cs := by
  have solid : (marker.all fun d => !isBlank d) = true := by decide
  simp only [List.all_eq_true, Bool.not_eq_true'] at solid blank
  have apart : ∀ d ∈ marker, d ∉ cs := by
    intro d known here
    have := blank d here
    rw [solid d known] at this
    cases this
  exact ⟨apart '[' (by decide), apart ']' (by decide), c, listed, fun known => apart c known listed⟩

/-- Markers bring no blanks with them, so a tidy text stays tidy. -/
theorem Replaced.tidy (replaced : Replaced p gs out) (tidy : Tidy (reading gs)) : Tidy (reading out) where
  spaces c listed blank := by
    obtain ⟨before, after, whole⟩ := List.append_of_mem listed
    have foreign : Foreign [c] := foreign_of_blank List.mem_cons_self (by simpa using blank)
    obtain ⟨b, e, whole', _⟩ := replaced.text_kept foreign (by rw [whole, List.append_cons])
    exact tidy.spaces c (by simp [whole']) blank
  single := by
    rintro ⟨before, after, whole⟩
    have foreign : Foreign [' ', ' '] := foreign_of_blank List.mem_cons_self (by decide)
    obtain ⟨b, e, whole', _⟩ := replaced.text_kept foreign whole.symm
    exact tidy.single ⟨b, e, whole'.symm⟩
  first := by
    cases replaced with
    | nil => nofun
    | keep => exact tidy.first
    | mark =>
      have opens : marker.head? = some '[' := by decide
      rw [reading_append, reading_putMarker, List.head?_append, opens]
      simp
  last := by
    intro space
    obtain ⟨before, whole⟩ := List.getLast?_eq_some_iff.1 space
    have foreign : Foreign [' '] := foreign_of_blank List.mem_cons_self (by decide)
    obtain ⟨b, e, whole', _, at_end⟩ := replaced.text_kept foreign (whole.trans (List.append_nil _).symm)
    rw [at_end rfl, List.append_nil] at whole'
    exact tidy.last (List.getLast?_eq_some_iff.2 ⟨b, whole'⟩)

/-! ### Credentials -/

/-- The replacements of a redaction, the origin of every character kept. -/
def redactMarked (cs : List Char) : List Glyph :=
  webToken.mark (keyedValue.mark (bearerToken.mark ((squeeze cs).map .kept)))

theorem webToken_consumes : webToken.consumes = true := by decide

/-- The stages of a redaction. -/
theorem redactMarked_stages (cs : List Char) : ∃ first second,
    Replaced bearerToken ((squeeze cs).map .kept) first ∧ Replaced keyedValue first second ∧
      Replaced webToken second (redactMarked cs) :=
  ⟨_, _, replaced_mark bearerToken_consumes _, replaced_mark keyedValue_consumes _,
    replaced_mark webToken_consumes _⟩

theorem reading_redactMarked (cs : List Char) : reading (redactMarked cs) = redact cs := by
  rw [redactMarked, (replaced_mark webToken_consumes _).reading_eq webToken_consumes,
    (replaced_mark keyedValue_consumes _).reading_eq keyedValue_consumes,
    (replaced_mark bearerToken_consumes _).reading_eq bearerToken_consumes, reading_kept, redact]

theorem tidy_redact (cs : List Char) : Tidy (redact cs) := by
  obtain ⟨first, second, bearers, values, tokens⟩ := redactMarked_stages cs
  rw [← reading_redactMarked]
  exact tokens.tidy (values.tidy (bearers.tidy (by rw [reading_kept]; exact tidy_squeeze cs)))

/-- A text of a pattern that takes no bracket, but a character that is not of the marker. -/
theorem foreign_of_accepts (set : CharSet) {piece : Piece} (takes : piece = .one set ∨ piece = .some set)
    (listed : piece ∈ p) (opens : p.avoids '[' = true) (closes : p.avoids ']' = true)
    (other : (marker.all fun d => !set d) = true) (accepted : p.Accepts cs) : Foreign cs where
  opens := accepted.not_mem opens
  closes := accepted.not_mem closes
  other := by
    obtain ⟨d, inside, fits⟩ := accepted.exists_mem set takes listed
    refine ⟨d, inside, fun known => ?_⟩
    have := List.all_eq_true.1 other d known
    rw [fits] at this
    cases this

/-- No text of a pattern is left where all of them were replaced. -/
theorem Replaced.not_accepts {found : List Char} (parted : p.Parted) (replaced : Replaced p gs out)
    (foreign : Foreign found) (part : found <:+: reading out) : ¬ p.Accepts found := by
  obtain ⟨before, after, whole⟩ := part
  obtain ⟨b, e, _, fails, _⟩ := replaced.text_kept foreign whole.symm
  exact (Pattern.rest?_eq_none_iff parted).1 fails found (List.prefix_append ..)

theorem redact_no_bearerToken {found : List Char} (part : found <:+: redact cs) :
    ¬ bearerToken.Accepts found := by
  intro accepted
  have foreign : Foreign found := foreign_of_accepts isBlank (.inr rfl) (by simp [bearerToken])
    (by decide) (by decide) (by decide) accepted
  obtain ⟨first, second, bearers, values, tokens⟩ := redactMarked_stages cs
  rw [← reading_redactMarked] at part
  have in_second := tokens.infix_kept foreign part
  exact bearers.not_accepts bearerToken_parted foreign (values.infix_kept foreign in_second) accepted

theorem redact_no_webToken {found : List Char} (part : found <:+: redact cs) : ¬ webToken.Accepts found := by
  intro accepted
  have foreign : Foreign found := foreign_of_accepts (exactly '.') (.inl rfl) (by simp [webToken])
    (by decide) (by decide) (by decide) accepted
  obtain ⟨_, _, _, _, tokens⟩ := redactMarked_stages cs
  rw [← reading_redactMarked] at part
  exact tokens.not_accepts webToken_parted foreign part accepted

/-! ### Values that are left -/

/-- A name of a secret, and what stands between it and its value. -/
def upToValue : Pattern := keyedHead ++ [.one isSeparator, .many isBlank, .maybe (exactly '"')]

/-- A value, and a quotation mark behind it. -/
def fromValue : Pattern := [.some isValueChar, .maybe (exactly '"')]

/-- A text that is a secret value with its name, in its two parts. -/
structure KeyAndValue (found key value : List Char) : Prop where
  whole : found = key ++ value
  key : upToValue.Accepts key
  value : fromValue.Accepts value

theorem keyedValue_accepts_iff {found : List Char} :
    keyedValue.Accepts found ↔ ∃ key value, KeyAndValue found key value := by
  have parts : keyedValue = upToValue ++ fromValue := rfl
  rw [parts, Pattern.accepts_append]
  constructor
  · rintro ⟨key, value, whole, accepted, accepted'⟩
    exact ⟨key, value, whole, accepted, accepted'⟩
  · rintro ⟨key, value, whole, accepted, accepted'⟩
    exact ⟨key, value, whole, accepted, accepted'⟩

theorem fromValue_begins {value : List Char} (accepted : fromValue.Accepts value) :
    ∃ c rest, value = c :: rest ∧ isValueChar c = true := by
  cases value with
  | nil =>
    obtain ⟨c, listed, _⟩ := accepted.exists_mem isValueChar (.inr rfl) List.mem_cons_self
    cases listed
  | cons c rest =>
    have begins := accepted.begins
    rw [fromValue, Pattern.begins, Piece.consumes, Bool.not_true, Bool.false_and, Bool.or_false] at begins
    exact ⟨c, rest, rfl, begins⟩

theorem webToken_begins {c : Char} {after : List Char} (fits : webToken.rest? (c :: cs) = some after) :
    c = 'e' := by
  rw [webToken, Pattern.rest?_cons, Option.bind_eq_some_iff] at fits
  obtain ⟨_, word, _⟩ := fits
  obtain ⟨front, whole, accepted⟩ := Piece.rest?_sound word
  cases accepted with
  | word listed spelled =>
    obtain rfl := List.mem_singleton.1 listed
    cases spelled with
    | cons fits _ =>
      obtain rfl := (List.cons.inj whole).1
      exact eq_of_beq fits

/-- No web token begins within a marker. -/
theorem webToken_of_marker : ∀ c ∈ marker, ∀ cs, webToken.rest? (c :: cs) = none := by
  intro c known cs
  cases fits : webToken.rest? (c :: cs) with
  | none => rfl
  | some after =>
    have other : 'e' ∉ marker := by decide
    rw [webToken_begins fits] at known
    exact absurd known other

/-- Where a value begins after web tokens were replaced, one began before. -/
theorem value_before_webToken {h : Glyph} {hs : List Glyph} (replaced : Replaced webToken (h :: hs) (g :: out))
    (value : isValueChar g.char = true) : isValueChar h.char = true := by
  generalize before : h :: hs = gs at replaced
  generalize now : g :: out = out' at replaced
  cases replaced with
  | nil => cases before
  | keep =>
    cases before
    cases now
    exact value
  | mark fits =>
    rw [← before, reading_cons] at fits
    rw [webToken_begins fits]
    decide

/-- What follows a name that is left, if it begins a value, is a marker. -/
theorem value_marked {first second key rest : List Glyph} (values : Replaced keyedValue first second)
    (tokens : Replaced webToken second (x ++ key ++ g :: rest)) (named : upToValue.Accepts (reading key))
    (value : isValueChar g.char = true) : putMarker <+: g :: rest := by
  have foreign : Foreign (reading key) := foreign_of_accepts isSeparator (.inl rfl)
    (by simp [upToValue]) (by decide) (by decide) (by decide) named
  obtain ⟨b, e, rfl, _, tokens⟩ := tokens.part_kept foreign
  obtain ⟨b', e', rfl, fails, values⟩ := values.part_kept foreign
  cases values with
  | nil =>
    have nothing := tokens.reading_eq webToken_consumes
    rw [reading_nil, Pattern.replaceAll] at nothing
    cases nothing
  | @keep h hs _ _ _ =>
    -- The name and the first character of the value are a text of the pattern, so a match would have begun there.
    have begun : fromValue.Accepts [h.char] :=
      @Pattern.Accepts.cons _ _ [h.char] []
        (.some (List.cons_ne_nil _ _) (by simpa using value_before_webToken tokens value)) (.cons .maybeNone .nil)
    have accepted : keyedValue.Accepts (reading key ++ [h.char]) :=
      keyedValue_accepts_iff.2 ⟨_, _, rfl, named, begun⟩
    exact absurd accepted ((Pattern.rest?_eq_none_iff keyedValue_parted).1 fails _ ⟨reading hs, by simp⟩)
  | mark =>
    obtain ⟨out', whole, _⟩ := tokens.keeps_front (by rw [reading_putMarker]; exact webToken_of_marker)
    exact ⟨out', whole.symm⟩

/-! ### What is kept of a body -/

theorem limit_eq (cs : List Char) :
    limit cs = if cs.length ≤ keptLength then cs else cs.take keptLength ++ cutMark := by
  rw [limit]
  by_cases short : cs.length ≤ keptLength
  · rw [if_neg (Nat.not_lt.2 short), if_pos short]
  · rw [if_pos (Nat.not_le.1 short), if_neg short]

/-- A body is kept without credentials: in the redacted text, the origin of whose characters is known, there is no
bearer token and no web token, each value that follows a name of a secret begins with a marker that was put there,
and spaces stand alone between other characters. Of that text the first 256 characters are kept, with a mark if
there are more. -/
theorem redact_leaves_no_credential (body : String) :
    reading (redactMarked body.toList) = redact body.toList ∧
    (∀ found, found <:+: redact body.toList → ¬ bearerToken.Accepts found ∧ ¬ webToken.Accepts found) ∧
    (∀ before found after, redact body.toList = before ++ found ++ after → keyedValue.Accepts found →
      (∃ key value, KeyAndValue found key value) ∧
      ∀ key value, KeyAndValue found key value →
        putMarker <+: (redactMarked body.toList).drop (before ++ key).length) ∧
    Tidy (redact body.toList) ∧
    sanitize body = String.ofList (if (redact body.toList).length ≤ 256 then redact body.toList
      else (redact body.toList).take 256 ++ "...[truncated]".toList) := by
  refine ⟨reading_redactMarked _, fun found part => ⟨redact_no_bearerToken part, redact_no_webToken part⟩, ?_,
    tidy_redact _, ?_⟩
  · intro before found after whole accepted
    refine ⟨keyedValue_accepts_iff.1 accepted, ?_⟩
    rintro key value ⟨rfl, named, follows⟩
    obtain ⟨c, rest, rfl, begins⟩ := fromValue_begins follows
    obtain ⟨first, second, _, values, tokens⟩ := redactMarked_stages body.toList
    have parts : reading (redactMarked body.toList) = before ++ key ++ (c :: rest ++ after) := by
      rw [reading_redactMarked, whole]
      simp
    obtain ⟨x, y, w, whole', rfl, rfl, shown⟩ := parts_of_reading parts
    cases w with
    | nil => cases shown
    | cons g w =>
      obtain ⟨rfl, _⟩ := List.cons.inj shown
      rw [whole'] at tokens ⊢
      rw [← reading_append, length_reading, List.drop_left]
      exact value_marked values tokens named begins
  · exact congrArg String.ofList (limit_eq _)

/-- A name with no value behind it is left, and the marker of the next one takes the place of its value. -/
example : redact "password=\"\"password\": x".toList = "password=\"[REDACTED]".toList := by cbv

end HostControl.Redaction
