/-
Module: HostControl.Proofs.Files.Paths
Purpose: Where the path leads that is made of another one by a new extension: to a file beside that one's, under
  another name, or else to no file at all.
Main exports: stem_append, stem_extended_ne, fileName?_of_parts, parts_of_fileName?, Beside, withExtension_beside
-/
import Mathlib.Data.List.DropRight
import HostControl.Files.Path
import HostControl.Proofs.Text.Parts

namespace HostControl.Path

open HostControl.Text (parts joined parts_ne_nil joined_parts parts_append parts_joined not_mem_of_mem_parts
  length_le_joined length_lt_joined)

variable {name extension path : Text} {ds idles : List Text}

/-! ### Extensions -/

theorem extension?_append {front : Text} (some : front ≠ []) (plain : '.' ∉ extension) :
    extension? (front ++ '.' :: extension) = .some extension := by
  have behind : (front ++ '.' :: extension).reverse.dropWhile (· != '.') = '.' :: front.reverse := by
    rw [List.reverse_append, List.reverse_cons, List.append_assoc, List.dropWhile_append_of_pos]
    · rfl
    · intro c listed
      have other : c ≠ '.' := fun same => plain (same ▸ List.mem_reverse.1 listed)
      exact bne_iff_ne.2 other
  have long : ¬(front.length + 1 ≤ 1) := by
    have := List.length_pos_iff.2 some
    omega
  rw [extension?, behind, List.length_cons, List.length_reverse, if_neg long, ← List.drop_drop, List.drop_left,
    List.drop_one, List.tail_cons]

/-- An extension is what stands behind the last dot, with something in front of that. -/
theorem exists_of_extension? (found : extension? name = some extension) :
    ∃ front, front ≠ [] ∧ '.' ∉ extension ∧ name = front ++ '.' :: extension := by
  have divided := List.takeWhile_append_dropWhile (p := (· != '.')) (l := name.reverse)
  cases behind : name.reverse.dropWhile (· != '.') with
  | nil => simp [extension?, behind] at found
  | cons c front =>
    have dot : c = '.' := by
      have stops := List.head_dropWhile_not (· != '.') (by rw [behind]; exact List.cons_ne_nil c front)
      simpa [behind] using stops
    generalize last : (name.reverse.takeWhile (· != '.')).reverse = ending
    have plain : '.' ∉ ending := by
      intro listed
      rw [← last, List.mem_reverse] at listed
      simpa using List.mem_takeWhile_imp listed
    have whole : name = front.reverse ++ '.' :: ending := by
      rw [behind, dot] at divided
      rw [← List.reverse_inj, ← divided, ← last]
      simp
    have some : front.reverse ≠ [] := by
      intro nothing
      rw [List.reverse_eq_nil_iff] at nothing
      simp [extension?, behind, nothing] at found
    rw [whole, extension?_append some plain] at found
    cases found
    exact ⟨front.reverse, some, plain, whole⟩

/-- The stem is what stands in front of the last dot. -/
theorem stem_append {front : Text} (some : front ≠ []) (plain : '.' ∉ extension) :
    stem (front ++ '.' :: extension) = front := by
  have count : (front ++ '.' :: extension).length - extension.length - 1 = front.length := by
    rw [List.length_append, List.length_cons]
    omega
  rw [stem, extension?_append some plain]
  simp only [count, List.take_left]

/-- A stem is the front of the name. -/
theorem stem_subset : stem name ⊆ name := by
  rw [stem]
  split
  · exact List.take_subset _ name
  · exact List.Subset.refl name

/-- A name that consists of its stem and an extension with a dot in it is not the name that it was made of. -/
theorem stem_extended_ne {front : Text} (plain : '.' ∉ extension) :
    stem name ++ '.' :: (front ++ '.' :: extension) ≠ name := by
  intro same
  have divided : name = (stem name ++ '.' :: front) ++ '.' :: extension := by
    rw [List.append_assoc]
    exact same.symm
  have shorter : stem ((stem name ++ '.' :: front) ++ '.' :: extension) = stem name ++ '.' :: front :=
    stem_append (by simp) plain
  rw [← divided] at shorter
  simpa using congrArg List.length shorter

/-! ### Names of files -/

/-- The parts of a path are those of its body, and idle ones. -/
theorem parts_eq_body_append (path : Text) :
    ∃ idles, parts '/' path = body path ++ idles ∧ ∀ idle ∈ idles, isIdle idle = true := by
  obtain ⟨first, rest, divided⟩ := List.exists_cons_of_ne_nil (parts_ne_nil '/' path)
  refine ⟨(rest.reverse.takeWhile isIdle).reverse, ?_, ?_⟩
  · simp only [body, divided, dropIdle]
    rw [List.cons_append, ← List.reverse_append, List.takeWhile_append_dropWhile, List.reverse_reverse]
  · intro idle listed
    exact List.mem_takeWhile_imp (List.mem_reverse.1 listed)

/-- A path with a name that only idle parts follow leads to the file of that name. -/
theorem body_of_parts (divided : parts '/' path = ds ++ name :: idles) (idle : ∀ part ∈ idles, isIdle part = true)
    (counts : isIdle name = false) : body path = ds ++ [name] := by
  have dropped : ∀ ds, dropIdle (ds ++ name :: idles) = ds ++ [name] := by
    intro ds
    rw [dropIdle, List.reverse_append, List.reverse_cons, List.append_assoc, List.dropWhile_append_of_pos]
    · simp [counts]
    · exact fun part listed => idle part (List.mem_reverse.1 listed)
  rw [body, divided]
  cases ds with
  | nil =>
    have nothing : dropIdle idles = [] := List.rdropWhile_eq_nil_iff.2 idle
    simp [nothing]
  | cons d ds => simp [dropped]

theorem fileName?_of_parts (divided : parts '/' path = ds ++ name :: idles)
    (idle : ∀ part ∈ idles, isIdle part = true) (counts : isIdle name = false) (down : isUp name = false) :
    fileName? path = some name := by
  rw [fileName?, body_of_parts divided idle counts]
  simp [counts, down]

theorem parts_of_fileName? (found : fileName? path = some name) :
    ∃ ds idles, parts '/' path = ds ++ name :: idles ∧ (∀ part ∈ idles, isIdle part = true) ∧
      isIdle name = false ∧ isUp name = false := by
  obtain ⟨idles, divided, idle⟩ := parts_eq_body_append path
  rw [fileName?] at found
  cases last : (body path).getLast? with
  | none => simp [last] at found
  | some part =>
    obtain ⟨ds, front⟩ := List.getLast?_eq_some_iff.1 last
    simp only [last] at found
    split at found
    · cases found
    · next counts =>
      cases found
      rw [Bool.or_eq_true, not_or, Bool.not_eq_true, Bool.not_eq_true] at counts
      refine ⟨ds, idles, ?_, idle, counts⟩
      rw [divided, front, List.append_assoc]
      rfl

/-- A path without the name of a file ends with an idle part, or by leading up. -/
theorem last_of_fileName?_none (none : fileName? path = .none) :
    ∃ last, (parts '/' path).getLast? = some last ∧ (isIdle last = true ∨ isUp last = true) := by
  obtain ⟨idles, divided, idle⟩ := parts_eq_body_append path
  rcases List.eq_nil_or_concat idles with rfl | ⟨before, last, rfl⟩
  · rw [List.append_nil] at divided
    rw [fileName?, ← divided] at none
    cases end_ : (parts '/' path).getLast? with
    | none => exact absurd (List.getLast?_eq_none_iff.1 end_) (parts_ne_nil '/' path)
    | some last =>
      rw [end_] at none
      by_cases ends : (isIdle last || isUp last) = true
      · exact ⟨last, rfl, Bool.or_eq_true_iff.1 ends⟩
      · simp [ends] at none
  · refine ⟨last, ?_, .inl (idle last (by simp))⟩
    rw [divided, List.concat_eq_append, ← List.append_assoc, List.getLast?_concat]

/-! ### New extensions -/

/-- Two paths into one directory, under different names. The first one may go on idly behind its name. -/
structure Beside (path other : Text) (ds : List Text) (name new : Text) (idles : List Text) : Prop where
  parts_path : parts '/' path = ds ++ name :: idles
  idle : ∀ part ∈ idles, isIdle part = true
  counts : isIdle name = false
  down : isUp name = false
  parts_other : parts '/' other = ds ++ [new]
  different : new ≠ name

theorem parts_extend (divided : parts '/' path = ds ++ name :: idles) (idle : ∀ part ∈ idles, isIdle part = true)
    (counts : isIdle name = false) (down : isUp name = false) (whole : '/' ∉ extension) :
    parts '/' (extend extension path) = ds ++ [stem name ++ '.' :: extension] := by
  have each : ∀ part ∈ ds ++ [stem name ++ '.' :: extension], '/' ∉ part := by
    intro part listed slash
    rcases List.mem_append.1 listed with before | last
    · exact not_mem_of_mem_parts (divided ▸ List.mem_append_left _ before) slash
    · rw [List.mem_singleton.1 last, List.mem_append, List.mem_cons] at slash
      rcases slash with early | same | late
      · exact not_mem_of_mem_parts (divided ▸ List.mem_append_right _ List.mem_cons_self) (stem_subset early)
      · exact absurd same (by decide)
      · exact whole late
  rw [extend, fileName?_of_parts divided idle counts down, body_of_parts divided idle counts,
    List.dropLast_concat]
  exact parts_joined (by simp) each

/-- What is left of an idle part when its end is cut off is idle. -/
theorem isIdle_of_append {part cut : Text} (idle : isIdle (part ++ cut) = true) : isIdle part = true := by
  simp only [isIdle, Bool.or_eq_true, decide_eq_true_eq] at idle ⊢
  rcases idle with nothing | dot
  · exact .inl (List.append_eq_nil_iff.1 nothing).1
  · rcases List.append_eq_singleton_iff.1 dot with ⟨nothing, _⟩ | ⟨dot, _⟩
    · exact .inl nothing
    · exact .inr dot

theorem isIdle_dotted {front old : Text} (some : front ≠ []) : isIdle (front ++ '.' :: old) = false := by
  simp [isIdle, List.append_eq_singleton_iff, some]

/-- A cut that takes no more than the extension from a name leaves its last dot. -/
theorem kept_of_append {front old part cut : Text} (whole : part ++ cut = front ++ '.' :: old)
    (short : cut.length ≤ old.length) : ∃ kept, kept <+: old ∧ part = front ++ '.' :: kept := by
  rw [← List.singleton_append, ← List.append_assoc] at whole
  rcases List.append_eq_append_iff.1 whole with ⟨more, stops, ends⟩ | ⟨kept, stops, ends⟩
  · have nothing : more = [] := by
      have long := congrArg List.length ends
      rw [List.length_append] at long
      exact List.eq_nil_of_length_eq_zero (by omega)
    rw [nothing, List.append_nil] at stops
    exact ⟨[], List.nil_prefix, stops.symm⟩
  · exact ⟨kept, ⟨cut, ends.symm⟩, by rw [stops, List.append_assoc]; rfl⟩

/-- Cutting off as many characters as the extension has leaves the name, up to its last dot at least. -/
theorem parts_cut {front old : Text} (divided : parts '/' path = ds ++ (front ++ '.' :: old) :: idles)
    (idle : ∀ part ∈ idles, isIdle part = true) :
    ∃ kept idles', kept <+: old ∧ (∀ part ∈ idles', isIdle part = true) ∧
      parts '/' (path.take (path.length - old.length)) = ds ++ (front ++ '.' :: kept) :: idles' := by
  generalize cut : path.take (path.length - old.length) = before
  generalize off : path.drop (path.length - old.length) = behind
  have short : behind.length ≤ old.length := by
    rw [← off, List.length_drop]
    omega
  have whole : before ++ behind = path := by rw [← cut, ← off, List.take_append_drop]
  obtain ⟨F, u, first⟩ := (List.eq_nil_or_concat _).resolve_left (parts_ne_nil '/' before)
  obtain ⟨v, more, second⟩ := List.exists_cons_of_ne_nil (parts_ne_nil '/' behind)
  rw [List.concat_eq_append] at first
  have joins := joined_parts '/' behind
  rw [second] at joins
  have within : v.length ≤ old.length := by
    have first_part : v.length ≤ (joined '/' (v :: more)).length := length_le_joined List.mem_cons_self
    rw [joins] at first_part
    omega
  have meets : F ++ (u ++ v) :: more = ds ++ (front ++ '.' :: old) :: idles := by
    rw [← parts_append first second, whole, divided]
  rw [first]
  -- The cut goes through the name, or through an idle part behind it. It does not reach the parts before.
  rcases List.append_eq_append_iff.1 meets with ⟨between, before_name, rest⟩ | ⟨between, name_before, rest⟩
  · cases between with
    | nil =>
      obtain ⟨name_eq, -⟩ := List.cons.inj rest
      obtain ⟨kept, front_of, name_cut⟩ := kept_of_append name_eq within
      rw [List.append_nil] at before_name
      exact ⟨kept, [], front_of, by simp, by rw [name_cut, before_name]⟩
    | cons part between =>
      have later : front ++ '.' :: old ∈ more := by
        rw [List.cons_append] at rest
        rw [(List.cons.inj rest).2]
        simp
      have long : (front ++ '.' :: old).length < (joined '/' (v :: more)).length := length_lt_joined later
      rw [joins, List.length_append, List.length_cons] at long
      omega
  · cases between with
    | nil =>
      obtain ⟨name_eq, -⟩ := List.cons.inj rest
      obtain ⟨kept, front_of, name_cut⟩ := kept_of_append name_eq.symm within
      rw [List.append_nil] at name_before
      exact ⟨kept, [], front_of, by simp, by rw [name_cut, name_before]⟩
    | cons part between =>
      rw [List.cons_append] at rest
      obtain ⟨rfl, idles_eq⟩ := List.cons.inj rest
      refine ⟨old, between ++ [u], List.prefix_refl old, ?_, by rw [name_before, List.append_assoc]; rfl⟩
      intro part listed
      rcases List.mem_append.1 listed with before_cut | last
      · exact idle part (by rw [idles_eq]; exact List.mem_append_left _ before_cut)
      · rw [List.mem_singleton.1 last]
        exact isIdle_of_append (idle (u ++ v) (by rw [idles_eq]; simp))

/-- Another extension leads to a file beside the one of the path, or to none: then the path ends with an idle part or
by leading up. The new extension has to have a dot in it, as the old one has none. -/
theorem withExtension_beside (front last path : Text) (whole : '/' ∉ front ++ '.' :: last)
    (plain : '.' ∉ last) :
    (∃ ds name new idles, Beside path (withExtension (front ++ '.' :: last) path) ds name new idles) ∨
      fileName? (withExtension (front ++ '.' :: last) path) = none := by
  cases named : fileName? path with
  | none =>
    rw [withExtension, named]
    simp only [Option.bind_none, extend, named]
    exact .inr trivial
  | some name =>
    obtain ⟨ds, idles, divided, idle, counts, down⟩ := parts_of_fileName? named
    cases extended : extension? name with
    | none =>
      rw [withExtension, named, Option.bind_some, extended]
      exact .inl ⟨ds, name, _, idles, divided, idle, counts, down,
        parts_extend divided idle counts down whole, stem_extended_ne plain⟩
    | some old =>
      rw [withExtension, named, Option.bind_some, extended]
      obtain ⟨stays, some, plain_old, rfl⟩ := exists_of_extension? extended
      obtain ⟨kept, idles', front_of, idle', cut⟩ := parts_cut divided idle
      have counts' : isIdle (stays ++ '.' :: kept) = false := isIdle_dotted some
      by_cases up : isUp (stays ++ '.' :: kept) = true
      · have nameless : fileName? (path.take (path.length - old.length)) = none := by
          rw [fileName?, body_of_parts cut idle' counts']
          simp [up]
        simp only [extend, nameless]
        exact .inr trivial
      · have divided' := parts_extend cut idle' counts' (Bool.not_eq_true _ ▸ up) whole
        rw [stem_append some fun listed => plain_old (front_of.subset listed)] at divided'
        have different : stem (stays ++ '.' :: old) ++ '.' :: (front ++ '.' :: last) ≠ stays ++ '.' :: old :=
          stem_extended_ne plain
        rw [stem_append some plain_old] at different
        exact .inl ⟨ds, _, _, idles, divided, idle, counts, down, divided', different⟩

end HostControl.Path
