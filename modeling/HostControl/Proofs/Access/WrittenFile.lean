/-
Module: HostControl.Proofs.Access.WrittenFile
Purpose: The proxy file round-trips, whatever the name of its middleware and the patterns in it are. No
  character of theirs ends a line or leaves the quotes that it is written in: the file has six lines, it is
  read as a document with the one middleware and its ranges, and the registry can be opened from it.
Main exports: isText_keyChars, isText_itemChars, parts_renderChars, proxy_file_round_trips
-/
import HostControl.Proofs.Access.Representation
import HostControl.Proofs.Text.Parts

namespace HostControl.Access

open Text

/-! ### What stands on a line -/

theorem upperDigit_isText {d : Nat} (small : d < 16) : Toml.isText (upperDigit d) = true := by
  have each : ∀ d < 16, Toml.isText (upperDigit d) = true := by decide
  exact each d small

/-- A character in double quotes is written with characters that may stand on a line. -/
theorem isText_basicChar (c : Char) : ∀ d ∈ basicChar c, Toml.isText d = true := by
  unfold basicChar
  iterate 7
    split
    · exact List.all_eq_true.1 (by decide)
  split
  · next control =>
      have low : c.toNat < 128 := by
        simp only [isControl, Bool.or_eq_true, decide_eq_true_eq, beq_iff_eq] at control
        omega
      have marks : Toml.isText '\\' = true ∧ Toml.isText 'u' = true ∧ Toml.isText '0' = true := by decide
      simp [marks, upperDigit_isText (show c.toNat / 16 < 16 by omega),
        upperDigit_isText (show c.toNat % 16 < 16 by omega)]
  · next plain =>
      intro d member
      rw [List.mem_singleton.1 member]
      exact isText_of_not_isControl (by simpa using plain)

theorem isText_basicString (cs : List Char) : ∀ d ∈ basicString cs, Toml.isText d = true := by
  intro d member
  have quote : Toml.isText '"' = true := by decide
  simp only [basicString, List.mem_cons, List.mem_append, List.mem_flatMap, List.not_mem_nil, or_false] at member
  rcases member with rfl | ⟨c, _, written⟩ | rfl
  · exact quote
  · exact isText_basicChar c d written
  · exact quote

/-- A key stays on its line, whatever name it is written for. -/
theorem isText_keyChars (cs : List Char) : ∀ d ∈ keyChars cs, Toml.isText d = true := by
  unfold keyChars
  split
  · next bare =>
      intro d member
      have plain : isBareChar d = true :=
        List.all_eq_true.1 (Bool.and_eq_true_iff.1 bare).2 d member
      refine isText_of_not_isControl ?_
      simp only [isBareChar, Bool.or_eq_true, Bool.and_eq_true, decide_eq_true_eq, beq_iff_eq] at plain
      rw [isControl, Bool.or_eq_false_iff, decide_eq_false_iff_not, beq_eq_false_iff_ne]
      rcases plain with (((upper | small) | digit) | rfl) | rfl
      · omega
      · omega
      · omega
      · decide
      · decide
  split
  · next quoted =>
      intro d member
      simp only [Bool.and_eq_true, Bool.not_eq_true', List.any_eq_false, Bool.or_eq_true, beq_iff_eq,
        not_or, Bool.not_eq_true] at quoted
      have quote : Toml.isText '\'' = true := by decide
      rcases List.mem_cons.1 member with rfl | member
      · exact quote
      rcases List.mem_append.1 member with within | last
      · exact isText_of_not_isControl (quoted.2 d within).2
      · rw [List.mem_singleton.1 last]
        exact quote
  · exact isText_basicString cs

/-- A list of texts stays on its line. -/
theorem isText_itemChars (ts : List String) : ∀ d ∈ itemChars ts, Toml.isText d = true := by
  induction ts with
  | nil => nofun
  | cons t rest ih =>
      cases rest with
      | nil => exact isText_basicString t.toList
      | cons u rest =>
          intro d member
          have marks : Toml.isText ',' = true ∧ Toml.isText ' ' = true := by decide
          simp only [itemChars, List.mem_append, List.mem_cons] at member
          rcases member with first | rfl | rfl | others
          · exact isText_basicString t.toList d first
          · exact marks.1
          · exact marks.2
          · exact ih d others

theorem not_mem_newline {cs : List Char} (line : ∀ d ∈ cs, Toml.isText d = true) : '\n' ∉ cs := by
  intro member
  exact absurd (line '\n' member) (by decide)

/-! ### The lines of the file -/

/-- The lines of the file: three comments, an empty one, a header and a list of ranges. -/
def fileLines (middleware : String) (ranges : List String) (updated : Instant) : List (List Char) :=
  ["# Reverse proxy dynamic configuration: IP allow list.".toList,
    "# Managed by harbormaster. Manual edits are overwritten.".toList,
    "# Last updated: ".toList ++ (Rfc3339.offsetZero updated).toList,
    [],
    "[http.middlewares.".toList ++ keyChars middleware.toList ++ ".ipAllowList]".toList,
    "sourceRange = [".toList ++ itemChars ranges ++ [']']]

/-- No name, pattern or instant ends a line. -/
theorem isText_fileLines (middleware : String) (ranges : List String) (updated : Instant) :
    ∀ line ∈ fileLines middleware ranges updated, ∀ c ∈ line, Toml.isText c = true := by
  have zone : ∀ c ∈ ['+', '0', '0', ':', '0', '0'], Toml.isText c = true := List.all_eq_true.1 (by decide)
  have stamp : ∀ c ∈ (Rfc3339.offsetZero updated).toList, Toml.isText c = true := by
    rw [Rfc3339.offsetZero, String.toList_ofList]
    exact isText_render zone updated
  have joins : ∀ {cs ds : List Char}, (∀ c ∈ cs, Toml.isText c = true) → (∀ c ∈ ds, Toml.isText c = true) →
      ∀ c ∈ cs ++ ds, Toml.isText c = true :=
    fun first second => List.forall_mem_append.2 ⟨first, second⟩
  simp only [fileLines, List.forall_mem_cons]
  refine ⟨List.all_eq_true.1 (by decide), List.all_eq_true.1 (by decide),
    joins (List.all_eq_true.1 (by decide)) stamp, List.forall_mem_nil _,
    joins (joins (List.all_eq_true.1 (by decide)) (isText_keyChars middleware.toList))
      (List.all_eq_true.1 (by decide)),
    joins (joins (List.all_eq_true.1 (by decide)) (isText_itemChars ranges)) (List.all_eq_true.1 (by decide)),
    List.forall_mem_nil _⟩

/-- The file is made of its lines, each of which is ended. -/
theorem renderChars_eq_flatMap (middleware : String) (ranges : List String) (updated : Instant) :
    ProxyFile.renderChars middleware ranges updated =
      (fileLines middleware ranges updated).flatMap (· ++ ['\n']) := by
  rw [renderChars_eq]
  delta fileLines tableChars Rfc3339.offsetZero
  simp only [String.reduceToList, String.toList_ofList, List.flatMap_cons, List.flatMap_nil, List.append_assoc,
    List.cons_append, List.nil_append, List.append_nil]

/-- The proxy file round-trips. Whatever the name of its middleware, the texts in its list and the instant of the
write are, the file is made of its lines, three comments, an empty line, one header and one list, which no character
of theirs breaks; it is read as a document with that middleware alone; under the name of its middleware it gives the
texts back, in their order, and under any other name none; and the registry can be opened from it, with the patterns
among the texts. -/
theorem proxy_file_round_trips (middleware : String) (ranges : List String) (updated : Instant) :
    (Place.text (ProxyFile.render middleware ranges updated)).ranges middleware = .ok ranges ∧
    (∀ other, other ≠ middleware →
      (Place.text (ProxyFile.render middleware ranges updated)).ranges other = .ok []) ∧
    parts '\n' (ProxyFile.render middleware ranges updated).toList =
      fileLines middleware ranges updated ++ [[]] ∧
    (Toml.read? (ProxyFile.render middleware ranges updated)).bind ProxyFile.middlewaresOf? =
      some [(middleware, some ranges)] ∧
    ∀ now, ∃ r, Registry.open? middleware (.text (ProxyFile.render middleware ranges updated)) now = .ok r ∧
      r.lists.allow.map (·.pattern) = patternsOf ranges ∧ r.lists.deny = [] := by
  refine ⟨ranges_render middleware ranges updated, ?_, ?_, ProxyFile.middlewares_render .., ?_⟩
  · intro other distinct
    simp only [Place.ranges, ProxyFile.ranges?_render, if_neg distinct]
  · have whole : ∀ line ∈ fileLines middleware ranges updated, '\n' ∉ line :=
      fun line listed => not_mem_newline (isText_fileLines middleware ranges updated line listed)
    rw [ProxyFile.render, String.toList_ofList, renderChars_eq_flatMap, parts_flatMap whole]
  · intro now
    refine ⟨_, by rw [Registry.open?, ranges_render]; rfl, Registry.map_pattern_load now ranges, rfl⟩

/-- A name with dots, quotes of both kinds, a line end and what looks like a header of its own. -/
def awkwardName : String := "a.b'\"]\n[http.middlewares.web.ipAllowList]\\\x07"

/-- Nothing of the name is taken for the middleware that it seems to name. -/
theorem proxy_file_round_trips_awkwardName :
    "web" ≠ awkwardName ∧
      (Place.text (ProxyFile.render awkwardName ["10.0.0.0/8", "::1"] (atSecond 0))).ranges awkwardName =
        .ok ["10.0.0.0/8", "::1"] ∧
      (Place.text (ProxyFile.render awkwardName ["10.0.0.0/8", "::1"] (atSecond 0))).ranges "web" = .ok [] ∧
      (parts '\n' (ProxyFile.render awkwardName ["10.0.0.0/8", "::1"] (atSecond 0)).toList).length = 7 := by
  have other : "web" ≠ awkwardName := by decide
  obtain ⟨own, others, lines, _⟩ := proxy_file_round_trips awkwardName ["10.0.0.0/8", "::1"] (atSecond 0)
  refine ⟨other, own, others "web" other, ?_⟩
  rw [lines]
  rfl

end HostControl.Access
