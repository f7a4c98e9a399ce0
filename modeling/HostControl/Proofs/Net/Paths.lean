/-
Module: HostControl.Proofs.Net.Paths
Purpose: What becomes of the path of a request when its address is normalised. A segment of plain characters
  that is neither one dot nor two stays where it stands, and so do all others; dots are taken out of the path, two
  of them with the segment in front.
Main exports: Url.isPathChar, Url.normalised, Url.pathOf, Url.Plain, Url.KeepsPlace, Url.normalised_pathOf,
  Url.Plain.keepsPlace, Url.normalised_dots, Url.not_keepsPlace_of_dots
-/
import Mathlib.Data.List.TakeWhile
import HostControl.Net.Url
import HostControl.Proofs.Text.Parts

namespace HostControl.Url

open Text

/-! ### Normalised paths -/

/-- Characters that a path holds as they are: those of ASCII that are printed, but for some. -/
def isPathChar (c : Char) : Bool :=
  33 ≤ c.toNat && c.toNat ≤ 126 && !"\"#<>?^`\x7b\x7d".toList.contains c

/-- A character as it stands in a path: with every byte of it encoded if it may not stand there. -/
def encoded (c : Char) : List Char :=
  if isPathChar c then [c]
  else (String.utf8EncodeChar c).flatMap fun byte =>
    ['%', (digitChar (byte.toNat / 16)).toUpper, (digitChar (byte.toNat % 16)).toUpper]

/-- The segments that are left of the path of a request when its address is normalised. Tabs and line ends are left
out, a query or a fragment is none of the path, a backslash counts as a slash, dots are taken out with what they take
back, and what may not stand in a path is encoded. -/
def normalised (path : List Char) : Option (List (List Char)) :=
  let solid := path.filter fun c => c != '\t' && c != '\n' && c != '\r'
  let divided := (solid.takeWhile (!endsPath ·)).map fun c => if c = '\\' then '/' else c
  (pathSegments divided).map (·.map (·.flatMap encoded))

/-- The path that has these segments. -/
def pathOf (segments : List (List Char)) : List Char := '/' :: joined '/' segments

/-- A text of characters that may stand in a segment as they are. -/
def PlainText (s : List Char) : Prop := ∀ c ∈ s, isPathChar c = true ∧ c ≠ '/' ∧ c ≠ '\\'

/-- A segment of such characters that stands neither for one dot nor for two. -/
structure Plain (s : List Char) : Prop where
  text : PlainText s
  dot : withDots s ≠ ['.']
  dots : withDots s ≠ ['.', '.']

/-- Wherever a segment stands among plain ones, the path is normalised already. -/
def KeepsPlace (s : List Char) : Prop :=
  ∀ front back, (∀ other ∈ front ++ back, Plain other) →
    normalised (pathOf (front ++ s :: back)) = some (front ++ s :: back)

/-! ### Segments -/

/-- Where nothing is encoded, the dots of a segment are those that it is written with. -/
theorem withDots_of_not_mem {s : List Char} (bare : '%' ∉ s) : withDots s = s := by
  fun_induction withDots s with
  | case1 | case2 => simp at bare
  | case3 c rest _ _ ih => rw [ih fun member => bare (List.mem_cons_of_mem c member)]
  | case4 => rfl

/-- Segments that are no dots are put behind those in front of them. -/
theorem settle_append {front : List (List Char)} (plain : ∀ s ∈ front, Plain s) (done rest : List (List Char)) :
    settle done (front ++ rest) = settle (front.reverse ++ done) rest := by
  induction front generalizing done with
  | nil => rfl
  | cons s front ih =>
      obtain ⟨first, others⟩ := List.forall_mem_cons.1 plain
      rw [List.cons_append, settle, if_neg (by simp [first.dot, first.dots]), if_neg first.dots, if_neg first.dot,
        ih others, List.reverse_cons, List.append_assoc, List.singleton_append]

theorem settle_of_plain {segments : List (List Char)} (plain : ∀ s ∈ segments, Plain s) (done : List (List Char)) :
    settle done segments = done.reverse ++ segments := by
  have all := settle_append plain done []
  rw [List.append_nil, settle, List.reverse_append, List.reverse_reverse] at all
  exact all

theorem flatMap_encoded {s : List Char} (plain : PlainText s) : s.flatMap encoded = s := by
  induction s with
  | nil => rfl
  | cons c s ih =>
      obtain ⟨first, others⟩ := List.forall_mem_cons.1 plain
      rw [List.flatMap_cons, encoded, if_pos first.1, ih others, List.singleton_append]

theorem map_flatMap_encoded {segments : List (List Char)} (plain : ∀ s ∈ segments, PlainText s) :
    segments.map (·.flatMap encoded) = segments := by
  rw [List.map_congr_left fun s listed => flatMap_encoded (plain s listed), List.map_id']

/-! ### Paths -/

/-- The characters of a path of plain texts may stand in one. -/
theorem isPathChar_of_mem_pathOf {segments : List (List Char)} (plain : ∀ s ∈ segments, PlainText s) :
    ∀ c ∈ pathOf segments, isPathChar c = true ∧ c ≠ '\\' := by
  have slash : isPathChar '/' = true ∧ '/' ≠ '\\' := by decide
  intro c member
  rcases List.mem_cons.1 member with rfl | member
  · exact slash
  · rcases mem_joined member with rfl | ⟨s, listed, within⟩
    · exact slash
    · exact ⟨(plain s listed c within).1, (plain s listed c within).2.2⟩

/-- A path of plain texts is divided into them. -/
theorem normalised_pathOf {segments : List (List Char)} (some : segments ≠ [])
    (plain : ∀ s ∈ segments, PlainText s) :
    normalised (pathOf segments) = .some ((settle [] segments).map (·.flatMap encoded)) := by
  have chars := isPathChar_of_mem_pathOf plain
  have unlike : ∀ c ∈ pathOf segments, ∀ d, isPathChar d = false → c ≠ d := by
    rintro c member d not rfl
    rw [(chars c member).1] at not
    cases not
  have solid : (pathOf segments).filter (fun c => c != '\t' && c != '\n' && c != '\r') = pathOf segments := by
    rw [List.filter_eq_self]
    intro c member
    have others := unlike c member
    simp [others '\t' (by decide), others '\n' (by decide), others '\r' (by decide)]
  have whole : (pathOf segments).takeWhile (!endsPath ·) = pathOf segments := by
    rw [List.takeWhile_eq_self_iff]
    intro c member
    have others := unlike c member
    simp [endsPath, others '?' (by decide), others '#' (by decide)]
  have straight : ((pathOf segments).map fun c => if c = '\\' then '/' else c) = pathOf segments := by
    rw [List.map_congr_left fun c member => if_neg (chars c member).2, List.map_id']
  have divided : pathSegments (pathOf segments) = .some (settle [] segments) := by
    rw [pathOf, pathSegments, parts_joined some fun s listed slash => (plain s listed '/' slash).2.1 rfl]
  simp only [normalised, solid, whole, straight, divided, Option.map_some]

/-- A plain segment keeps its place. -/
theorem Plain.keepsPlace {s : List Char} (plain : Plain s) : KeepsPlace s := by
  intro front back others
  have all : ∀ other ∈ front ++ s :: back, Plain other := by
    intro other listed
    rcases List.mem_append.1 listed with before | rest
    · exact others other (List.mem_append_left back before)
    · rcases List.mem_cons.1 rest with rfl | behind
      · exact plain
      · exact others other (List.mem_append_right front behind)
  rw [normalised_pathOf (by simp) fun other listed => (all other listed).text, settle_of_plain all,
    List.reverse_nil, List.nil_append, map_flatMap_encoded fun other listed => (all other listed).text]

/-- What is left of a path with dots in it, if more segments follow. -/
theorem normalised_dots {front back : List (List Char)} {next dots : List Char} (plain : PlainText dots)
    (others : ∀ other ∈ front ++ next :: back, Plain other) :
    (withDots dots = ['.'] →
      normalised (pathOf (front ++ dots :: next :: back)) = some (front ++ next :: back)) ∧
    (withDots dots = ['.', '.'] →
      normalised (pathOf (front ++ dots :: next :: back)) = some (front.dropLast ++ next :: back)) := by
  have before : ∀ other ∈ front, Plain other := fun other listed => others other (List.mem_append_left _ listed)
  have behind : ∀ other ∈ next :: back, Plain other :=
    fun other listed => others other (List.mem_append_right _ listed)
  have texts : ∀ s ∈ front ++ dots :: next :: back, PlainText s := by
    intro s listed
    rcases List.mem_append.1 listed with first | rest
    · exact (before s first).text
    · rcases List.mem_cons.1 rest with rfl | later
      · exact plain
      · exact (behind s later).text
  rw [normalised_pathOf (by simp) texts, settle_append before, List.append_nil]
  constructor
  · intro single
    have kept : settle front.reverse (dots :: next :: back) = front ++ next :: back := by
      rw [settle, if_neg (by simp), if_neg (by simp [single]), if_pos single, settle_of_plain behind,
        List.reverse_reverse]
    rw [kept, map_flatMap_encoded fun other listed => (others other listed).text]
  · intro double
    have kept : settle front.reverse (dots :: next :: back) = front.dropLast ++ next :: back := by
      rw [settle, if_neg (by simp), if_pos double, settle_of_plain behind, List.drop_one, List.tail_reverse,
        List.reverse_reverse]
    rw [kept, map_flatMap_encoded]
    intro other listed
    rcases List.mem_append.1 listed with first | rest
    · exact (before other (List.dropLast_subset front first)).text
    · exact (behind other rest).text

/-- Dots do not keep their place. -/
theorem not_keepsPlace_of_dots {s : List Char} (plain : PlainText s)
    (dots : withDots s = ['.'] ∨ withDots s = ['.', '.']) : ¬KeepsPlace s := by
  have letter : PlainText ['a'] := by
    intro c member
    rw [List.mem_singleton.1 member]
    decide
  have word : Plain ['a'] := ⟨letter, by decide, by decide⟩
  have others : ∀ other ∈ [] ++ ['a'] :: [], Plain other := by
    intro other listed
    rwa [List.mem_singleton.1 listed]
  intro keeps
  have kept := keeps [] [['a']] others
  obtain ⟨single, double⟩ := normalised_dots plain others
  rcases dots with dot | dots
  · rw [single dot] at kept
    simp at kept
  · rw [double dots] at kept
    simp at kept

end HostControl.Url
