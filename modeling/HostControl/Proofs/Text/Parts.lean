/-
Module: HostControl.Proofs.Text.Parts
Purpose: The first part of a text is what stands before the first separator, so a text that is written up to a
  separator can be told from what follows. Texts are divided where they are put together, but for the two parts that
  meet.
Main exports: parts_append_cons, parts_append, parts_joined, parts_flatMap, append_separator_inj
-/
import HostControl.Text.Parts

namespace HostControl.Text

variable {separator : Char} {t u v rest others : List Char}

/-- A text without separators is the first part of what goes on with one. -/
theorem parts_append_cons (whole : separator ∉ t) (rest : List Char) :
    parts separator (t ++ separator :: rest) = t :: parts separator rest := by
  induction t with
  | nil => rw [List.nil_append, parts, if_pos rfl]
  | cons c t ih =>
    obtain ⟨other, whole⟩ := List.ne_and_not_mem_of_not_mem_cons whole
    rw [List.cons_append, parts, if_neg other.symm, ih whole]

/-- A character other than the separator belongs to the part that it stands in front of. -/
theorem parts_cons {c : Char} {part : List Char} {more : List (List Char)} (apart : c ≠ separator)
    (divided : parts separator t = part :: more) : parts separator (c :: t) = (c :: part) :: more := by
  rw [parts, if_neg apart, divided]

/-- Where two texts meet, the last part of the one and the first part of the other are one. -/
theorem parts_append {front more : List (List Char)} (first : parts separator t = front ++ [u])
    (second : parts separator rest = v :: more) : parts separator (t ++ rest) = front ++ (u ++ v) :: more := by
  induction t generalizing front u with
  | nil =>
    cases front with
    | nil =>
      cases first
      exact second
    | cons => simp [parts] at first
  | cons c t ih =>
    rw [List.cons_append]
    by_cases separates : c = separator
    · rw [parts, if_pos separates] at first ⊢
      cases front with
      | nil => exact absurd (List.cons.inj first).2 (parts_ne_nil separator t)
      | cons part front =>
        obtain ⟨rfl, divided⟩ := List.cons.inj first
        rw [ih divided]
        rfl
    · obtain ⟨part, others, divided⟩ := List.exists_cons_of_ne_nil (parts_ne_nil separator t)
      rw [parts_cons separates divided] at first
      cases front with
      | nil =>
        cases first
        have last : parts separator t = [] ++ [part] := divided
        exact parts_cons separates (ih last)
      | cons _ front =>
        cases first
        have later : parts separator t = (part :: front) ++ [u] := divided
        exact parts_cons separates (ih later)

/-- No part of a text holds a separator. -/
theorem not_mem_of_mem_parts (listed : u ∈ parts separator t) : separator ∉ u := by
  induction t generalizing u with
  | nil =>
    rw [parts, List.mem_singleton] at listed
    rw [listed]
    exact List.not_mem_nil
  | cons c t ih =>
    by_cases separates : c = separator
    · rw [parts, if_pos separates, List.mem_cons] at listed
      rcases listed with rfl | later
      · exact List.not_mem_nil
      · exact ih later
    · obtain ⟨part, others, divided⟩ := List.exists_cons_of_ne_nil (parts_ne_nil separator t)
      rw [parts_cons separates divided, List.mem_cons] at listed
      rcases listed with rfl | later
      · rw [List.mem_cons, not_or]
        exact ⟨Ne.symm separates, ih (divided ▸ List.mem_cons_self)⟩
      · exact ih (divided ▸ List.mem_cons_of_mem part later)

/-- What is put together is as long as each of its texts, and longer than those behind the first. -/
theorem length_le_joined {texts : List (List Char)} (listed : u ∈ texts) :
    u.length ≤ (joined separator texts).length := by
  induction texts with
  | nil => cases listed
  | cons t texts ih =>
    by_cases last : texts = []
    · rw [last, List.mem_singleton] at listed
      rw [last, listed]
      exact Nat.le_refl _
    · rw [joined_cons t last, List.length_append, List.length_cons]
      rcases List.mem_cons.1 listed with rfl | later
      · omega
      · have := ih later
        omega

theorem length_lt_joined {texts : List (List Char)} (listed : u ∈ texts) :
    u.length < (joined separator (t :: texts)).length := by
  have within : u.length ≤ (joined separator texts).length := length_le_joined listed
  rw [joined_cons t (List.ne_nil_of_mem listed), List.length_append, List.length_cons]
  omega

/-- A text without separators is its only part. -/
theorem parts_of_not_mem (whole : separator ∉ t) : parts separator t = [t] := by
  induction t with
  | nil => rfl
  | cons c t ih =>
    obtain ⟨other, whole⟩ := List.ne_and_not_mem_of_not_mem_cons whole
    rw [parts, if_neg other.symm, ih whole]

/-- Texts without separators that were put together are told apart again. -/
theorem parts_joined {texts : List (List Char)} (some : texts ≠ []) (whole : ∀ t ∈ texts, separator ∉ t) :
    parts separator (joined separator texts) = texts := by
  induction texts with
  | nil => exact absurd rfl some
  | cons t texts ih =>
    obtain ⟨first, others⟩ := List.forall_mem_cons.1 whole
    by_cases last : texts = []
    · rw [last]
      exact parts_of_not_mem first
    · rw [joined_cons t last, parts_append_cons first, ih last others]

theorem mem_joined {texts : List (List Char)} {c : Char} (member : c ∈ joined separator texts) :
    c = separator ∨ ∃ t ∈ texts, c ∈ t := by
  induction texts with
  | nil => cases member
  | cons t texts ih =>
    by_cases last : texts = []
    · subst last
      exact .inr ⟨t, List.mem_singleton_self t, member⟩
    · rw [joined_cons t last, List.mem_append, List.mem_cons] at member
      rcases member with first | rfl | later
      · exact .inr ⟨t, List.mem_cons_self, first⟩
      · exact .inl rfl
      · exact (ih later).imp_right fun ⟨u, listed, within⟩ => ⟨u, List.mem_cons_of_mem t listed, within⟩

/-- A text of lines, each of them ended, is divided into these lines and nothing behind the last end. -/
theorem parts_flatMap {lines : List (List Char)} (whole : ∀ line ∈ lines, separator ∉ line) :
    parts separator (lines.flatMap (· ++ [separator])) = lines ++ [[]] := by
  induction lines with
  | nil => rfl
  | cons line lines ih =>
    obtain ⟨first, others⟩ := List.forall_mem_cons.1 whole
    rw [List.flatMap_cons, List.append_assoc, List.singleton_append, parts_append_cons first, ih others,
      List.cons_append]

theorem append_separator_inj (whole : separator ∉ t) (whole' : separator ∉ u) :
    t ++ separator :: rest = u ++ separator :: others ↔ t = u ∧ rest = others := by
  constructor
  · intro same
    have first := congrArg (parts separator) same
    rw [parts_append_cons whole, parts_append_cons whole'] at first
    obtain rfl := (List.cons.inj first).1
    exact ⟨rfl, (List.cons.inj (List.append_cancel_left same)).2⟩
  · rintro ⟨rfl, rfl⟩
    rfl

end HostControl.Text
