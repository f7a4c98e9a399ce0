/-
Module: HostControl.Text.Parts
Purpose: Texts divided at a separator, and put together again.
Main exports: parts, joined, joined_parts
-/

namespace HostControl.Text

/-- The parts of a text between separators. There is always one more part than separators. -/
def parts (separator : Char) : List Char → List (List Char)
  | [] => [[]]
  | c :: rest =>
    if c = separator then [] :: parts separator rest
    else
      match parts separator rest with
      | [] => [[c]]
      | part :: more => (c :: part) :: more

/-- Texts with a separator between them. -/
def joined (separator : Char) : List (List Char) → List Char
  | [] => []
  | [t] => t
  | t :: rest => t ++ separator :: joined separator rest

theorem parts_ne_nil (separator : Char) (cs : List Char) : parts separator cs ≠ [] := by
  cases cs with
  | nil => simp [parts]
  | cons c rest =>
    simp only [parts]
    split
    · simp
    · split <;> simp

theorem joined_cons {separator : Char} (t : List Char) {rest : List (List Char)} (h : rest ≠ []) :
    joined separator (t :: rest) = t ++ separator :: joined separator rest := by
  cases rest with
  | nil => exact absurd rfl h
  | cons _ _ => rfl

/-- A character in front of the first part is one in front of the text. -/
theorem joined_cons_cons {separator : Char} (c : Char) (t : List Char) (rest : List (List Char)) :
    joined separator ((c :: t) :: rest) = c :: joined separator (t :: rest) := by
  cases rest <;> rfl

/-- The parts hold the whole text. -/
theorem joined_parts (separator : Char) (cs : List Char) :
    joined separator (parts separator cs) = cs := by
  induction cs with
  | nil => rfl
  | cons c rest ih =>
    have h := parts_ne_nil separator rest
    simp only [parts]
    split
    · next hc => rw [joined_cons _ h, ih, hc, List.nil_append]
    · split
      · next hp => exact absurd hp h
      · next part more hp => rw [joined_cons_cons, ← hp, ih]

end HostControl.Text
