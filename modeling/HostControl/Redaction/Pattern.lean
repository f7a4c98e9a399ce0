/-
Module: HostControl.Redaction.Pattern
Purpose: Patterns of texts that are sequences of character runs, the texts they describe, and the
  replacement of every occurrence.
Main exports: Piece, Pattern, Piece.Accepts, Pattern.Accepts, Pattern.rest?, Pattern.replaceAll
-/

namespace HostControl.Redaction

/-- A set of characters. -/
abbrev CharSet := Char → Bool

/-- A piece of a pattern. -/
inductive Piece where
  /-- One character of the set. -/
  | one (set : CharSet)
  /-- One character of the set, or nothing. -/
  | maybe (set : CharSet)
  /-- Any number of characters of the set. -/
  | many (set : CharSet)
  /-- One or more characters of the set. -/
  | some (set : CharSet)
  /-- One of the words, each given by its characters in turn. -/
  | word (choices : List (List CharSet))

/-- A pattern is a sequence of pieces. -/
abbrev Pattern := List Piece

/-! ### The texts that a pattern describes -/

/-- A text spelled by a word: one character of each set in turn. -/
inductive Spells : List CharSet → List Char → Prop where
  | nil : Spells [] []
  | cons {set : CharSet} {sets : List CharSet} {c : Char} {cs : List Char} :
      set c = true → Spells sets cs → Spells (set :: sets) (c :: cs)

/-- The texts of a piece. -/
inductive Piece.Accepts : Piece → List Char → Prop where
  | one {set : CharSet} {c : Char} : set c = true → Accepts (.one set) [c]
  | maybeNone {set : CharSet} : Accepts (.maybe set) []
  | maybeOne {set : CharSet} {c : Char} : set c = true → Accepts (.maybe set) [c]
  | many {set : CharSet} {cs : List Char} : (∀ c ∈ cs, set c = true) → Accepts (.many set) cs
  | some {set : CharSet} {cs : List Char} :
      cs ≠ [] → (∀ c ∈ cs, set c = true) → Accepts (.some set) cs
  | word {choices : List (List CharSet)} {sets : List CharSet} {cs : List Char} :
      sets ∈ choices → Spells sets cs → Accepts (.word choices) cs

/-- The texts of a pattern: a text of each piece in turn. -/
inductive Pattern.Accepts : Pattern → List Char → Prop where
  | nil : Accepts [] []
  | cons {p : Piece} {ps : Pattern} {front back : List Char} :
      p.Accepts front → Pattern.Accepts ps back → Accepts (p :: ps) (front ++ back)

/-! ### Matching -/

/-- What follows a word at the front of a text. -/
def afterWord : List CharSet → List Char → Option (List Char)
  | [], cs => .some cs
  | _ :: _, [] => none
  | set :: sets, c :: cs => if set c then afterWord sets cs else none

/-- What follows a piece at the front of a text. A piece takes as much as it can and the first word
that fits, and gives nothing back: in the patterns here no piece begins with a character that the
piece before it could take. -/
def Piece.rest? : Piece → List Char → Option (List Char)
  | .one _, [] => none
  | .one set, c :: cs => if set c then Option.some cs else none
  | .maybe _, [] => Option.some []
  | .maybe set, c :: cs => Option.some (if set c then cs else c :: cs)
  | .many set, cs => Option.some (cs.dropWhile set)
  | .some _, [] => none
  | .some set, c :: cs => if set c then Option.some (cs.dropWhile set) else none
  | .word choices, cs => choices.findSome? (afterWord · cs)

/-- What follows a text of the pattern at the front. -/
def Pattern.rest? : Pattern → List Char → Option (List Char)
  | [], cs => some cs
  | p :: ps, cs => (p.rest? cs).bind (Pattern.rest? ps)

/-- Replaces, from left to right, every text of the pattern by the marker. -/
def Pattern.replaceAll (p : Pattern) (marker : List Char) : List Char → List Char
  | [] => []
  | c :: cs =>
    match p.rest? (c :: cs) with
    | some after =>
      if _h : after.length < (c :: cs).length then marker ++ p.replaceAll marker after
      else c :: p.replaceAll marker cs
    | none => c :: p.replaceAll marker cs
termination_by cs => cs.length
decreasing_by
  · exact _h
  · exact Nat.lt_succ_self _
  · exact Nat.lt_succ_self _

end HostControl.Redaction
