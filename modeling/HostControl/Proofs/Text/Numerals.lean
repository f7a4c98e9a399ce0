/-
Module: HostControl.Proofs.Text.Numerals
Purpose: What written numbers consist of, that they can be told apart, and that their digits are found again at the
  front of a text.
Main exports: exists_digit_of_mem_numeral, numeral_injective, DigitsOf, exists_digitsOf, spanDigits_map
-/
import HostControl.Text.Numeral

namespace HostControl.Text

/-- A written number consists of digits of its base. -/
theorem exists_digit_of_mem_numeral {base : Nat} (low : 2 ≤ base) (n : Nat) :
    ∀ c ∈ numeral base n, ∃ d < base, c = digitChar d := by
  induction n using Nat.strongRecOn with
  | _ n ih =>
    intro c member
    unfold numeral at member
    split at member
    · next small =>
      exact ⟨n, by omega, List.mem_singleton.1 member⟩
    · next large =>
      rcases List.mem_append.1 member with front | last
      · exact ih _ (Nat.div_lt_self (by omega) (by omega)) c front
      · exact ⟨n % base, Nat.mod_lt _ (by omega), List.mem_singleton.1 last⟩

/-- A character that is no digit stands in no written number. -/
theorem not_mem_numeral {base : Nat} (low : 2 ≤ base) (high : base ≤ 16) {c : Char}
    (other : ∀ d < 16, c ≠ digitChar d) (n : Nat) : c ∉ numeral base n := by
  intro member
  obtain ⟨d, small, same⟩ := exists_digit_of_mem_numeral low n c member
  exact other d (by omega) same

theorem numeral_injective {base : Nat} (low : 2 ≤ base) (high : base ≤ 16) :
    Function.Injective (numeral base) := by
  intro m n same
  have read := readNumeral?_numeral low high m
  rw [same, readNumeral?_numeral low high n] at read
  exact (Option.some.inj read).symm

/-! ### The digits of a number -/

/-- Digit values that a number is written with. Only zero begins with a zero. -/
structure DigitsOf (base n : Nat) (ds : List Nat) : Prop where
  written : numeral base n = ds.map digitChar
  small : ∀ d ∈ ds, d < base
  value : ofDigits base ds = n
  filled : ds ≠ []
  leading : ds.head? = some 0 → n = 0

theorem ofDigits_append_singleton (base : Nat) (ds : List Nat) (d : Nat) :
    ofDigits base (ds ++ [d]) = ofDigits base ds * base + d := by
  rw [ofDigits, ofDigits, List.foldl_append]
  rfl

theorem exists_digitsOf {base : Nat} (low : 2 ≤ base) (n : Nat) : ∃ ds, DigitsOf base n ds := by
  induction n using Nat.strongRecOn with
  | _ n ih =>
    by_cases single : n < base
    · have written : numeral base n = [digitChar n] := by rw [numeral, dif_pos (.inl single)]
      exact ⟨[n], written, by simpa using single, by simp [ofDigits], by simp, by simp⟩
    · obtain ⟨ds, front⟩ := ih (n / base) (Nat.div_lt_self (by omega) (by omega))
      have more : 0 < n / base := Nat.div_pos (by omega) (by omega)
      refine ⟨ds ++ [n % base], ?_, ?_, ?_, by simp, ?_⟩
      · rw [numeral, dif_neg (by omega), front.written]
        simp
      · intro d member
        rcases List.mem_append.1 member with before | last
        · exact front.small d before
        · rw [List.mem_singleton.1 last]
          exact Nat.mod_lt _ (by omega)
      · rw [ofDigits_append_singleton, front.value, Nat.mul_comm, Nat.div_add_mod]
      · intro zero
        have first : ds.head? = some 0 := by
          cases ds with
          | nil => exact absurd rfl front.filled
          | cons d ds => exact zero
        exact absurd (front.leading first) (by omega)

/-- Zero is written as one digit, and what begins with a zero is zero. -/
theorem DigitsOf.eq_singleton {base n : Nat} {ds : List Nat} (low : 2 ≤ base) (digits : DigitsOf base n ds)
    (zero : ds.head? = some 0) : ds = [0] := by
  have written := digits.written
  rw [digits.leading zero, numeral, dif_pos (.inl (by omega))] at written
  cases ds with
  | nil => cases zero
  | cons d ds =>
    cases zero
    cases ds with
    | nil => rfl
    | cons _ _ => simp at written

/-- Digits are taken off the front of a text up to the first character that is none. -/
theorem spanDigits_map {base : Nat} (high : base ≤ 16) {ds : List Nat} (small : ∀ d ∈ ds, d < base) {rest : List Char}
    (stops : ∀ c, rest.head? = some c → digitValue? base c = none) :
    spanDigits base (ds.map digitChar ++ rest) = (ds, rest) := by
  induction ds with
  | nil =>
    cases rest with
    | nil => rfl
    | cons c rest => simp [spanDigits, stops c rfl]
  | cons d ds ih =>
    have digit := digitValue?_digitChar (small d (by simp)) high
    have others := ih fun e member => small e (by simp [member])
    simp [spanDigits, digit, others]

end HostControl.Text
