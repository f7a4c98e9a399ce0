/-
Module: HostControl.Word
Purpose: Counters of a fixed width that stay at their greatest value, or begin again after it.
Main exports: Word.max32, Word.max64, Word.count32, Word.count64, Word.cap64, Word.following
-/

namespace HostControl.Word

/-- The greatest numbers of 32 and of 64 bits. -/
def max32 : Nat := 4294967295
def max64 : Nat := 18446744073709551615

/-- A number, or the greatest of its width where it is larger. -/
def cap32 (n : Nat) : Nat := min n max32
def cap64 (n : Nat) : Nat := min n max64

/-- One more, up to the greatest number of the width. -/
def count32 (n : Nat) : Nat := cap32 (n + 1)
def count64 (n : Nat) : Nat := cap64 (n + 1)

/-- The number after a number of 64 bits; zero follows the greatest one. -/
def following (n : Nat) : Nat := (n + 1) % 18446744073709551616

theorem count32_eq {n : Nat} (h : n < max32) : count32 n = n + 1 := by
  simp only [count32, cap32]; omega

theorem count64_eq {n : Nat} (h : n < max64) : count64 n = n + 1 := by
  simp only [count64, cap64]; omega

theorem following_eq {n : Nat} (h : n < max64) : following n = n + 1 := by
  simp only [following, max64] at *; omega

end HostControl.Word
