/-
Module: HostControl.Proofs.Net.Masking
Purpose: What the prefix in audit records tells of an address: whether it is known as an IPv4 address or not, and its
  first 16 bits, or its first 48 bits. No two prefixes are written alike.
Main exports: Address.AgreeInPrefix, Address.SamePrefix, Address.masked_eq_iff, Address.masked_ne_unknown
-/
import HostControl.Audit.Event
import HostControl.Proofs.Net.Membership
import HostControl.Proofs.Text.Numerals
import HostControl.Proofs.Text.Parts

namespace HostControl.Address

open Text

/-- Two addresses of one family agree in the bits that name a network: the first 16 of an IPv4 address, the first 48
of an IPv6 address. -/
def AgreeInPrefix : Address → Address → Prop
  | .v4 x, .v4 y => ∀ i < 16, x.getMsbD i = y.getMsbD i
  | .v6 x, .v6 y => ∀ i < 48, x.getMsbD i = y.getMsbD i
  | _, _ => False

instance (a b : Address) : Decidable (a.AgreeInPrefix b) :=
  match a, b with
  | .v4 x, .v4 y => inferInstanceAs (Decidable (∀ i < 16, x.getMsbD i = y.getMsbD i))
  | .v6 x, .v6 y => inferInstanceAs (Decidable (∀ i < 48, x.getMsbD i = y.getMsbD i))
  | .v4 _, .v6 _ => .isFalse id
  | .v6 _, .v4 _ => .isFalse id

/-- Two addresses are known by addresses of one network. -/
def SamePrefix (a b : Address) : Prop := a.canonical.AgreeInPrefix b.canonical

instance (a b : Address) : Decidable (a.SamePrefix b) :=
  inferInstanceAs (Decidable (a.canonical.AgreeInPrefix b.canonical))

/-! ### Parts of an address -/

theorem octets_eq_iff (x y : BitVec 32) :
    octet x 0 = octet y 0 ∧ octet x 1 = octet y 1 ↔ ∀ i < 16, x.getMsbD i = y.getMsbD i := by
  rw [← Network.ushiftRight_eq_iff (w := 32) (by decide), ← BitVec.toNat_inj]
  have hx := x.isLt
  have hy := y.isLt
  simp only [octet, BitVec.toNat_ushiftRight, Nat.shiftRight_eq_div_pow]
  omega

theorem groups_eq_iff (x y : BitVec 128) :
    (group x 0 = group y 0 ∧ group x 1 = group y 1 ∧ group x 2 = group y 2) ↔
      ∀ i < 48, x.getMsbD i = y.getMsbD i := by
  rw [← Network.ushiftRight_eq_iff (w := 128) (by decide), ← BitVec.toNat_inj]
  have hx := x.isLt
  have hy := y.isLt
  simp only [group, BitVec.toNat_ushiftRight, Nat.shiftRight_eq_div_pow]
  omega

/-! ### Written prefixes -/

/-- The text of an IPv4 prefix. -/
def prefix4 (a b : Nat) : List Char := decimal a ++ '.' :: decimal b ++ ['.', '0', '.', '0', '/', '1', '6']

/-- The text of an IPv6 prefix. -/
def prefix6 (a b c : Nat) : List Char :=
  numeral 16 a ++ ':' :: numeral 16 b ++ ':' :: numeral 16 c ++ [':', ':', '/', '4', '8']

theorem dot_not_mem (n : Nat) : '.' ∉ decimal n := not_mem_numeral (by decide) (by decide) (by decide) n

theorem colon_not_mem (n : Nat) : ':' ∉ numeral 16 n := not_mem_numeral (by decide) (by decide) (by decide) n

theorem colon_not_mem_prefix4 (a b : Nat) : ':' ∉ prefix4 a b := by
  have digits (n : Nat) : ':' ∉ decimal n := not_mem_numeral (by decide) (by decide) (by decide) n
  simp [prefix4, digits]

theorem prefix4_inj {a b a' b' : Nat} : prefix4 a b = prefix4 a' b' ↔ a = a' ∧ b = b' := by
  simp only [prefix4, List.append_assoc, List.cons_append]
  rw [append_separator_inj (dot_not_mem a) (dot_not_mem a'),
    append_separator_inj (dot_not_mem b) (dot_not_mem b'), decimal_injective.eq_iff,
    decimal_injective.eq_iff]
  simp

theorem prefix6_inj {a b c a' b' c' : Nat} : prefix6 a b c = prefix6 a' b' c' ↔ a = a' ∧ b = b' ∧ c = c' := by
  have hex : Function.Injective (numeral 16) := numeral_injective (by decide) (by decide)
  simp only [prefix6, List.append_assoc, List.cons_append]
  rw [append_separator_inj (colon_not_mem a) (colon_not_mem a'),
    append_separator_inj (colon_not_mem b) (colon_not_mem b'),
    append_separator_inj (colon_not_mem c) (colon_not_mem c'), hex.eq_iff, hex.eq_iff, hex.eq_iff]
  simp

theorem prefix4_ne_prefix6 (a b a' b' c' : Nat) : prefix4 a b ≠ prefix6 a' b' c' := by
  intro same
  apply colon_not_mem_prefix4 a b
  rw [same]
  simp [prefix6]

/-! ### Prefixes of addresses -/

/-- Two addresses have the same prefix in records exactly if they are known in the same family and agree in the bits
that name their network. -/
theorem masked_eq_iff (a b : Address) : a.masked = b.masked ↔ a.SamePrefix b := by
  rw [masked, masked, String.ofList_inj, maskedChars, maskedChars, SamePrefix]
  cases a.canonical with
  | v4 x =>
    cases b.canonical with
    | v4 y => exact prefix4_inj.trans (octets_eq_iff x y)
    | v6 y => exact iff_of_false (prefix4_ne_prefix6 (octet x 0) (octet x 1) _ _ _) id
  | v6 x =>
    cases b.canonical with
    | v4 y => exact iff_of_false (prefix4_ne_prefix6 (octet y 0) (octet y 1) _ _ _).symm id
    | v6 y => exact prefix6_inj.trans (groups_eq_iff x y)

/-- A prefix is told from the text for an address that is not known. -/
theorem masked_ne_unknown (a : Address) : a.masked ≠ Audit.unknownAddress := by
  intro same
  have slash : '/' ∈ a.maskedChars := by
    unfold maskedChars
    split <;> simp
  rw [masked, Audit.unknownAddress, ← String.ofList_toList (s := "unknown"), String.ofList_inj] at same
  rw [same] at slash
  revert slash
  decide

end HostControl.Address
