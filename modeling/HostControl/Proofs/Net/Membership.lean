/-
Module: HostControl.Proofs.Net.Membership
Purpose: What it means for an address to lie in a range, said on the bits: it has the family of the range
  and the leading bits that the range gives. The test by shifts decides it. An IPv4-mapped address is
  known by the IPv4 address that it carries, and so it is the one kind of address that is asked for in
  another family than its own.
Main exports: Network.Covers, Network.contains_iff_covers, Address.IsMapped,
  Address.canonical_of_not_isMapped, Address.not_covers_canonical
-/
import HostControl.Net.Address

namespace HostControl

namespace Network

/-- An address lies in a range if it has the family of the range and agrees with it in as many leading
bits as the range is long. -/
def Covers : Network → Address → Prop
  | .v4 bits length _, .v4 a => ∀ i < length, bits.getMsbD i = a.getMsbD i
  | .v6 bits length _, .v6 a => ∀ i < length, bits.getMsbD i = a.getMsbD i
  | _, _ => False

/-- Two words that agree behind a shift agree in the leading bits that it leaves. -/
theorem ushiftRight_eq_iff {w n : Nat} (short : n ≤ w) (x y : BitVec w) :
    x >>> (w - n) = y >>> (w - n) ↔ ∀ i < n, x.getMsbD i = y.getMsbD i := by
  constructor
  · intro same i inside
    have bit := congrArg (fun z => z.getLsbD (n - 1 - i)) same
    simp only [BitVec.getLsbD_ushiftRight] at bit
    have place : w - n + (n - 1 - i) = w - 1 - i := by omega
    rw [place] at bit
    simp only [BitVec.getMsbD, bit]
  · intro same
    apply BitVec.eq_of_getLsbD_eq
    intro i inside
    simp only [BitVec.getLsbD_ushiftRight]
    by_cases front : w - n + i < w
    · have bit := same (n - 1 - i) (by omega)
      have place : w - 1 - (n - 1 - i) = w - n + i := by omega
      have within : n - 1 - i < w := by omega
      simpa only [BitVec.getMsbD, place, within, decide_true, Bool.true_and] using bit
    · rw [BitVec.getLsbD_of_ge _ _ (by omega), BitVec.getLsbD_of_ge _ _ (by omega)]

/-- The test by shifts decides whether an address lies in a range. -/
theorem contains_iff_covers (n : Network) (a : Address) : n.contains a = true ↔ n.Covers a := by
  cases n with
  | v4 bits length bound =>
      cases a with
      | v4 b => simp only [contains, Covers, beq_iff_eq, ushiftRight_eq_iff bound]
      | v6 b => simp [contains, Covers]
  | v6 bits length bound =>
      cases a with
      | v4 b => simp [contains, Covers]
      | v6 b => simp only [contains, Covers, beq_iff_eq, ushiftRight_eq_iff bound]

instance (n : Network) (a : Address) : Decidable (n.Covers a) :=
  decidable_of_iff _ (contains_iff_covers n a)

end Network

namespace Address

/-- An IPv6 address that carries an IPv4 address. -/
def IsMapped : Address → Prop
  | .v4 _ => False
  | .v6 bits => (mapped? bits).isSome

instance (a : Address) : Decidable a.IsMapped :=
  match a with
  | .v4 _ => inferInstanceAs (Decidable False)
  | .v6 bits => inferInstanceAs (Decidable ((mapped? bits).isSome = true))

/-- An address is known by itself unless it carries another one. -/
theorem canonical_of_not_isMapped {a : Address} (own : ¬a.IsMapped) : a.canonical = a := by
  cases a with
  | v4 bits => rfl
  | v6 bits =>
      have none : mapped? bits = none := by simpa [IsMapped] using own
      simp [canonical, none]

/-- No range that a mapped address lies in is asked for it: its own family is IPv6, and it is known
by an IPv4 address. -/
theorem not_covers_canonical {a : Address} (mapped : a.IsMapped) {n : Network} (covered : n.Covers a) :
    ¬n.Covers a.canonical := by
  cases a with
  | v4 bits => exact absurd mapped id
  | v6 bits =>
      obtain ⟨inner, carried⟩ := Option.isSome_iff_exists.1 mapped
      cases n with
      | v4 network length bound => exact absurd covered id
      | v6 network length bound =>
          simp only [canonical, carried]
          exact id

end Address

end HostControl
