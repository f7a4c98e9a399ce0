/-
Module: HostControl.Proofs.Access.Entry
Purpose: What an entry that was made from a pattern carries: the pattern without blanks around it, and the
  range that the pattern denotes. Such an entry is made again from its own pattern.
Main exports: Entry.Sound, Entry.make_eq_ok_iff, Entry.sound_of_make, Entry.governs_iff,
  Entry.expired_eq_false_iff, SoundEntries
-/
import Mathlib.Data.List.DropRight
import HostControl.Access.Entry
import HostControl.Proofs.Net.Membership

namespace HostControl.Access

open Text

/-! ### Patterns without blanks around them -/

/-- What is trimmed stays as it is when it is trimmed again. -/
theorem trimChars_trimChars (cs : List Char) : trimChars (trimChars cs) = trimChars cs := by
  have front : (trimChars cs).dropWhile isBlank = trimChars cs := by
    rw [List.dropWhile_eq_self_iff]
    intro some
    have kept : trimChars cs <+: cs.dropWhile isBlank := List.rdropWhile_prefix isBlank _
    have long : 0 < (cs.dropWhile isBlank).length := Nat.lt_of_lt_of_le some kept.length_le
    have first := List.dropWhile_eq_self_iff.1 (List.dropWhile_idempotent isBlank cs) long
    rwa [kept.getElem some]
  have back : ((trimChars cs).reverse.dropWhile isBlank).reverse = trimChars cs :=
    List.rdropWhile_idempotent isBlank (cs.dropWhile isBlank)
  rw [trimChars, front, back]

theorem trim_trim (s : String) : trim (trim s) = trim s := by
  rw [trim, trim, String.toList_ofList, trimChars_trimChars]

/-- Blanks around a pattern do not change what it denotes. -/
theorem ofPattern?_trim (pattern : String) :
    Network.ofPattern? (trim pattern) = Network.ofPattern? pattern := by
  simp only [Network.ofPattern?, Network.ofPatternChars?, trim, String.toList_ofList,
    trimChars_trimChars]

/-! ### Entries -/

/-- The pattern of an entry is trimmed, and the range beside it is the one that it denotes. -/
structure Entry.Sound (e : Entry) : Prop where
  trimmed : trim e.pattern = e.pattern
  denotes : Network.ofPattern? e.pattern = some e.network

/-- An entry is made exactly from a pattern that denotes a range. -/
theorem Entry.make_eq_ok_iff {pattern description addedBy : String} {addedAt : Instant}
    {expiresAt : Option Instant} {e : Entry} :
    Entry.make pattern description addedBy addedAt expiresAt = .ok e ↔
      ∃ network, Network.ofPattern? pattern = some network ∧
        e = { pattern := trim pattern, description, addedBy, addedAt, expiresAt, network } := by
  unfold Entry.make networkOf
  cases Network.ofPattern? pattern with
  | none => simp [Except.map]
  | some network => simp [Except.map, eq_comm]

theorem Entry.sound_of_make {pattern description addedBy : String} {addedAt : Instant}
    {expiresAt : Option Instant} {e : Entry}
    (made : Entry.make pattern description addedBy addedAt expiresAt = .ok e) : e.Sound := by
  obtain ⟨network, denoted, rfl⟩ := Entry.make_eq_ok_iff.1 made
  exact ⟨trim_trim pattern, by rw [ofPattern?_trim, denoted]⟩

/-- An entry holds for the addresses that are known by an address in its range. -/
theorem Entry.matchesAddress_iff {e : Entry} {a : Address} :
    e.matchesAddress a = true ↔ e.network.Covers a.canonical :=
  Network.contains_iff_covers e.network a.canonical

theorem Entry.governs_iff {e : Entry} {a : Address} {t : Instant} :
    e.governs t a = true ↔ e.expired t = false ∧ e.network.Covers a.canonical := by
  simp only [Entry.governs, Bool.and_eq_true, Bool.not_eq_true', Entry.matchesAddress_iff]

/-- An entry is in force before its end, and always if it has none. -/
theorem Entry.expired_eq_false_iff {e : Entry} {t : Instant} :
    e.expired t = false ↔ ∀ x ∈ e.expiresAt, t < x := by
  unfold Entry.expired
  cases e.expiresAt with
  | none => simp
  | some x => simp [Instant.not_le]

/-- An entry that has not expired had not expired before either. -/
theorem Entry.live_of_live_later {e : Entry} {t u : Instant} (later : t ≤ u)
    (live : e.expired u = false) : e.expired t = false := by
  rw [Entry.expired_eq_false_iff] at live ⊢
  intro x ends
  exact Int.lt_of_le_of_lt later (live x ends)

/-! ### Lists of entries -/

/-- A list of sound entries, no two of which have the same pattern. -/
structure SoundEntries (es : List Entry) : Prop where
  each : ∀ e ∈ es, e.Sound
  distinct : (es.map (·.pattern)).Nodup

namespace SoundEntries

theorem nil : SoundEntries [] where
  each := by simp
  distinct := List.nodup_nil

/-- An entry of a new pattern may be put at the end. -/
theorem append {es : List Entry} {e : Entry} (sound : SoundEntries es) (made : e.Sound)
    (fresh : ∀ other ∈ es, other.pattern ≠ e.pattern) : SoundEntries (es ++ [e]) where
  each := by
    intro other member
    rcases List.mem_append.1 member with old | new
    · exact sound.each other old
    · rw [List.mem_singleton.1 new]
      exact made
  distinct := by
    rw [List.map_append, List.nodup_append]
    refine ⟨sound.distinct, by simp, ?_⟩
    intro known old new member
    obtain ⟨other, listed, rfl⟩ := List.mem_map.1 old
    rw [List.map_singleton, List.mem_singleton] at member
    rw [member]
    exact fresh other listed

/-- Entries may be left out. -/
theorem sublist {es fewer : List Entry} (sound : SoundEntries es) (kept : fewer.Sublist es) :
    SoundEntries fewer where
  each := fun e member => sound.each e (kept.subset member)
  distinct := sound.distinct.sublist (kept.map _)

end SoundEntries

end HostControl.Access
