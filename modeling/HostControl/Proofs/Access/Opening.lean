/-
Module: HostControl.Proofs.Access.Opening
Purpose: What the registry makes of the ranges that it finds in the file when it is opened. The entries are
  sound, and ranges that a registry has written itself are all taken, in their order.
Main exports: Registry.sound_of_open?, Registry.open?_missing, Registry.load_patterns
-/
import HostControl.Proofs.Access.Run

namespace HostControl.Access

open Text

namespace Registry

/-- What one range adds to the entries found before it. -/
def loadStep (now : Instant) (entries : List Entry) (pattern : String) : List Entry :=
  if entries.any fun e => e.pattern == trim pattern then entries
  else entries ++ (loaded? pattern now).toList

theorem load_eq_foldl (now : Instant) (ranges : List String) :
    load now ranges = ranges.foldl (loadStep now) [] := rfl

/-- An entry is found for a pattern that denotes a range. -/
theorem loaded?_eq_some_iff {pattern : String} {now : Instant} {e : Entry} :
    loaded? pattern now = some e ↔
      Entry.make pattern "loaded from proxy config" "system" now none = .ok e := by
  unfold loaded?
  cases Entry.make pattern "loaded from proxy config" "system" now none with
  | ok entry => simp [Except.toOption]
  | error e => simp [Except.toOption]

theorem loadStep_sound {now : Instant} {entries : List Entry} (pattern : String)
    (sound : SoundEntries entries) : SoundEntries (loadStep now entries pattern) := by
  unfold loadStep
  split
  · exact sound
  · next fresh =>
      cases found : loaded? pattern now with
      | none => simpa using sound
      | some entry =>
          have made := loaded?_eq_some_iff.1 found
          obtain ⟨network, _, rfl⟩ := Entry.make_eq_ok_iff.1 made
          refine sound.append (Entry.sound_of_make made) ?_
          simpa using fresh

theorem sound_load (now : Instant) (ranges : List String) : SoundEntries (load now ranges) := by
  rw [load_eq_foldl]
  have run : ∀ entries, SoundEntries entries →
      SoundEntries (ranges.foldl (loadStep now) entries) := by
    induction ranges with
    | nil => exact fun entries sound => sound
    | cons pattern ranges ih =>
        intro entries sound
        exact ih _ (loadStep_sound pattern sound)
  exact run [] SoundEntries.nil

/-- The lists of a registry that has just been opened are sound. -/
theorem sound_of_open? {middleware : String} {place : Place} {now : Instant} {r : Registry}
    (opened : open? middleware place now = .ok r) : r.lists.Sound := by
  unfold open? at opened
  cases found : place.ranges middleware with
  | error e => simp [found, Except.map] at opened
  | ok ranges =>
      simp only [found, Except.map, Except.ok.injEq] at opened
      subst opened
      exact Lists.sound_empty.set .allow (sound_load now ranges)

/-- Where there is no file, the registry is opened with nothing in its lists. -/
theorem open?_missing (middleware : String) (now : Instant) :
    open? middleware .missing now = .ok { middleware, place := .missing } := rfl

/-- The entry that is found for the pattern of a sound entry. -/
def reloaded (now : Instant) (e : Entry) : Entry where
  pattern := e.pattern
  description := "loaded from proxy config"
  addedBy := "system"
  addedAt := now
  expiresAt := none
  network := e.network

theorem loaded?_pattern (now : Instant) {e : Entry} (sound : e.Sound) :
    loaded? e.pattern now = some (reloaded now e) := by
  rw [loaded?_eq_some_iff, Entry.make_eq_ok_iff]
  exact ⟨e.network, sound.denotes, by rw [sound.trimmed]; rfl⟩

/-- The patterns of sound entries give these entries again, in their order. -/
theorem load_patterns (now : Instant) {es : List Entry} (sound : SoundEntries es) :
    load now (es.map (·.pattern)) = es.map (reloaded now) := by
  rw [load_eq_foldl]
  -- The entries before are taken along, since they decide whether a pattern is new.
  have run : ∀ done rest, SoundEntries (done ++ rest) →
      (rest.map (·.pattern)).foldl (loadStep now) (done.map (reloaded now)) =
        (done ++ rest).map (reloaded now) := by
    intro done rest
    induction rest generalizing done with
    | nil => simp
    | cons e rest ih =>
        intro sound
        have listed : e.Sound := sound.each e (by simp)
        have fresh : ¬(done.map (reloaded now)).any (fun d => d.pattern == trim e.pattern) := by
          rw [listed.trimmed]
          have apart := sound.distinct
          rw [List.map_append, List.nodup_append] at apart
          simp only [List.any_eq_true, List.mem_map, beq_iff_eq, not_exists, not_and]
          rintro _ ⟨d, member, rfl⟩ same
          exact apart.2.2 d.pattern (List.mem_map_of_mem member) e.pattern (by simp) same
        have step : loadStep now (done.map (reloaded now)) e.pattern =
            (done ++ [e]).map (reloaded now) := by
          rw [loadStep, if_neg fresh, loaded?_pattern now listed]
          simp
        rw [List.map_cons, List.foldl_cons, step, ih (done ++ [e]) (by simpa using sound)]
        simp
  exact run [] es sound

end Registry

end HostControl.Access
