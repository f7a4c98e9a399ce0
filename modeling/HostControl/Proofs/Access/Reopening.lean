/-
Module: HostControl.Proofs.Access.Reopening
Purpose: What the file knows of the registry that wrote it. The file has the ranges in force, but neither
  the deny list nor the ends of the entries; so a registry that is opened from it lets in all that the
  running one lets in, and besides only what a deny entry keeps out or what was let in for a time that is
  over.
Main exports: Registry.reload, Registry.open?_of_ranges, Registry.reload_allows_iff,
  Registry.allows_iff_reload
-/
import HostControl.Proofs.Access.Governing
import HostControl.Proofs.Access.Lockstep

namespace HostControl.Access

namespace Registry

/-! ### The registry that is opened again -/

/-- What is left of a registry when it is opened again from a file with the ranges in force: the entries
of the allow list that have not expired, without their ends. -/
def reload (now : Instant) (r : Registry) : Registry where
  middleware := r.middleware
  place := r.place
  lists := { allow := (r.lists.allow.filter fun e => !e.expired now).map (reloaded now) }

/-- A file that holds the ranges in force gives the entries in force again. -/
theorem open?_of_ranges {r : Registry} {now : Instant} (sound : r.lists.Sound)
    (held : r.place.ranges r.middleware = .ok (r.lists.liveRanges now)) :
    open? r.middleware r.place now = .ok (r.reload now) := by
  have kept : SoundEntries (r.lists.allow.filter fun e => !e.expired now) :=
    (sound .allow).sublist List.filter_sublist
  rw [open?, held, Lists.liveRanges, Except.map, load_patterns now kept]
  rfl

/-- An entry that is found in the file has no end, and holds for what the entry behind it holds for. -/
theorem governs_reloaded (now t : Instant) (a : Address) (e : Entry) :
    (reloaded now e).governs t a = e.matchesAddress a := rfl

/-- The registry that is opened again lets an address in for good if an entry let it in then. -/
theorem reload_allows_iff (now t : Instant) (a : Address) (r : Registry) :
    (r.reload now).allowsAddress a t = true ↔ ∃ e ∈ r.lists.allow, e.governs now a = true := by
  simp only [allowsAddress, Lists.allows, reload, List.any_nil, Bool.not_false, Bool.true_and,
    List.any_eq_true]
  constructor
  · rintro ⟨_, listed, governs⟩
    obtain ⟨e, kept, rfl⟩ := List.mem_map.1 listed
    obtain ⟨member, live⟩ := List.mem_filter.1 kept
    rw [governs_reloaded] at governs
    refine ⟨e, member, ?_⟩
    rw [Entry.governs, live, governs]
    rfl
  · rintro ⟨e, member, governs⟩
    obtain ⟨live, covered⟩ := Bool.and_eq_true_iff.1 governs
    exact ⟨reloaded now e, List.mem_map_of_mem (List.mem_filter.2 ⟨member, live⟩), covered⟩

/-- A running registry lets in what the reopened one does, if no deny entry speaks against it and an entry
that let it in is still in force. -/
theorem allows_iff_reload {now t : Instant} (later : now ≤ t) (a : Address) (r : Registry) :
    r.allowsAddress a t = true ↔
      (r.reload now).allowsAddress a t = true ∧ (∀ e ∈ r.lists.deny, e.governs t a = false) ∧
        ∃ e ∈ r.lists.allow, e.governs now a = true ∧ e.expired t = false := by
  rw [reload_allows_iff, allowsAddress, Lists.allows, Bool.and_eq_true, Bool.not_eq_true',
    List.any_eq_false, List.any_eq_true]
  constructor
  · rintro ⟨free, e, member, governs⟩
    obtain ⟨live, covered⟩ := Entry.governs_iff.1 governs
    have before : e.governs now a = true :=
      Entry.governs_iff.2 ⟨Entry.live_of_live_later later live, covered⟩
    refine ⟨⟨e, member, before⟩, ?_, e, member, before, live⟩
    intro d listed
    simpa using free d listed
  · rintro ⟨_, free, e, member, before, live⟩
    refine ⟨?_, e, member, ?_⟩
    · intro d listed
      simp [free d listed]
    · exact Entry.governs_iff.2 ⟨live, (Entry.governs_iff.1 before).2⟩

end Registry

/-! ### Every run -/

/-- A registry that is opened again from the file that a run has left. After any step that succeeds, the
file can be read, and an address is let in exactly if the file has a range for it and no deny entry in force
holds it; both are asked for the address by the name that it is known by. A registry that is opened from the
file at that instant lets in, then and later, what the file has a range for. The running registry lets in an
address, then and as long as nothing changes it, if the reopened one does, no deny entry in force holds for
it and an entry that let it in has not come to its end. -/
theorem reopened_registry_admits (middleware : String) (start : Instant) :
    ∃ r, Registry.open? middleware .missing start = .ok r ∧
      ∀ past s, Timely start (s :: past) → (∃ reply, (s.carryOut (r.after past)).result = .ok reply) →
        ∃ running ranges reopened, r.after (s :: past) = running ∧
          running.place.ranges middleware = .ok ranges ∧
          Registry.open? middleware running.place s.now = .ok reopened ∧
          (∀ a, running.allowsAddress a s.now = true ↔
            LiesIn ranges a.canonical ∧
              ¬LiesIn (running.lists.livePatterns .deny s.now) a.canonical) ∧
          ∀ a t, s.now ≤ t →
            (reopened.allowsAddress a t = true ↔ LiesIn ranges a.canonical) ∧
            (running.allowsAddress a t = true ↔
              reopened.allowsAddress a t = true ∧
                (∀ e ∈ running.lists.deny, e.governs t a = false) ∧
                ∃ e ∈ running.lists.allow, e.governs s.now a = true ∧ e.expired t = false) := by
  refine ⟨_, Registry.open?_missing middleware start, ?_⟩
  rintro past s timely ⟨reply, done⟩
  have missing : Lockstep { middleware, place := .missing } none := ⟨rfl, rfl⟩
  have before : ∀ t ∈ Registry.lastWrite { middleware, place := .missing } past, t ≤ s.now := by
    intro t written
    exact Instant.le_trans (lastWrite_le_clock timely.1 written) timely.2
  have held := ranges_of_done (lockstep_after missing past) before done
  have sound := sound_after (Registry.sound_of_open? (Registry.open?_missing middleware start))
    (s :: past)
  have named := middleware_after { middleware, place := .missing } (s :: past)
  rw [middleware_after] at held
  generalize state : Registry.after { middleware, place := .missing } (s :: past) = running
  rw [state] at sound named
  rw [Registry.after] at state
  rw [state] at held
  have again := @Registry.open?_of_ranges running s.now sound (named ▸ held)
  rw [named] at again
  refine ⟨running, _, _, rfl, held, again, ?_, ?_⟩
  · intro a
    rw [Registry.allowsAddress, Lists.allows_iff sound, Lists.livePatterns_allow]
  · intro a t later
    constructor
    · have listed := Lists.any_governs_iff sound .allow s.now a
      rw [List.any_eq_true] at listed
      rw [Registry.reload_allows_iff, ← Lists.livePatterns_allow]
      exact listed
    · exact Registry.allows_iff_reload later a running

/-- An office network is let in for an hour. -/
def admitForHour : Step :=
  ⟨.add .allow "10.0.0.0/8" "office" "ops" (some (atSecond 3600)), atSecond 0, none⟩

/-- One host of the office is kept out for good. -/
def banForGood : Step := ⟨.add .deny "10.0.0.9" "scanner" "ops" none, atSecond 60, none⟩

/-- Within the hour the reopened registry lets in the neighbours of that host as the running one does, and
it goes on to do so when the hour is over. -/
theorem reopened_registry_admits_neighbour :
    ∃ r running reopened, Registry.open? "web" .missing (atSecond 0) = .ok r ∧
      Timely (atSecond 0) [banForGood, admitForHour] ∧
      (∃ reply, (banForGood.carryOut (r.after [admitForHour])).result = .ok reply) ∧
      r.after [banForGood, admitForHour] = running ∧
      Registry.open? "web" running.place banForGood.now = .ok reopened ∧
      running.allowsAddress (.v4 0x0a000008#32) (atSecond 120) = true ∧
      reopened.allowsAddress (.v4 0x0a000008#32) (atSecond 120) = true ∧
      running.allowsAddress (.v4 0x0a000008#32) (atSecond 3600) = false ∧
      reopened.allowsAddress (.v4 0x0a000008#32) (atSecond 3600) = true := by
  obtain ⟨r, opened, holds⟩ := reopened_registry_admits "web" (atSecond 0)
  have timely : Timely (atSecond 0) [banForGood, admitForHour] :=
    ⟨⟨trivial, by decide⟩, by decide⟩
  cases opened
  have done : ∃ reply, (banForGood.carryOut (Registry.after
      { middleware := "web", place := .missing } [admitForHour])).result = .ok reply :=
    ⟨.entry ⟨"10.0.0.9", "scanner", "ops", atSecond 60, none,
      .v4 0x0a000009#32 32 (by decide)⟩, by decide +kernel⟩
  obtain ⟨running, ranges, reopened, state, held, again, _, later⟩ := holds _ _ timely done
  have within := later (.v4 0x0a000008#32) (atSecond 120) (by decide)
  have beyond := later (.v4 0x0a000008#32) (atSecond 3600) (by decide)
  have admitted : running.allowsAddress (.v4 0x0a000008#32) (atSecond 120) = true := by
    rw [← state]
    decide +kernel
  have still := (within.2.1 admitted).1
  refine ⟨_, running, reopened, rfl, timely, done, state, again, admitted, still, ?_, ?_⟩
  · rw [← state]
    decide +kernel
  · exact beyond.1.2 (within.1.1 still)

/-- The file has a range for the host that is kept out, and a registry that is opened from it lets the
host in. -/
theorem reopened_registry_forgets_denied :
    ∃ r ranges reopened, Registry.open? "web" .missing (atSecond 0) = .ok r ∧
      Timely (atSecond 0) [banForGood, admitForHour] ∧
      (∃ reply, (banForGood.carryOut (r.after [admitForHour])).result = .ok reply) ∧
      (r.after [banForGood, admitForHour]).place.ranges "web" = .ok ranges ∧
      LiesIn ranges (.v4 0x0a000009#32) ∧
      Registry.open? "web" (r.after [banForGood, admitForHour]).place banForGood.now = .ok reopened ∧
      (r.after [banForGood, admitForHour]).allowsAddress (.v4 0x0a000009#32) banForGood.now = false ∧
      reopened.allowsAddress (.v4 0x0a000009#32) banForGood.now = true := by
  have opened := Registry.open?_missing "web" (atSecond 0)
  have missing : Lockstep { middleware := "web", place := .missing } none := ⟨rfl, rfl⟩
  have held := ranges_after missing [banForGood, admitForHour]
  have owed : Registry.owed { middleware := "web", place := .missing } [banForGood, admitForHour] =
      ["10.0.0.0/8"] := by decide +kernel
  have live : (Registry.after { middleware := "web", place := .missing }
      [banForGood, admitForHour]).lists.liveRanges banForGood.now = ["10.0.0.0/8"] := by decide +kernel
  have named := middleware_after { middleware := "web", place := .missing } [banForGood, admitForHour]
  rw [owed] at held
  have again := Registry.open?_of_ranges
    (sound_after (Registry.sound_of_open? opened) [banForGood, admitForHour])
    (by rw [live, named]; exact held)
  rw [named] at again
  refine ⟨_, _, _, opened, ⟨⟨trivial, by decide⟩, by decide⟩, ?_, held, ?_, again, by decide +kernel,
    by decide +kernel⟩
  · exact ⟨.entry ⟨"10.0.0.9", "scanner", "ops", atSecond 60, none,
      .v4 0x0a000009#32 32 (by decide)⟩, by decide +kernel⟩
  · exact ⟨"10.0.0.0/8", List.mem_singleton_self _, .v4 0x0a000000#32 8 (by decide),
      by decide +kernel, by decide⟩

end HostControl.Access
