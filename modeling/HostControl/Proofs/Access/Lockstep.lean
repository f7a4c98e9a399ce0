/-
Module: HostControl.Proofs.Access.Lockstep
Purpose: The proxy file is kept in step with the allow list. Whatever a run has done, and however its
  writes have gone, the file holds the ranges that were in force when it was last written, and after a
  clean-up it holds the whole list.
Main exports: Registry.owed, Lockstep, lockstep_carryOut, lockstep_after, ranges_after, ranges_of_done
-/
import HostControl.Proofs.Access.Opening
import HostControl.Proofs.Access.ProxyFile

namespace HostControl.Access

/-! ### What the file holds -/

/-- A file that was written gives back its ranges. -/
theorem ranges_render (middleware : String) (ranges : List String) (updated : Instant) :
    (Place.text (ProxyFile.render middleware ranges updated)).ranges middleware = .ok ranges := by
  simp only [Place.ranges, ProxyFile.ranges?_render, if_true]

/-- A file that has been written is read back as the ranges that were in force. -/
theorem ranges_of_write (middleware : String) (l : Lists) (t : Instant) :
    (Place.text (ProxyFile.render middleware (l.liveRanges t) t)).ranges middleware =
      .ok (l.liveRanges t) := ranges_render middleware (l.liveRanges t) t

/-- While no entry of the allow list has expired, all its patterns are in force. -/
theorem liveRanges_eq_map {l : Lists} {t : Instant} (live : ∀ e ∈ l.allow, e.expired t = false) :
    l.liveRanges t = l.allow.map (·.pattern) := by
  have all : l.allow.filter (fun e => !e.expired t) = l.allow := by
    rw [List.filter_eq_self]
    intro e member
    rw [live e member]
    rfl
  rw [Lists.liveRanges, all]

/-- The ranges that the file should hold after a run: those of the allow list that were in force when
the file was last written, and none if it never was. -/
def Registry.owed (r : Registry) (past : List Step) : List String :=
  match r.lastWrite past with
  | none => []
  | some t => (r.after past).lists.liveRanges t

/-- The file of a registry is in step with its lists, given when it was last written. -/
def Lockstep (r : Registry) : Option Instant → Prop
  | none => r.place = .missing ∧ r.lists = {}
  | some t => r.place.ranges r.middleware = .ok (r.lists.liveRanges t)

/-- One step keeps the file in step. Only a write that goes through changes the file or the lists, and it
changes both. -/
theorem lockstep_carryOut {r : Registry} {written : Option Instant} (kept : Lockstep r written)
    (s : Step) :
    Lockstep (s.carryOut r).registry (if (s.carryOut r).wrote then some s.now else written) := by
  rcases carryOut_ends s r with
    ⟨_, idle, same⟩ | ⟨_, _, _, _, idle, same⟩ | ⟨reply, next, _, _, wrote, put⟩
  · rw [idle, same]
    exact kept
  · rw [idle, same]
    exact kept
  · rw [wrote, if_pos rfl, put]
    exact ranges_of_write r.middleware next s.now

/-- A run from a missing file keeps the file in step. -/
theorem lockstep_after {r : Registry} (missing : Lockstep r none) (past : List Step) :
    Lockstep (r.after past) (r.lastWrite past) := by
  induction past with
  | nil => exact missing
  | cons s past ih => exact lockstep_carryOut ih s

theorem ranges_after {r : Registry} (missing : Lockstep r none) (past : List Step) :
    (r.after past).place.ranges r.middleware = .ok (r.owed past) := by
  have kept := lockstep_after missing past
  unfold Registry.owed
  cases written : r.lastWrite past with
  | none =>
      rw [written] at kept
      rw [kept.1]
      rfl
  | some t =>
      rw [written, Lockstep, middleware_after] at kept
      exact kept

/-! ### After a step that succeeds -/

/-- The file was last written no later than the last step. -/
theorem lastWrite_le_clock {r : Registry} {start t : Instant} {past : List Step}
    (timely : Timely start past) (written : r.lastWrite past = some t) : t ≤ clock start past := by
  induction past with
  | nil => cases written
  | cons s past ih =>
      rw [Registry.lastWrite] at written
      split at written
      · cases written
        exact Instant.le_refl _
      · exact Instant.le_trans (ih timely.1 written) timely.2

theorem live_of_expiredIn_nil {r : Registry} {kind : ListKind} {t : Instant}
    (none : r.expiredIn kind t = []) : ∀ e ∈ r.lists.get kind, e.expired t = false := by
  intro e member
  have outside : e ∉ r.expiredIn kind t := by simp [none]
  simpa [Registry.expiredIn, member] using outside

/-- After a step that succeeds, the file holds the ranges in force at that step. A clean-up that finds
nothing does not write, but then nothing has expired since the last write either. -/
theorem ranges_of_done {r : Registry} {written : Option Instant} (kept : Lockstep r written) {s : Step}
    (later : ∀ t ∈ written, t ≤ s.now) {reply : Reply} (done : (s.carryOut r).result = .ok reply) :
    (s.carryOut r).registry.place.ranges r.middleware =
      .ok ((s.carryOut r).registry.lists.liveRanges s.now) := by
  rcases carryOut_done done with ⟨_, allow, same⟩ | ⟨next, _, put⟩
  · rw [same]
    cases written with
    | none =>
        rw [kept.1, kept.2]
        rfl
    | some t =>
        have live : ∀ e ∈ r.lists.allow, e.expired s.now = false :=
          @live_of_expiredIn_nil r .allow s.now allow
        -- What has not expired now had not expired when the file was written either.
        have before : ∀ e ∈ r.lists.allow, e.expired t = false := by
          intro e member
          exact Entry.live_of_live_later (later t rfl) (live e member)
        rw [kept, liveRanges_eq_map live, liveRanges_eq_map before]
  · rw [put]
    exact ranges_of_write r.middleware next s.now

/-- A clean-up that succeeds leaves no expired entry in the allow list. -/
theorem live_of_cleanup {r : Registry} {s : Step} (cleanup : s.call = .cleanup) {reply : Reply}
    (done : (s.carryOut r).result = .ok reply) :
    ∀ e ∈ (s.carryOut r).registry.lists.allow, e.expired s.now = false := by
  rcases carryOut_done done with ⟨_, allow, same⟩ | ⟨next, planned, put⟩
  · rw [same]
    exact @live_of_expiredIn_nil r .allow s.now allow
  · rw [put]
    cases planned with
    | add => cases cleanup
    | remove => cases cleanup
    | cleanup =>
        intro e member
        simpa using (List.mem_filter.1 member).2

/-! ### Every run -/

/-- The registry and its file in lockstep. A registry that is opened where there is no file goes through
any run under a clock that does not go back. Then the file holds, in order, the patterns of the allow
entries that were in force at the last write that went through. A further step that fails changes neither
the lists nor the file, and a further clean-up that succeeds leaves the file with the whole allow list. -/
theorem proxy_file_in_lockstep (middleware : String) (start : Instant) :
    ∃ r, Registry.open? middleware .missing start = .ok r ∧
      ∀ past, Timely start past →
        (r.after past).place.ranges middleware = .ok (r.owed past) ∧
        (r.lastWrite past = none → (r.after past).place = .missing ∧ (r.after past).lists = {}) ∧
        ∀ s : Step, clock start past ≤ s.now →
          ((∃ e, (s.carryOut (r.after past)).result = .error e) →
            (s.carryOut (r.after past)).registry = r.after past) ∧
          (s.call = .cleanup → (∃ reply, (s.carryOut (r.after past)).result = .ok reply) →
            (s.carryOut (r.after past)).registry.place.ranges middleware =
              .ok ((s.carryOut (r.after past)).registry.lists.allow.map (·.pattern))) := by
  refine ⟨_, Registry.open?_missing middleware start, ?_⟩
  intro past timely
  have missing : Lockstep { middleware, place := .missing } none := ⟨rfl, rfl⟩
  have kept := lockstep_after missing past
  refine ⟨ranges_after missing past, ?_, ?_⟩
  · intro never
    rw [never] at kept
    exact kept
  · intro s later
    constructor
    · rintro ⟨e, failed⟩
      exact registry_of_failed failed
    · rintro cleanup ⟨reply, done⟩
      have before : ∀ t ∈ Registry.lastWrite { middleware, place := .missing } past, t ≤ s.now := by
        intro t written
        exact Instant.le_trans (lastWrite_le_clock timely written) later
      have whole := ranges_of_done kept before done
      rwa [middleware_after, liveRanges_eq_map (live_of_cleanup cleanup done)] at whole

/-- A range is let in for an hour and an address for good, one write fails, and after that hour an
address is kept out. -/
def hourOfGrace : List Step :=
  [⟨.add .deny "10.0.0.9" "scanner" "ops" none, atSecond 3700, none⟩,
    ⟨.add .allow "fe80::/10" "link" "ops" none, atSecond 120, some { step := .replace }⟩,
    ⟨.add .allow "::1" "itself" "ops" none, atSecond 60, none⟩,
    ⟨.add .allow "10.0.0.0/8" "office" "ops" (some (atSecond 3600)), atSecond 0, none⟩]

/-- The change of the other list has taken the expired range out of the file, but not out of the list;
the clean-up that follows takes it out of the list too. -/
theorem proxy_file_in_lockstep_hourOfGrace :
    ∃ r, Registry.open? "web" .missing (atSecond 0) = .ok r ∧
      Timely (atSecond 0) hourOfGrace ∧
      (r.after hourOfGrace).lists.allow.map (·.pattern) = ["10.0.0.0/8", "::1"] ∧
      (r.after hourOfGrace).place.ranges "web" = .ok ["::1"] ∧
      ((⟨.cleanup, atSecond 7200, none⟩ : Step).carryOut (r.after hourOfGrace)).result =
        .ok (.count 1) ∧
      ((⟨.cleanup, atSecond 7200, none⟩ : Step).carryOut
        (r.after hourOfGrace)).registry.place.ranges "web" = .ok ["::1"] := by
  obtain ⟨r, opened, holds⟩ := proxy_file_in_lockstep "web" (atSecond 0)
  have timely : Timely (atSecond 0) hourOfGrace :=
    ⟨⟨⟨⟨trivial, by decide⟩, by decide⟩, by decide⟩, by decide⟩
  obtain ⟨file, _, further⟩ := holds hourOfGrace timely
  have swept := (further ⟨.cleanup, atSecond 7200, none⟩ (by decide)).2 rfl
  cases opened
  refine ⟨_, rfl, timely, by decide +kernel, ?_, by decide +kernel, ?_⟩
  · exact file
  · exact swept ⟨.count 1, by decide +kernel⟩

end HostControl.Access
