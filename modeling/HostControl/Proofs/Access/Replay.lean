/-
Module: HostControl.Proofs.Access.Replay
Purpose: The audit trail tells what the lists hold. Whoever starts with the patterns that the lists had when the
  registry was opened, and takes the successful events of the trail one after another, has the patterns of
  both lists in their order after every call. A call that fails leaves one failed event if the file could not
  be written, and none if the call was refused.
Main exports: Patterns, Lists.patterns, Patterns.replay, Change.Told, told_carryOut, Registry.trailAfter,
  trail_replays_to_lists
-/
import HostControl.Audit.Trail
import HostControl.Proofs.Access.Lockstep
import Mathlib.Data.List.Nodup

namespace HostControl.Access

open Text

/-! ### Reading the trail -/

/-- The patterns of the two lists, in their order. -/
abbrev Patterns := ListKind → List String

def Lists.patterns (l : Lists) : Patterns := fun kind => (l.get kind).map (·.pattern)

/-- The list that a label names. -/
def ListKind.ofLabel? (label : String) : Option ListKind :=
  if label = "allowlist" then some .allow
  else if label = "denylist" then some .deny
  else none

/-- The list that the details of an event name. -/
def listOf? (e : Audit.Event) : Option ListKind :=
  match e.details.lookup "list" with
  | some (.str label) => ListKind.ofLabel? label
  | _ => none

namespace Patterns

/-- The patterns with one more at the end of a list. -/
def append (kind : ListKind) (pattern : String) (ps : Patterns) : Patterns :=
  Function.update ps kind (ps kind ++ [pattern])

/-- The patterns without one of them in a list. -/
def delete (kind : ListKind) (pattern : String) (ps : Patterns) : Patterns :=
  Function.update ps kind ((ps kind).erase pattern)

/-- The patterns after an event of the trail. Failed events, and events about anything else, say nothing
about the lists. -/
def replay (ps : Patterns) (e : Audit.Event) : Patterns :=
  if e.success then
    match e.action with
    | "allowlist_add" => ps.append .allow e.resource
    | "denylist_add" => ps.append .deny e.resource
    | "allowlist_remove" => ps.delete .allow e.resource
    | "denylist_remove" => ps.delete .deny e.resource
    | "access_entry_expired" =>
        match listOf? e with
        | some kind => ps.delete kind e.resource
        | none => ps
    | _ => ps
  else ps

variable {ps : Patterns} {e : Audit.Event} {kind : ListKind}

theorem replay_failed (failed : e.success = false) : ps.replay e = ps := by
  rw [replay, failed]
  rfl

theorem replay_added (done : e.success = true) (action : e.action = kind.label ++ "_add") :
    ps.replay e = ps.append kind e.resource := by
  cases kind <;> rw [replay, done, action] <;> rfl

theorem replay_removed (done : e.success = true) (action : e.action = kind.label ++ "_remove") :
    ps.replay e = ps.delete kind e.resource := by
  cases kind <;> rw [replay, done, action] <;> rfl

theorem replay_expired (kind : ListKind) (entry : Entry) :
    ps.replay (Registry.expiryEvent kind entry) = ps.delete kind entry.pattern := by
  cases kind <;> rfl

/-- The events for the entries of a list that have expired take their patterns out, one by one. -/
theorem foldl_replay_expired (kind : ListKind) (expired : List Entry) (ps : Patterns) :
    (expired.map (Registry.expiryEvent kind)).foldl replay ps =
      Function.update ps kind ((ps kind).diff (expired.map (·.pattern))) := by
  induction expired generalizing ps with
  | nil => simp
  | cons entry rest ih =>
      rw [List.map_cons, List.foldl_cons, replay_expired, ih, delete, Function.update_self,
        Function.update_idem, List.map_cons, List.diff_cons]

end Patterns

/-! ### What a call leaves in the trail -/

theorem Lists.patterns_set (kind : ListKind) (entries : List Entry) (l : Lists) :
    (l.set kind entries).patterns = Function.update l.patterns kind (entries.map (·.pattern)) := by
  funext other
  by_cases own : other = kind
  · subst own
    rw [Function.update_self, patterns, get_set_self]
  · rw [Function.update_of_ne own, patterns, get_set_of_ne own]
    rfl

/-- The pattern that is taken out of a list is its first one of that text. -/
theorem patterns_without (pattern : String) (entries : List Entry) :
    (Registry.without pattern entries).map (·.pattern) = (entries.map (·.pattern)).erase pattern := by
  rw [List.erase_eq_eraseP', List.eraseP_map]
  rfl

/-- Without the patterns of what has expired a list has those of the rest, since no two are the same. -/
theorem diff_expired {entries : List Entry} (sound : SoundEntries entries) (now : Instant) :
    (entries.map (·.pattern)).diff ((entries.filter (Entry.expired now)).map (·.pattern)) =
      (entries.filter fun e => !e.expired now).map (·.pattern) := by
  rw [sound.distinct.sdiff_eq_filter, List.filter_map]
  congr 1
  apply List.filter_congr
  intro e member
  have among : e.pattern ∈ (entries.filter (Entry.expired now)).map (·.pattern) ↔
      e.expired now = true := by
    constructor
    · intro listed
      obtain ⟨other, kept, same⟩ := List.mem_map.1 listed
      obtain ⟨present, ended⟩ := List.mem_filter.1 kept
      rwa [List.inj_on_of_nodup_map sound.distinct present member same] at ended
    · intro ended
      exact List.mem_map_of_mem (List.mem_filter.2 ⟨member, ended⟩)
  simp only [Function.comp_apply, among, Bool.not_eq_true, Bool.decide_eq_false]

namespace Change

variable {α β : Type} {r : Registry}

/-- The events of a change say what it has done to the lists. If the file could not be written there is one,
for the failure, and if the change was refused there is none. -/
structure Told (r : Registry) (c : Change α) : Prop where
  replays : c.events.foldl Patterns.replay r.lists.patterns = c.registry.lists.patterns
  failed : ∀ text, c.result = .error (.sync text) →
    ∃ event, c.events = [event] ∧ event.success = false ∧ event.error = some text
  refused : ∀ e, c.result = .error e → (∀ text, e ≠ .sync text) → c.events = []

theorem Told.map {c : Change α} (told : Told r c) (f : α → β) : Told r (c.map f) := by
  have same : ∀ e, (c.map f).result = .error e → c.result = .error e := by
    intro e failed
    cases result : c.result with
    | error other =>
        simp only [Change.map, result, Except.map, Except.error.injEq] at failed
        rw [failed]
    | ok value =>
        rw [Change.map, result] at failed
        cases failed
  constructor
  · exact told.replays
  · intro text failed
    exact told.failed text (same _ failed)
  · intro e failed other
    exact told.refused e (same e failed) other

end Change

namespace Registry

open Change

variable {r : Registry} {now : Instant} {fault : Option WriteFault}

theorem told_refuse {α : Type} {e : Error} (other : ∀ text, e ≠ .sync text) (r : Registry) :
    Told r (r.refuse e : Change α) := by
  constructor
  · rfl
  · intro text failed
    cases failed
    exact absurd rfl (other text)
  · intro _ _ _
    rfl

/-- A commit leaves its events if they say what the next lists are, and the failure else. -/
theorem told_commit {α : Type} {next : Lists} {attempt : Audit.Event} {value : α}
    {events : List Audit.Event}
    (recorded : events.foldl Patterns.replay r.lists.patterns = next.patterns) :
    Told r (r.commit next now fault attempt value events) := by
  unfold commit
  cases written : r.place.write (ProxyFile.render r.middleware (next.liveRanges now) now) fault with
  | ok place =>
      simp only [written]
      constructor
      · exact recorded
      · intro text failed
        cases failed
      · intro e failed
        cases failed
  | error f =>
      simp only [written]
      constructor
      · exact Patterns.replay_failed (e := attempt.failed f.message) rfl
      · intro text failed
        cases failed
        exact ⟨_, rfl, rfl, rfl⟩
      · intro e failed other
        cases failed
        exact absurd rfl (other _)

theorem told_add (kind : ListKind) (pattern description addedBy : String)
    (expiresAt : Option Instant) :
    Told r (r.add kind pattern description addedBy expiresAt now fault) := by
  unfold add
  cases made : Entry.make pattern description addedBy now expiresAt with
  | error e =>
      apply told_refuse
      intro text same
      subst same
      unfold Entry.make networkOf at made
      cases found : Network.ofPattern? pattern with
      | none => simp [found, Except.map] at made
      | some network => simp [found, Except.map] at made
  | ok entry =>
      simp only
      split
      · exact told_refuse (by simp) r
      · split
        · exact told_refuse (by simp) r
        · apply told_commit
          rw [List.foldl_cons, List.foldl_nil, Lists.patterns_set, List.map_append]
          -- The end of the entry is one more detail, which does not matter here.
          cases entry.expiresAt with
          | none => exact Patterns.replay_added rfl rfl
          | some t => exact Patterns.replay_added rfl rfl

theorem told_remove (kind : ListKind) (pattern actor : String) :
    Told r (r.remove kind pattern actor now fault) := by
  simp only [remove]
  cases found : (r.lists.get kind).find? fun e => e.pattern == trim pattern with
  | none => exact told_refuse (by simp) r
  | some entry =>
      apply told_commit
      rw [List.foldl_cons, List.foldl_nil, Lists.patterns_set, patterns_without]
      exact Patterns.replay_removed rfl rfl

theorem told_cleanup (sound : r.lists.Sound) : Told r (r.cleanup now fault) := by
  unfold cleanup
  simp only
  split
  · constructor
    · rfl
    · intro text failed
      cases failed
    · intro e failed
      cases failed
  · apply told_commit
    rw [List.foldl_append, Patterns.foldl_replay_expired, Patterns.foldl_replay_expired]
    have left : ∀ kind, (r.lists.patterns kind).diff ((r.expiredIn kind now).map (·.pattern)) =
        (r.swept now).patterns kind := by
      intro kind
      rw [Lists.patterns, Lists.patterns, get_swept]
      exact diff_expired (sound kind) now
    funext kind
    cases kind with
    | allow => exact left .allow
    | deny => exact left .deny

end Registry

/-- Every step leaves in the trail what it does to the lists. -/
theorem told_carryOut {r : Registry} (sound : r.lists.Sound) (s : Step) : (s.carryOut r).Told r := by
  obtain ⟨call, now, fault⟩ := s
  cases call with
  | add kind pattern description addedBy expiresAt =>
      exact (Registry.told_add kind pattern description addedBy expiresAt).map _
  | remove kind pattern actor => exact (Registry.told_remove kind pattern actor).map _
  | cleanup => exact (Registry.told_cleanup sound).map _

/-! ### Every run -/

namespace Registry

/-- The trail after a run. Every step leaves its events in it, each with the time of day at which it is
recorded. -/
def trailAfter (r : Registry) (time : List Step → Audit.Event → Instant) (trail : Audit.Trail) :
    List Step → Audit.Trail
  | [] => trail
  | s :: past =>
      (s.carryOut (r.after past)).events.foldl (fun trail e => trail.record ⟨time past e, e⟩)
        (r.trailAfter time trail past)

end Registry

/-- A trail that takes every record goes on to do so, and has them all in their order. -/
theorem foldl_record {trail : Audit.Trail} (takes : trail.takes = true) (time : Audit.Event → Instant)
    (events : List Audit.Event) :
    (events.foldl (fun trail e => trail.record ⟨time e, e⟩) trail).takes = true ∧
      (events.foldl (fun trail e => trail.record ⟨time e, e⟩) trail).written.map (·.event) =
        trail.written.map (·.event) ++ events := by
  induction events generalizing trail with
  | nil => simpa using takes
  | cons e rest ih =>
      have kept : trail.record ⟨time e, e⟩ = { trail with written := trail.written ++ [⟨time e, e⟩] } :=
        if_pos takes
      have still : (trail.record ⟨time e, e⟩).takes = true := by
        rw [kept]
        exact takes
      obtain ⟨more, written⟩ := ih still
      rw [List.foldl_cons]
      refine ⟨more, written.trans ?_⟩
      simp [kept]

theorem takes_trailAfter {trail : Audit.Trail} (takes : trail.takes = true) (r : Registry)
    (time : List Step → Audit.Event → Instant) (past : List Step) :
    (r.trailAfter time trail past).takes = true := by
  induction past with
  | nil => exact takes
  | cons s past ih => exact (foldl_record ih (time past) _).1

/-- The audit trail replays to the lists. A registry is opened on any file that can be read, and goes through
any run, whatever its clock shows and however its writes go. The successful events of a trail that takes every
record, taken one after another from the patterns that the registry was opened with, give the patterns of both
lists in their order after every step. A further step that cannot write the file leaves one event, which is
marked as failed, and one that is refused leaves none. -/
theorem trail_replays_to_lists {middleware : String} {place : Place} {start : Instant} {r : Registry}
    (opened : Registry.open? middleware place start = .ok r)
    (time : List Step → Audit.Event → Instant) (past : List Step) :
    ((r.trailAfter time { sink := .lines } past).written.map (·.event)).foldl Patterns.replay
        r.lists.patterns = (r.after past).lists.patterns ∧
      ∀ s : Step,
        (∀ text, (s.carryOut (r.after past)).result = .error (.sync text) →
          ∃ event, (s.carryOut (r.after past)).events = [event] ∧ event.success = false ∧
            event.error = some text) ∧
        (∀ text, (s.carryOut (r.after past)).result = .error (.validation text) →
          (s.carryOut (r.after past)).events = []) ∧
        ∀ pattern kind, (s.carryOut (r.after past)).result = .error (.notFound pattern kind) →
          (s.carryOut (r.after past)).events = [] := by
  have sound : ∀ past, (r.after past).lists.Sound := sound_after (Registry.sound_of_open? opened)
  constructor
  · induction past with
    | nil => rfl
    | cons s past ih =>
        have takes := @takes_trailAfter { sink := .lines } rfl r time past
        rw [Registry.trailAfter, (foldl_record takes (time past) _).2, List.foldl_append, ih,
          Registry.after]
        exact (told_carryOut (sound past) s).replays
  · intro s
    have told := told_carryOut (sound past) s
    refine ⟨told.failed, ?_, ?_⟩
    · intro text failed
      exact told.refused _ failed (by simp)
    · intro pattern kind failed
      exact told.refused _ failed (by simp)

/-- Ranges in a file: one of them twice, and a text that denotes none. -/
def doubled : Place :=
  .text (ProxyFile.render "web" ["10.0.0.0/8", " 10.0.0.0/8", "office"] (atSecond 0))

/-- What is opened on the file: it keeps the range that is there twice, once. -/
def doubledRegistry : Registry where
  middleware := "web"
  place := doubled
  lists := { allow := Registry.load (atSecond 0) ["10.0.0.0/8", " 10.0.0.0/8", "office"] }

/-- An address is let in and another one kept out, both for an hour. Of two sweeps after it the first one cannot
write the file. -/
def sweptHour : List Step :=
  [⟨.cleanup, atSecond 7200, none⟩, ⟨.cleanup, atSecond 7100, some { step := .replace }⟩,
    ⟨.add .deny "10.0.0.9" "scanner" "ops" (some (atSecond 3600)), atSecond 60, none⟩,
    ⟨.add .allow " ::1" "itself" "ops" (some (atSecond 3600)), atSecond 0, none⟩]

/-- A sweep that cannot write the file. -/
def failedSweep : Step := ⟨.cleanup, atSecond 7150, some { step := .writeDraft }⟩

theorem doubledRegistry_swept :
    doubledRegistry.lists.patterns .allow = ["10.0.0.0/8"] ∧
      (doubledRegistry.after sweptHour.tail).lists.patterns .allow = ["10.0.0.0/8", "::1"] ∧
      (doubledRegistry.after sweptHour).lists.patterns .allow = ["10.0.0.0/8"] ∧
      (failedSweep.carryOut (doubledRegistry.after sweptHour.tail)).result =
        .error (.sync "failed to write") := by
  decide +kernel

/-- The trail of the run leads to the range that is left, and a sweep that fails again is told of once. -/
theorem trail_replays_to_lists_sweptHour :
    ∃ r, Registry.open? "web" doubled (atSecond 0) = .ok r ∧
      r.lists.patterns .allow = ["10.0.0.0/8"] ∧
      (r.after sweptHour.tail).lists.patterns .allow = ["10.0.0.0/8", "::1"] ∧
      (((r.trailAfter (fun _ _ => atSecond 0) { sink := .lines } sweptHour).written.map
        (·.event)).foldl Patterns.replay r.lists.patterns) .allow = ["10.0.0.0/8"] ∧
      ∃ event, (failedSweep.carryOut (r.after sweptHour.tail)).events = [event] ∧ event.success = false := by
  have read : doubled.ranges "web" = .ok ["10.0.0.0/8", " 10.0.0.0/8", "office"] :=
    ranges_render "web" _ (atSecond 0)
  have opened : Registry.open? "web" doubled (atSecond 0) = .ok doubledRegistry := by
    rw [Registry.open?, read]
    rfl
  obtain ⟨begun, before, after, sync⟩ := doubledRegistry_swept
  obtain ⟨replayed, _⟩ := trail_replays_to_lists opened (fun _ _ => atSecond 0) sweptHour
  obtain ⟨_, further⟩ := trail_replays_to_lists opened (fun _ _ => atSecond 0) sweptHour.tail
  obtain ⟨failed, _⟩ := further failedSweep
  obtain ⟨event, only, marked, _⟩ := failed "failed to write" sync
  refine ⟨doubledRegistry, opened, begun, before, ?_, event, only, marked⟩
  rw [replayed]
  exact after

end HostControl.Access
