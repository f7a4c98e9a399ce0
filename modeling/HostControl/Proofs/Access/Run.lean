/-
Module: HostControl.Proofs.Access.Run
Purpose: Runs of the registry: calls that change it, one after another, each at a reading of the clock and
  with a write that succeeds or fails. What one call can do is said once, in `carryOut_cases`, and the
  facts about whole runs go by induction on them.
Main exports: Call, Step, Step.carryOut, Planned, carryOut_cases, carryOut_ends, carryOut_done, atSecond,
  Registry.after, Registry.lastWrite, Timely, Lists.Sound, sound_after
-/
import HostControl.Access.Registry
import HostControl.Proofs.Access.Entry

namespace HostControl.Access

open Text

/-! ### Calls -/

/-- A call that may change the registry. -/
inductive Call where
  | add (kind : ListKind) (pattern description addedBy : String) (expiresAt : Option Instant)
  | remove (kind : ListKind) (pattern actor : String)
  | cleanup
deriving DecidableEq, Repr

/-- What a call gives when it succeeds: the entry that was added or taken out, or how many entries had
expired. -/
inductive Reply where
  | entry (e : Entry)
  | count (n : Nat)
deriving DecidableEq, Repr

/-- A call, the reading of the clock at which it is made, and how its write to the file fails if it
does. -/
structure Step where
  call : Call
  now : Instant
  fault : Option WriteFault := none
deriving DecidableEq, Repr

/-- A change whose result is seen as another one. -/
def Change.map {α β : Type} (f : α → β) (c : Change α) : Change β where
  result := c.result.map f
  registry := c.registry
  events := c.events
  drafts := c.drafts

/-- Whether a change has put a new text in the place of the file. -/
def Change.wrote {α : Type} (c : Change α) : Bool := c.result.isOk && !c.drafts.isEmpty

/-- What a step does to a registry. -/
def Step.carryOut (s : Step) (r : Registry) : Change Reply :=
  match s.call with
  | .add kind pattern description addedBy expiresAt =>
      (r.add kind pattern description addedBy expiresAt s.now s.fault).map .entry
  | .remove kind pattern actor => (r.remove kind pattern actor s.now s.fault).map .entry
  | .cleanup => (r.cleanup s.now s.fault).map .count

/-! ### What one step can do -/

/-- The lists that a step means to put in place, and what it then gives. -/
inductive Planned (r : Registry) : Step → Reply → Lists → Prop where
  | add {kind : ListKind} {pattern description addedBy : String} {expiresAt : Option Instant}
      {now : Instant} {fault : Option WriteFault} {e : Entry}
      (made : Entry.make pattern description addedBy now expiresAt = .ok e)
      (live : e.expired now = false) (fresh : r.has kind e.pattern = false) :
      Planned r ⟨.add kind pattern description addedBy expiresAt, now, fault⟩ (.entry e)
        (r.lists.set kind (r.lists.get kind ++ [e]))
  | remove {kind : ListKind} {pattern actor : String} {now : Instant} {fault : Option WriteFault}
      {e : Entry} (found : ((r.lists.get kind).find? fun e => e.pattern == trim pattern) = some e) :
      Planned r ⟨.remove kind pattern actor, now, fault⟩ (.entry e)
        (r.lists.set kind (Registry.without (trim pattern) (r.lists.get kind)))
  | cleanup {now : Instant} {fault : Option WriteFault}
      (some : 0 < (r.expiredIn .allow now).length + (r.expiredIn .deny now).length) :
      Planned r ⟨.cleanup, now, fault⟩
        (.count ((r.expiredIn .allow now).length + (r.expiredIn .deny now).length)) (r.swept now)

theorem commit_map {α β : Type} (f : α → β) (next : Lists) (now : Instant)
    (fault : Option WriteFault) (attempt : Audit.Event) (value : α) (events : List Audit.Event)
    (r : Registry) :
    (r.commit next now fault attempt value events).map f =
      r.commit next now fault attempt (f value) events := by
  unfold Registry.commit
  cases written : r.place.write (ProxyFile.render r.middleware (next.liveRanges now) now) fault with
  | ok place =>
      simp only [written]
      rfl
  | error f =>
      simp only [written]
      rfl

theorem refuse_map {α β : Type} (f : α → β) (e : Error) (r : Registry) :
    (r.refuse e).map f = r.refuse e := rfl

/-- A step is refused before anything is written, or is a clean-up that finds nothing, or commits the
lists that it has planned. -/
theorem carryOut_cases (s : Step) (r : Registry) :
    (∃ e, s.carryOut r = r.refuse e) ∨
      (s.call = .cleanup ∧ r.expiredIn .allow s.now = [] ∧ r.expiredIn .deny s.now = [] ∧
        s.carryOut r = { result := .ok (.count 0), registry := r }) ∨
      ∃ reply next, Planned r s reply next ∧ ∃ attempt events,
        s.carryOut r = r.commit next s.now s.fault attempt reply events := by
  obtain ⟨call, now, fault⟩ := s
  cases call with
  | add kind pattern description addedBy expiresAt =>
      simp only [Step.carryOut, Registry.add]
      cases made : Entry.make pattern description addedBy now expiresAt with
      | error e => exact .inl ⟨e, refuse_map _ e r⟩
      | ok entry =>
          simp only
          by_cases ended : entry.expired now = true
          · rw [if_pos ended]
            exact .inl ⟨_, refuse_map _ _ r⟩
          · rw [if_neg ended]
            by_cases known : r.has kind entry.pattern = true
            · rw [if_pos known]
              exact .inl ⟨_, refuse_map _ _ r⟩
            · rw [if_neg known, commit_map]
              exact .inr (.inr ⟨_, _, .add made (by simpa using ended) (by simpa using known), _, _, rfl⟩)
  | remove kind pattern actor =>
      simp only [Step.carryOut, Registry.remove]
      cases found : (r.lists.get kind).find? fun e => e.pattern == trim pattern with
      | none => exact .inl ⟨_, refuse_map _ _ r⟩
      | some entry =>
          simp only [commit_map]
          exact .inr (.inr ⟨_, _, .remove found, _, _, rfl⟩)
  | cleanup =>
      simp only [Step.carryOut, Registry.cleanup]
      by_cases none : (r.expiredIn .allow now).length + (r.expiredIn .deny now).length = 0
      · rw [if_pos none]
        have allow : r.expiredIn .allow now = [] := List.eq_nil_of_length_eq_zero (by omega)
        have deny : r.expiredIn .deny now = [] := List.eq_nil_of_length_eq_zero (by omega)
        exact .inr (.inl ⟨trivial, allow, deny, rfl⟩)
      · rw [if_neg none, commit_map]
        exact .inr (.inr ⟨_, _, .cleanup (by omega), _, _, rfl⟩)

/-- A commit either leaves the registry as it was, or puts the next lists in place and their live ranges
in the file. -/
theorem commit_cases {α : Type} (next : Lists) (now : Instant) (fault : Option WriteFault)
    (attempt : Audit.Event) (value : α) (events : List Audit.Event) (r : Registry) :
    (∃ f, (r.commit next now fault attempt value events).result = .error (.sync f) ∧
      (r.commit next now fault attempt value events).registry = r) ∨
    ((r.commit next now fault attempt value events).result = .ok value ∧
      (r.commit next now fault attempt value events).wrote = true ∧
      (r.commit next now fault attempt value events).registry =
        { r with place := .text (ProxyFile.render r.middleware (next.liveRanges now) now)
                 lists := next }) := by
  unfold Registry.commit Place.write
  cases fault with
  | some f => exact .inl ⟨_, rfl, rfl⟩
  | none =>
      cases stands : r.place with
      | directory => exact .inl ⟨_, rfl, rfl⟩
      | missing => exact .inr ⟨rfl, rfl, rfl⟩
      | text contents => exact .inr ⟨rfl, rfl, rfl⟩

/-- How a step ends. A step that fails leaves the registry as it was; one that succeeds either is a
clean-up that finds nothing, or puts the planned lists in place and their live ranges in the file. -/
theorem carryOut_ends (s : Step) (r : Registry) :
    ((∃ e, (s.carryOut r).result = .error e) ∧ (s.carryOut r).wrote = false ∧
      (s.carryOut r).registry = r) ∨
    (s.call = .cleanup ∧ r.expiredIn .allow s.now = [] ∧ r.expiredIn .deny s.now = [] ∧
      (s.carryOut r).result = .ok (.count 0) ∧ (s.carryOut r).wrote = false ∧
      (s.carryOut r).registry = r) ∨
    ∃ reply next, Planned r s reply next ∧ (s.carryOut r).result = .ok reply ∧
      (s.carryOut r).wrote = true ∧ (s.carryOut r).registry =
        { r with place := .text (ProxyFile.render r.middleware (next.liveRanges s.now) s.now)
                 lists := next } := by
  rcases carryOut_cases s r with ⟨e, same⟩ | ⟨call, allow, deny, same⟩ | ⟨reply, next, planned, attempt, events, same⟩
  · rw [same]
    exact .inl ⟨⟨e, rfl⟩, rfl, rfl⟩
  · rw [same]
    exact .inr (.inl ⟨call, allow, deny, rfl, rfl, rfl⟩)
  · rw [same]
    rcases commit_cases next s.now s.fault attempt reply events r with
      ⟨f, failed, kept⟩ | ⟨done, wrote, put⟩
    · refine .inl ⟨⟨_, failed⟩, ?_, kept⟩
      simp [Change.wrote, failed, Except.isOk, Except.toBool]
    · exact .inr (.inr ⟨reply, next, planned, done, wrote, put⟩)

/-- A step that fails leaves the registry as it was. -/
theorem registry_of_failed {s : Step} {r : Registry} {e : Error}
    (failed : (s.carryOut r).result = .error e) : (s.carryOut r).registry = r := by
  rcases carryOut_ends s r with ⟨_, _, same⟩ | ⟨_, _, _, done, _⟩ | ⟨_, _, _, done, _⟩
  · exact same
  · rw [done] at failed
    cases failed
  · rw [done] at failed
    cases failed

/-- A step that succeeds is a clean-up that finds nothing, or puts the planned lists in place and their
live ranges in the file. -/
theorem carryOut_done {s : Step} {r : Registry} {reply : Reply}
    (done : (s.carryOut r).result = .ok reply) :
    (s.call = .cleanup ∧ r.expiredIn .allow s.now = [] ∧ (s.carryOut r).registry = r) ∨
    ∃ next, Planned r s reply next ∧ (s.carryOut r).registry =
      { r with place := .text (ProxyFile.render r.middleware (next.liveRanges s.now) s.now)
               lists := next } := by
  rcases carryOut_ends s r with
    ⟨⟨e, failed⟩, _⟩ | ⟨call, allow, _, _, _, same⟩ | ⟨given, next, planned, ok, _, put⟩
  · rw [failed] at done
    cases done
  · exact .inl ⟨call, allow, same⟩
  · rw [ok] at done
    cases done
    exact .inr ⟨next, planned, put⟩

/-! ### Runs -/

/-- The instant a number of seconds after 1970-01-01T00:00:00Z. -/
def atSecond (n : Nat) : Instant := .ofNanos (Span.ofSeconds n)

namespace Registry

/-- The registry after a run, whose latest step stands first. -/
def after (r : Registry) : List Step → Registry
  | [] => r
  | s :: past => (s.carryOut (r.after past)).registry

/-- The instant of the last step of a run that has written the file. -/
def lastWrite (r : Registry) : List Step → Option Instant
  | [] => none
  | s :: past => if (s.carryOut (r.after past)).wrote then some s.now else r.lastWrite past

end Registry

/-- The clock at the end of a run that began at an instant. -/
def clock (start : Instant) : List Step → Instant
  | [] => start
  | s :: _ => s.now

/-- The clock never goes back in a run. -/
def Timely (start : Instant) : List Step → Prop
  | [] => True
  | s :: past => Timely start past ∧ clock start past ≤ s.now

/-- No step changes the middleware that the file is for. -/
theorem middleware_after (r : Registry) (past : List Step) :
    (r.after past).middleware = r.middleware := by
  induction past with
  | nil => rfl
  | cons s past ih =>
      rw [Registry.after, ← ih]
      rcases carryOut_ends s (r.after past) with
        ⟨_, _, same⟩ | ⟨_, _, _, _, _, same⟩ | ⟨_, _, _, _, _, same⟩ <;> rw [same]

/-! ### Lists of sound entries -/

namespace Lists

@[simp] theorem get_set_self (kind : ListKind) (entries : List Entry) (l : Lists) :
    (l.set kind entries).get kind = entries := by
  cases kind <;> rfl

theorem get_set_of_ne {kind other : ListKind} (distinct : other ≠ kind) (entries : List Entry)
    (l : Lists) : (l.set kind entries).get other = l.get other := by
  cases kind <;> cases other <;> first | rfl | exact absurd rfl distinct

/-- Both lists are sound. -/
def Sound (l : Lists) : Prop := ∀ kind, SoundEntries (l.get kind)

theorem sound_empty : Sound {} := by
  intro kind
  cases kind <;> exact SoundEntries.nil

/-- One list may be changed for another one that is sound. -/
theorem Sound.set {l : Lists} (sound : l.Sound) (kind : ListKind) {entries : List Entry}
    (each : SoundEntries entries) : (l.set kind entries).Sound := by
  intro other
  by_cases same : other = kind
  · subst same
    rwa [get_set_self]
  · rw [get_set_of_ne same]
    exact sound other

end Lists

theorem get_swept (kind : ListKind) (now : Instant) (r : Registry) :
    (r.swept now).get kind = (r.lists.get kind).filter fun e => !e.expired now := by
  cases kind <;> rfl

/-- The lists that a step plans are sound if those before it are. -/
theorem Planned.sound {r : Registry} {s : Step} {reply : Reply} {next : Lists}
    (planned : Planned r s reply next) (sound : r.lists.Sound) : next.Sound := by
  cases planned with
  | @add kind _ _ _ _ _ _ e made live fresh =>
      refine sound.set kind ((sound kind).append (Entry.sound_of_make made) ?_)
      simpa only [Registry.has, List.any_eq_false, beq_iff_eq] using fresh
  | @remove kind _ _ _ _ _ found =>
      exact sound.set kind ((sound kind).sublist List.eraseP_sublist)
  | cleanup some =>
      intro kind
      rw [get_swept]
      exact (sound kind).sublist List.filter_sublist

/-- A run keeps the lists sound. -/
theorem sound_after {r : Registry} (sound : r.lists.Sound) (past : List Step) :
    (r.after past).lists.Sound := by
  induction past with
  | nil => exact sound
  | cons s past ih =>
      rw [Registry.after]
      rcases carryOut_ends s (r.after past) with
        ⟨_, _, same⟩ | ⟨_, _, _, _, _, same⟩ | ⟨_, _, planned, _, _, same⟩
      · rwa [same]
      · rwa [same]
      · rw [same]
        exact planned.sound ih

end HostControl.Access
