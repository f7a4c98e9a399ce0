/-
Module: HostControl.Proofs.Access.Errors
Purpose: When a change of the registry fails, and what it has done then: nothing. A change is refused, or its
  write fails, or it is done, each of them exactly where it is due, in any registry that can be reached.
Main exports: Place.fault?, Reached, Change.Due, due_add, due_remove, due_cleanup, errors_exactly_when_due
-/
import Mathlib.Data.List.Nodup
import HostControl.Proofs.Access.Opening

namespace HostControl.Access

open Text

/-! ### Writes that fail -/

/-- The fault of a write that fails. A directory cannot be replaced. -/
def Place.fault? (fault : Option WriteFault) : Place → Option WriteFault
  | .directory => fault <|> some { step := .replace }
  | .missing | .text _ => fault

/-- Whether a write fails does not depend on the text. -/
theorem Place.write_eq (contents : String) (fault : Option WriteFault) (p : Place) :
    p.write contents fault = match p.fault? fault with
      | some f => .error f
      | none => .ok (.text contents) := by
  cases fault <;> cases p <;> rfl

/-! ### Registries that can be reached -/

/-- A registry that was opened on a file and changed by steps, while others did with its file what they liked. -/
inductive Reached : Registry → Prop where
  | opened {middleware : String} {place : Place} {start : Instant} {r : Registry} :
      Registry.open? middleware place start = .ok r → Reached r
  | step {r : Registry} (s : Step) : Reached r → Reached (s.carryOut r).registry
  | disturbed {r : Registry} (found : Place) : Reached r → Reached { r with place := found }

theorem Reached.sound {r : Registry} (reached : Reached r) : r.lists.Sound := by
  induction reached with
  | opened opened => exact Registry.sound_of_open? opened
  | step s _ ih => exact sound_after ih [s]
  | disturbed _ _ ih => exact ih

/-! ### How a change ends -/

/-- A change ends as it should: with a refusal exactly if it is refused, otherwise with a failed write exactly if
it writes and the write fails, and otherwise done. On every error the registry is as it was before, and if the
change was refused nothing was written. -/
structure Change.Due {α : Type} (c : Change α) (r : Registry) (fault : Option WriteFault)
    (Refusal : Error → Prop) (refused writes : Prop) (Done : α → Lists → Prop) : Prop where
  refusal : (∃ e, c.result = .error e ∧ Refusal e) ↔ refused
  sync : ∀ text, c.result = .error (.sync text) ↔
    ¬refused ∧ writes ∧ ∃ f, r.place.fault? fault = some f ∧ f.message = text
  done : (∃ a, c.result = .ok a ∧ Done a c.registry.lists) ↔
    ¬refused ∧ (writes → r.place.fault? fault = none)
  kept : ∀ e, c.result = .error e → c.registry = r
  unwritten : refused → c.drafts = []

section

variable {α : Type} {r : Registry} {fault : Option WriteFault} {Refusal : Error → Prop}
  {refused writes : Prop} {Done : α → Lists → Prop}

theorem due_refuse {e : Error} (apart : ∀ text, ¬Refusal (.sync text)) (refusal : Refusal e) (due : refused) :
    (r.refuse e : Change α).Due r fault Refusal refused writes Done where
  refusal := iff_of_true ⟨e, rfl, refusal⟩ due
  sync text := iff_of_false (fun failed => apart text (Except.error.inj failed ▸ refusal)) fun h => h.1 due
  done := iff_of_false (by rintro ⟨a, ok, _⟩; cases ok) fun h => h.1 due
  kept _ _ := rfl
  unwritten _ := rfl

theorem due_commit {next : Lists} {now : Instant} {attempt : Audit.Event} {value : α}
    {events : List Audit.Event} (apart : ∀ text, ¬Refusal (.sync text)) (free : ¬refused) (needed : writes)
    (done : Done value next) :
    (r.commit next now fault attempt value events).Due r fault Refusal refused writes Done := by
  simp only [Registry.commit, Place.write_eq]
  cases fails : r.place.fault? fault with
  | some f =>
    exact {
      refusal := iff_of_false (by rintro ⟨e, failed, refusal⟩; cases failed; exact apart _ refusal) free
      sync := fun text => by simp [free, needed, fails]
      done := iff_of_false (by rintro ⟨a, ok, _⟩; cases ok) fun h => by
        rw [h.2 needed] at fails
        cases fails
      kept := fun _ _ => rfl
      unwritten := fun due => absurd due free }
  | none =>
    exact {
      refusal := iff_of_false (by rintro ⟨e, failed, _⟩; cases failed) free
      sync := fun text => by simp [fails]
      done := iff_of_true ⟨value, rfl, done⟩ ⟨free, fun _ => fails⟩
      kept := fun e failed => by cases failed
      unwritten := fun due => absurd due free }

theorem due_idle {value : α} (free : ¬refused) (idle : ¬writes) (done : Done value r.lists) :
    ({ result := .ok value, registry := r } : Change α).Due r fault Refusal refused writes Done where
  refusal := iff_of_false (by rintro ⟨e, failed, _⟩; cases failed) free
  sync text := iff_of_false nofun fun h => idle h.2.1
  done := iff_of_true ⟨value, rfl, done⟩ ⟨free, fun needed => absurd needed idle⟩
  kept e failed := by cases failed
  unwritten _ := rfl

end

/-! ### The changes -/

variable {r : Registry} {kind : ListKind} {pattern description addedBy actor : String}
  {expiresAt : Option Instant} {now : Instant} {fault : Option WriteFault}

/-- An entry that may not be added: its trimmed pattern is no address and no range, its end has come, or its list
has an entry of that pattern. -/
def Unfit (r : Registry) (kind : ListKind) (pattern : String) (expiresAt : Option Instant) (now : Instant) : Prop :=
  Network.ofPattern? (trim pattern) = none ∨ (∃ t, expiresAt = some t ∧ t ≤ now) ∨
    ∃ e ∈ r.lists.get kind, e.pattern = trim pattern

/-- The other lists are as they were. -/
def OthersKept (r : Registry) (kind : ListKind) (next : Lists) : Prop :=
  ∀ other, other ≠ kind → next.get other = r.lists.get other

/-- The new entry stands at the end of its list. -/
def Appended (r : Registry) (kind : ListKind) (pattern description addedBy : String) (expiresAt : Option Instant)
    (now : Instant) (e : Entry) (next : Lists) : Prop :=
  (∃ network, Network.ofPattern? (trim pattern) = some network ∧
    e = { pattern := trim pattern, description, addedBy, addedAt := now, expiresAt, network }) ∧
  next.get kind = r.lists.get kind ++ [e] ∧ OthersKept r kind next

/-- The only entry of the pattern has been taken out of its list. -/
def TakenOut (r : Registry) (kind : ListKind) (pattern : String) (e : Entry) (next : Lists) : Prop :=
  e.pattern = trim pattern ∧
  (∃ front back, r.lists.get kind = front ++ e :: back ∧ next.get kind = front ++ back ∧
    ∀ other ∈ front ++ back, other.pattern ≠ trim pattern) ∧
  OthersKept r kind next

/-- What has expired has been taken out of both lists, and counted. -/
def SweptOut (r : Registry) (now : Instant) (n : Nat) (next : Lists) : Prop :=
  n = (r.expiredIn .allow now).length + (r.expiredIn .deny now).length ∧
  ∀ kind, next.get kind = (r.lists.get kind).filter fun e => !e.expired now

theorem due_add : (r.add kind pattern description addedBy expiresAt now fault).Due r fault
    (fun e => ∃ text, e = .validation text) (Unfit r kind pattern expiresAt now) True
    (Appended r kind pattern description addedBy expiresAt now) := by
  have apart : ∀ text, ¬∃ invalid, Error.sync text = .validation invalid := by
    rintro text ⟨invalid, same⟩
    cases same
  simp only [Registry.add]
  cases denoted : Network.ofPattern? pattern with
  | none =>
    have fails : ∃ text, Entry.make pattern description addedBy now expiresAt = .error (.validation text) :=
      ⟨_, by rw [Entry.make, networkOf, denoted]; rfl⟩
    obtain ⟨text, fails⟩ := fails
    rw [fails]
    exact due_refuse apart ⟨text, rfl⟩ (.inl (by rw [ofPattern?_trim, denoted]))
  | some network =>
    rw [Entry.make_eq_ok_iff.2 ⟨network, denoted, rfl⟩]
    dsimp only
    split
    · next ended =>
      refine due_refuse apart ⟨_, rfl⟩ (.inr (.inl ?_))
      simpa [Entry.expired, Option.any_eq_true] using ended
    · next live =>
      split
      · next known =>
        refine due_refuse apart ⟨_, rfl⟩ (.inr (.inr ?_))
        simpa [Registry.has] using known
      · next fresh =>
        refine due_commit apart ?_ trivial
          ⟨⟨network, by rw [ofPattern?_trim, denoted], rfl⟩, Lists.get_set_self .., fun other distinct =>
            Lists.get_set_of_ne distinct ..⟩
        rintro (nothing | ended | known)
        · rw [ofPattern?_trim, denoted] at nothing
          cases nothing
        · exact live (by simpa [Entry.expired, Option.any_eq_true] using ended)
        · exact fresh (by simpa [Registry.has] using known)

theorem due_remove (sound : r.lists.Sound) : (r.remove kind pattern actor now fault).Due r fault
    (· = .notFound (trim pattern) kind) (∀ e ∈ r.lists.get kind, e.pattern ≠ trim pattern) True
    (TakenOut r kind pattern) := by
  have apart : ∀ text, Error.sync text ≠ .notFound (trim pattern) kind := by
    intro text same
    cases same
  simp only [Registry.remove]
  cases found : (r.lists.get kind).find? fun e => e.pattern == trim pattern with
  | none =>
    refine due_refuse apart rfl ?_
    simpa using List.find?_eq_none.1 found
  | some e =>
    obtain ⟨own, front, back, parts, before⟩ := List.find?_eq_some_iff_append.1 found
    have same : e.pattern = trim pattern := by simpa using own
    have first : Registry.without (trim pattern) (r.lists.get kind) = front ++ back := by
      rw [Registry.without, parts, List.eraseP_append_right _ (by simpa using before)]
      simp [same]
    have distinct : ∀ other ∈ front ++ back, other.pattern ≠ trim pattern := by
      have apart := (sound kind).distinct
      rw [parts, List.map_append, List.map_cons, List.nodup_middle, List.nodup_cons, ← List.map_append,
        same] at apart
      exact fun other listed known => apart.1 (known ▸ List.mem_map_of_mem listed)
    refine due_commit apart (fun nothing => nothing e (List.mem_of_find?_eq_some found) same) trivial
      ⟨same, ⟨front, back, parts, ?_, distinct⟩, fun other distinct => Lists.get_set_of_ne distinct ..⟩
    rw [Lists.get_set_self, first]

theorem expiredIn_eq_nil_iff {r : Registry} {kind : ListKind} {now : Instant} :
    r.expiredIn kind now = [] ↔ ∀ e ∈ r.lists.get kind, e.expired now = false := by
  simp [Registry.expiredIn, List.filter_eq_nil_iff]

theorem none_expired_iff {r : Registry} {now : Instant} :
    (r.expiredIn .allow now).length + (r.expiredIn .deny now).length = 0 ↔
      ∀ kind, ∀ e ∈ r.lists.get kind, e.expired now = false := by
  rw [Nat.add_eq_zero_iff, List.length_eq_zero_iff, List.length_eq_zero_iff, expiredIn_eq_nil_iff,
    expiredIn_eq_nil_iff]
  constructor
  · rintro ⟨allow, deny⟩ (_ | _)
    · exact allow
    · exact deny
  · exact fun live => ⟨live .allow, live .deny⟩

theorem due_cleanup : (r.cleanup now fault).Due r fault (fun _ => False) False
    (∃ kind, ∃ e ∈ r.lists.get kind, e.expired now = true) (SweptOut r now) := by
  simp only [Registry.cleanup]
  split
  · next none =>
    have live := none_expired_iff.1 none
    refine due_idle id ?_ ⟨none.symm, fun kind => ?_⟩
    · rintro ⟨kind, e, listed, ended⟩
      rw [live kind e listed] at ended
      cases ended
    · exact (List.filter_eq_self.2 fun e listed => by rw [live kind e listed]; rfl).symm
  · next some =>
    refine due_commit (fun _ => id) id ?_ ⟨rfl, fun kind => get_swept kind now r⟩
    rw [none_expired_iff] at some
    simpa using some

/-! ### All changes -/

/-- A failed step has left nothing behind that a later one could meet. -/
theorem after_failed {s : Step} {e : Error} (failed : (s.carryOut r).result = .error e) (later : List Step) :
    r.after (later ++ [s]) = r.after later := by
  induction later with
  | nil => exact registry_of_failed failed
  | cons t later ih => rw [List.cons_append, Registry.after, ih, Registry.after]

/-- Errors are given exactly where they are due and change nothing. An addition is refused as invalid if its trimmed
pattern is no address and no range, its end has come, or the pattern is in the list; a removal is refused if the
pattern is not in the list; a clean-up is never refused, and writes only if something has expired. What is not
refused fails exactly if its write does, and otherwise does what it is for. After a step that failed, every later run
comes out as it does without that step. -/
theorem errors_exactly_when_due {r : Registry} (reached : Reached r) (now : Instant) (fault : Option WriteFault) :
    (∀ kind pattern description addedBy expiresAt,
      (r.add kind pattern description addedBy expiresAt now fault).Due r fault
        (fun e => ∃ text, e = .validation text) (Unfit r kind pattern expiresAt now) True
        (Appended r kind pattern description addedBy expiresAt now)) ∧
    (∀ kind pattern actor,
      (r.remove kind pattern actor now fault).Due r fault (fun e => e = .notFound (trim pattern) kind)
        (∀ e ∈ r.lists.get kind, e.pattern ≠ trim pattern) True (TakenOut r kind pattern)) ∧
    (r.cleanup now fault).Due r fault (fun _ => False) False
      (∃ kind, ∃ e ∈ r.lists.get kind, e.expired now = true) (SweptOut r now) ∧
    ∀ s e later, (s.carryOut r).result = .error e → r.after (later ++ [s]) = r.after later :=
  ⟨fun _ _ _ _ _ => due_add, fun _ _ _ => due_remove reached.sound, due_cleanup,
    fun _ _ later failed => after_failed failed later⟩

/-- A range is let in for an hour. -/
def officeHour : Step := ⟨.add .allow "10.0.0.0/8" "office" "ops" (some (atSecond 3600)), atSecond 0, none⟩

/-- The registry after that, where a directory has come to stand at the place of its file. -/
def blocked : Registry :=
  { (officeHour.carryOut { middleware := "web", place := .missing }).registry with place := .directory }

/-- At the end of the hour a range is refused that is still in the list, and the clean-up fails. -/
theorem errors_exactly_when_due_blocked :
    Reached blocked ∧
      (∃ text, (blocked.add .allow " 10.0.0.0/8" "" "ops" none (atSecond 3600) none).result =
        .error (.validation text)) ∧
      (blocked.remove .deny "10.0.0.0/8" "ops" (atSecond 3600) none).result =
        .error (.notFound "10.0.0.0/8" .deny) ∧
      (blocked.cleanup (atSecond 3600) none).result = .error (.sync "failed to replace") := by
  have reached : Reached blocked :=
    .disturbed _ (.step officeHour (.opened (Registry.open?_missing "web" (atSecond 0))))
  obtain ⟨added, removed, swept, _⟩ := errors_exactly_when_due reached (atSecond 3600) none
  have listed : ∃ e ∈ blocked.lists.get .allow, e.pattern = trim " 10.0.0.0/8" := by decide +kernel
  have unlisted : ∀ e ∈ blocked.lists.get .deny, e.pattern ≠ trim "10.0.0.0/8" := by decide +kernel
  have expired : ∃ e ∈ blocked.lists.get .allow, e.expired (atSecond 3600) = true := by decide +kernel
  obtain ⟨_, refused, text, rfl⟩ := (added .allow " 10.0.0.0/8" "" "ops" none).refusal.2 (.inr (.inr listed))
  obtain ⟨_, missing, rfl⟩ := (removed .deny "10.0.0.0/8" "ops").refusal.2 unlisted
  exact ⟨reached, ⟨text, refused⟩, missing, (swept.sync "failed to replace").2
    ⟨id, ⟨.allow, expired⟩, _, rfl, rfl⟩⟩

end HostControl.Access
