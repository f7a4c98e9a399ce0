/-
Module: HostControl.Proofs.Access.History
Purpose: What the registry decides, told from the calls alone. A pattern is in force when a call has added
  it, no later call has removed it, and its end is still to come; an address is let in exactly if an allowed
  pattern in force holds it and no denied one does. Sweeps of what has expired leave every answer as it is.
Main exports: Exchange, Registry.history, InForce, inForce_cons, Matched, mem_livePatterns_after,
  allowsAddress_iff_matched, decisions_follow_history
-/
import HostControl.Proofs.Access.Governing

namespace HostControl.Access

open Text

/-! ### What a caller sees -/

/-- A call and what came back. -/
structure Exchange where
  call : Call
  result : Except Error Reply

namespace Exchange

/-- A pattern was added to a list, to stay until its end if it has one. -/
def Grants (kind : ListKind) (pattern : String) (expiresAt : Option Instant) (x : Exchange) : Prop :=
  (∃ given description addedBy, x.call = .add kind given description addedBy expiresAt ∧
    trim given = pattern) ∧ ∃ reply, x.result = .ok reply

/-- A pattern was taken out of a list. -/
def Revokes (kind : ListKind) (pattern : String) (x : Exchange) : Prop :=
  (∃ given actor, x.call = .remove kind given actor ∧ trim given = pattern) ∧
    ∃ reply, x.result = .ok reply

variable {kind other : ListKind} {pattern given description addedBy actor : String}
  {ends expiresAt : Option Instant} {result : Except Error Reply}

@[simp] theorem grants_add :
    Grants kind pattern expiresAt ⟨.add other given description addedBy ends, result⟩ ↔
    (other = kind ∧ trim given = pattern ∧ ends = expiresAt) ∧ ∃ reply, result = .ok reply := by
  constructor
  · rintro ⟨⟨_, _, _, call, trimmed⟩, done⟩
    cases call
    exact ⟨⟨rfl, trimmed, rfl⟩, done⟩
  · rintro ⟨⟨rfl, trimmed, rfl⟩, done⟩
    exact ⟨⟨given, description, addedBy, rfl, trimmed⟩, done⟩

@[simp] theorem not_grants_remove : ¬Grants kind pattern expiresAt ⟨.remove other given actor, result⟩ := by
  rintro ⟨⟨_, _, _, call, _⟩, _⟩
  cases call

@[simp] theorem not_grants_cleanup : ¬Grants kind pattern expiresAt ⟨.cleanup, result⟩ := by
  rintro ⟨⟨_, _, _, call, _⟩, _⟩
  cases call

@[simp] theorem not_revokes_add :
    ¬Revokes kind pattern ⟨.add other given description addedBy ends, result⟩ := by
  rintro ⟨⟨_, _, call, _⟩, _⟩
  cases call

@[simp] theorem revokes_remove : Revokes kind pattern ⟨.remove other given actor, result⟩ ↔
    (other = kind ∧ trim given = pattern) ∧ ∃ reply, result = .ok reply := by
  constructor
  · rintro ⟨⟨_, _, call, trimmed⟩, done⟩
    cases call
    exact ⟨⟨rfl, trimmed⟩, done⟩
  · rintro ⟨⟨rfl, trimmed⟩, done⟩
    exact ⟨⟨given, actor, rfl, trimmed⟩, done⟩

@[simp] theorem not_revokes_cleanup : ¬Revokes kind pattern ⟨.cleanup, result⟩ := by
  rintro ⟨⟨_, _, call, _⟩, _⟩
  cases call

end Exchange

/-- A step as its caller sees it. -/
def Step.exchange (s : Step) (r : Registry) : Exchange := ⟨s.call, (s.carryOut r).result⟩

/-- A run as its callers see it, the latest call first. -/
def Registry.history (r : Registry) : List Step → List Exchange
  | [] => []
  | s :: past => s.exchange (r.after past) :: r.history past

/-! ### What a history grants -/

/-- A pattern is in force at an instant: some call has added it, no later one has removed it from the same
list, and its end, if it has one, is still to come. -/
def InForce (kind : ListKind) (pattern : String) (t : Instant) (history : List Exchange) : Prop :=
  ∃ later grant earlier expiresAt, history = later ++ grant :: earlier ∧
    grant.Grants kind pattern expiresAt ∧ (∀ x ∈ later, ¬x.Revokes kind pattern) ∧
    ∀ u ∈ expiresAt, t < u

/-- A pattern in force holds an address, under the name that the address is known by. -/
def Matched (kind : ListKind) (a : Address) (t : Instant) (history : List Exchange) : Prop :=
  ∃ pattern network, InForce kind pattern t history ∧ Network.ofPattern? pattern = some network ∧
    network.Covers a.canonical

section

variable {kind : ListKind} {pattern : String} {t : Instant}

/-- The latest call either has added the pattern, or leaves it in force unless it removes it. -/
theorem inForce_cons {x : Exchange} {history : List Exchange} :
    InForce kind pattern t (x :: history) ↔
      (∃ expiresAt, x.Grants kind pattern expiresAt ∧ ∀ u ∈ expiresAt, t < u) ∨
        (InForce kind pattern t history ∧ ¬x.Revokes kind pattern) := by
  constructor
  · rintro ⟨later, grant, earlier, expiresAt, split, grants, kept, ends⟩
    cases later with
    | nil =>
        obtain ⟨rfl, rfl⟩ := List.cons.inj split
        exact .inl ⟨expiresAt, grants, ends⟩
    | cons y later =>
        obtain ⟨rfl, rfl⟩ := List.cons.inj split
        refine .inr ⟨⟨later, grant, earlier, expiresAt, rfl, grants, ?_, ends⟩, ?_⟩
        · intro y listed
          exact kept y (List.mem_cons_of_mem _ listed)
        · exact kept x List.mem_cons_self
  · rintro (⟨expiresAt, grants, ends⟩ |
      ⟨⟨later, grant, earlier, expiresAt, rfl, grants, kept, ends⟩, stays⟩)
    · exact ⟨[], x, history, expiresAt, rfl, grants, nofun, ends⟩
    · refine ⟨x :: later, grant, earlier, expiresAt, rfl, grants, ?_, ends⟩
      intro y listed
      rcases List.mem_cons.1 listed with rfl | before
      · exact stays
      · exact kept y before

/-- A call that has added or removed the pattern has not failed. -/
theorem Exchange.idle_of_failed {x : Exchange} {e : Error} (failed : x.result = .error e) :
    (∀ expiresAt, ¬x.Grants kind pattern expiresAt) ∧ ¬x.Revokes kind pattern := by
  constructor
  · rintro expiresAt ⟨_, reply, done⟩
    rw [failed] at done
    cases done
  · rintro ⟨_, reply, done⟩
    rw [failed] at done
    cases done

/-! ### The lists hold what the history grants -/

/-- A list without the entry of a pattern has no entry of that pattern left. -/
theorem mem_without_iff {es : List Entry} (distinct : (es.map (·.pattern)).Nodup) {e : Entry} :
    e ∈ Registry.without pattern es ↔ e ∈ es ∧ e.pattern ≠ pattern := by
  induction es with
  | nil => simp [Registry.without]
  | cons first rest ih =>
      obtain ⟨new, apart⟩ := List.nodup_cons.1 distinct
      by_cases own : first.pattern = pattern
      · have taken : Registry.without pattern (first :: rest) = rest :=
          List.eraseP_cons_of_pos (by simpa using own)
        rw [taken, List.mem_cons]
        constructor
        · intro member
          refine ⟨.inr member, ?_⟩
          intro same
          exact new (List.mem_map.2 ⟨e, member, same.trans own.symm⟩)
        · rintro ⟨rfl | member, other⟩
          · exact absurd own other
          · exact member
      · have kept : Registry.without pattern (first :: rest) = first :: Registry.without pattern rest :=
          List.eraseP_cons_of_neg (by simpa using own)
        rw [kept, List.mem_cons, List.mem_cons, ih apart]
        constructor
        · rintro (rfl | ⟨member, other⟩)
          · exact ⟨.inl rfl, own⟩
          · exact ⟨.inr member, other⟩
        · rintro ⟨rfl | member, other⟩
          · exact .inl rfl
          · exact .inr ⟨member, other⟩

theorem Lists.mem_livePatterns {l : Lists} :
    pattern ∈ l.livePatterns kind t ↔
      ∃ e ∈ l.get kind, e.pattern = pattern ∧ ∀ u ∈ e.expiresAt, t < u := by
  simp only [livePatterns, List.mem_map, List.mem_filter, Bool.not_eq_true',
    Entry.expired_eq_false_iff]
  constructor
  · rintro ⟨e, ⟨member, live⟩, rfl⟩
    exact ⟨e, member, rfl, live⟩
  · rintro ⟨e, member, rfl, live⟩
    exact ⟨e, ⟨member, live⟩, rfl⟩

/-- What one step does to the patterns in force at a later instant is what its caller sees. -/
theorem mem_livePatterns_carryOut {r : Registry} (sound : r.lists.Sound) {s : Step} (later : s.now ≤ t) :
    pattern ∈ (s.carryOut r).registry.lists.livePatterns kind t ↔
      (∃ expiresAt, (s.exchange r).Grants kind pattern expiresAt ∧ ∀ u ∈ expiresAt, t < u) ∨
        (pattern ∈ r.lists.livePatterns kind t ∧ ¬(s.exchange r).Revokes kind pattern) := by
  rcases carryOut_ends s r with
    ⟨⟨e, failed⟩, _, same⟩ | ⟨call, _, _, _, _, same⟩ | ⟨reply, next, planned, done, _, put⟩
  · have idle := @Exchange.idle_of_failed kind pattern (s.exchange r) e failed
    simp [same, idle.1, idle.2]
  · simp [same, Step.exchange, call]
  · rw [put, Step.exchange, done]
    cases planned with
    | @add other given description addedBy ends now fault e made live fresh =>
        obtain ⟨network, _, rfl⟩ := Entry.make_eq_ok_iff.1 made
        simp only [Exchange.grants_add, Exchange.not_revokes_add, Except.ok.injEq, exists_eq',
          not_false_eq_true, and_true, Lists.mem_livePatterns]
        by_cases own : other = kind
        · subst own
          rw [Lists.get_set_self]
          constructor
          · rintro ⟨e, member, named, lasts⟩
            rcases List.mem_append.1 member with before | new
            · exact .inr ⟨e, before, named, lasts⟩
            · cases List.mem_singleton.1 new
              exact .inl ⟨ends, ⟨rfl, named, rfl⟩, lasts⟩
          · rintro (⟨_, ⟨_, named, rfl⟩, lasts⟩ | ⟨e, before, named, lasts⟩)
            · exact ⟨_, List.mem_append_right _ (List.mem_singleton_self _), named, lasts⟩
            · exact ⟨e, List.mem_append_left _ before, named, lasts⟩
        · simp [Lists.get_set_of_ne (Ne.symm own), own]
    | @remove other given actor now fault e found =>
        simp only [Exchange.not_grants_remove, Exchange.revokes_remove, Except.ok.injEq, exists_eq',
          and_true, false_and, exists_false, false_or, Lists.mem_livePatterns]
        by_cases own : other = kind
        · subst own
          simp only [Lists.get_set_self, mem_without_iff (sound other).distinct, true_and]
          constructor
          · rintro ⟨e, ⟨member, others⟩, rfl, lasts⟩
            exact ⟨⟨e, member, rfl, lasts⟩, Ne.symm others⟩
          · rintro ⟨⟨e, member, rfl, lasts⟩, others⟩
            exact ⟨e, ⟨member, Ne.symm others⟩, rfl, lasts⟩
        · simp [Lists.get_set_of_ne (Ne.symm own), own]
    | cleanup some =>
        simp only [Exchange.not_grants_cleanup, Exchange.not_revokes_cleanup, false_and, exists_false,
          false_or, not_false_eq_true, and_true, Lists.mem_livePatterns, get_swept]
        constructor
        · rintro ⟨e, kept, named, lasts⟩
          exact ⟨e, (List.mem_filter.1 kept).1, named, lasts⟩
        · rintro ⟨e, member, named, lasts⟩
          -- What is in force later had not expired when the lists were swept.
          have live := Entry.live_of_live_later later (Entry.expired_eq_false_iff.2 lasts)
          exact ⟨e, List.mem_filter.2 ⟨member, by simp [live]⟩, named, lasts⟩

/-- After a run, the lists hold in force what the history grants. -/
theorem mem_livePatterns_after {r : Registry} (empty : r.lists = {}) {start : Instant}
    {past : List Step} (timely : Timely start past) (later : clock start past ≤ t) :
    pattern ∈ (r.after past).lists.livePatterns kind t ↔ InForce kind pattern t (r.history past) := by
  have sound : r.lists.Sound := empty ▸ Lists.sound_empty
  induction past with
  | nil =>
      rw [Registry.after, Lists.mem_livePatterns, empty]
      constructor
      · rintro ⟨e, member, _⟩
        cases kind <;> cases member
      · rintro ⟨before, _, _, _, split, _⟩
        cases before <;> cases split
  | cons s past ih =>
      have before : pattern ∈ (r.after past).lists.livePatterns kind t ↔
          InForce kind pattern t (r.history past) := ih timely.1 (Instant.le_trans timely.2 later)
      rw [Registry.history, inForce_cons, ← before]
      exact mem_livePatterns_carryOut (sound_after sound past) later

/-- After a run, an address is let in exactly if the history lets it in. -/
theorem allowsAddress_iff_matched {r : Registry} (empty : r.lists = {}) {start : Instant}
    {past : List Step} (timely : Timely start past) (later : clock start past ≤ t) (a : Address) :
    (r.after past).allowsAddress a t = true ↔
      Matched .allow a t (r.history past) ∧ ¬Matched .deny a t (r.history past) := by
  have sound : (r.after past).lists.Sound := sound_after (empty ▸ Lists.sound_empty) past
  have same : ∀ kind, LiesIn ((r.after past).lists.livePatterns kind t) a.canonical ↔
      Matched kind a t (r.history past) := by
    intro kind
    unfold LiesIn Matched
    constructor
    · rintro ⟨pattern, listed, network, denoted, covered⟩
      exact ⟨pattern, network, (mem_livePatterns_after empty timely later).1 listed, denoted, covered⟩
    · rintro ⟨pattern, network, inForce, denoted, covered⟩
      exact ⟨pattern, (mem_livePatterns_after empty timely later).2 inForce, network, denoted, covered⟩
  rw [Registry.allowsAddress, Lists.allows_iff sound, same, same]

/-- Sweeps leave what the history grants as it is. -/
theorem matched_sweeps {r : Registry} {past sweeps : List Step}
    (cleanups : ∀ s ∈ sweeps, s.call = .cleanup) (a : Address) :
    Matched kind a t (r.history (sweeps ++ past)) ↔ Matched kind a t (r.history past) := by
  induction sweeps with
  | nil => rfl
  | cons s sweeps ih =>
      rw [← ih fun s listed => cleanups s (List.mem_cons_of_mem _ listed)]
      have call : s.call = .cleanup := cleanups s List.mem_cons_self
      have idle : ∀ pattern, InForce kind pattern t (r.history (s :: sweeps ++ past)) ↔
          InForce kind pattern t (r.history (sweeps ++ past)) := by
        intro pattern
        rw [List.cons_append, Registry.history, inForce_cons, Step.exchange, call]
        simp
      simp only [Matched, idle]

end

/-! ### Every run -/

/-- Decisions follow the history. Whatever calls have been made on a registry that began with nothing in its
lists, and however their writes have gone, from then on an address is let in exactly if an allowed pattern
in force holds it and no denied one does, and a text is let in exactly if it names such an address. Sweeps
that are made after these calls, whatever comes back from them, change no answer from then on. -/
theorem decisions_follow_history {r : Registry} (empty : r.lists = {}) {start : Instant}
    {past : List Step} (timely : Timely start past) {t : Instant} (later : clock start past ≤ t) :
    (∀ a, (r.after past).allowsAddress a t = true ↔
      Matched .allow a t (r.history past) ∧ ¬Matched .deny a t (r.history past)) ∧
    (∀ text, (r.after past).allows text t = true ↔
      ∃ a, Address.read? (trim text) = some a ∧
        Matched .allow a t (r.history past) ∧ ¬Matched .deny a t (r.history past)) ∧
    ∀ sweeps, (∀ s ∈ sweeps, s.call = .cleanup) → Timely start (sweeps ++ past) →
      clock start (sweeps ++ past) ≤ t →
        ∀ a, (r.after (sweeps ++ past)).allowsAddress a t = (r.after past).allowsAddress a t := by
  have decides := allowsAddress_iff_matched empty timely later
  refine ⟨decides, ?_, ?_⟩
  · intro text
    unfold Registry.allows
    cases Address.read? (trim text) with
    | none => simp
    | some a => simp [decides a]
  · intro sweeps cleanups onTime reached a
    rw [Bool.eq_iff_iff, decides a, allowsAddress_iff_matched empty onTime reached a,
      matched_sweeps cleanups, matched_sweeps cleanups]

/-- An office is let in for an hour, and one of its hosts is kept out. To lift the ban takes two attempts,
since the first one cannot write the file. -/
def liftedBan : List Step :=
  [⟨.remove .deny " 10.0.0.9" "ops", atSecond 180, none⟩,
    ⟨.remove .deny "10.0.0.9" "ops", atSecond 120, some { step := .replace }⟩,
    ⟨.add .deny "10.0.0.9" "scanner" "ops" none, atSecond 60, none⟩,
    ⟨.add .allow "10.0.0.0/8" "office" "ops" (some (atSecond 3600)), atSecond 0, none⟩]

/-- The host is let in again for what is left of the hour, and a sweep at its end makes no difference. -/
theorem decisions_follow_history_liftedBan :
    Timely (atSecond 0) liftedBan ∧
      Matched .allow (.v4 0x0a000009#32) (atSecond 3599)
        (Registry.history { middleware := "web", place := .missing } liftedBan) ∧
      ¬Matched .deny (.v4 0x0a000009#32) (atSecond 3599)
        (Registry.history { middleware := "web", place := .missing } liftedBan) ∧
      (Registry.after { middleware := "web", place := .missing }
        (⟨.cleanup, atSecond 3600, none⟩ :: liftedBan)).allowsAddress (.v4 0x0a000009#32)
          (atSecond 3600) = false := by
  have timely : Timely (atSecond 0) liftedBan :=
    ⟨⟨⟨⟨trivial, by decide⟩, by decide⟩, by decide⟩, by decide⟩
  obtain ⟨decides, _, _⟩ := decisions_follow_history
    (rfl : Registry.lists { middleware := "web", place := .missing } = {}) timely
    (by decide : clock (atSecond 0) liftedBan ≤ atSecond 3599)
  obtain ⟨_, _, swept⟩ := decisions_follow_history
    (rfl : Registry.lists { middleware := "web", place := .missing } = {}) timely
    (by decide : clock (atSecond 0) liftedBan ≤ atSecond 3600)
  obtain ⟨admitted, free⟩ := (decides (.v4 0x0a000009#32)).1 (by decide +kernel)
  have unchanged := swept [⟨.cleanup, atSecond 3600, none⟩] (by simp) ⟨timely, by decide⟩ (by decide)
    (.v4 0x0a000009#32)
  refine ⟨timely, admitted, free, unchanged.trans ?_⟩
  decide +kernel

end HostControl.Access
