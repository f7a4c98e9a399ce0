/-
Module: HostControl.Proofs.Access.Governing
Purpose: How long, and for which addresses, an entry that was added decides. A deny entry refuses every
  address of its range and an allow entry lets it in where no deny entry speaks against it, until the
  entry expires or is removed. The exception are IPv4-mapped addresses: they are asked for as IPv4
  addresses, so that a range of IPv6 form which holds them never decides on them.
Main exports: LiesIn, Lists.livePatterns, Lists.allows_iff, Lists.leaveOut, Removes, Kept,
  mem_carryOut, mem_after_of_kept
-/
import HostControl.Proofs.Access.Opening

namespace HostControl.Access

open Text

/-! ### Which addresses are let in -/

/-- An address lies in one of the ranges that some patterns denote. -/
def LiesIn (patterns : List String) (a : Address) : Prop :=
  ∃ p ∈ patterns, ∃ n, Network.ofPattern? p = some n ∧ n.Covers a

namespace Lists

/-- The patterns of a list that are in force, in order. -/
def livePatterns (kind : ListKind) (t : Instant) (l : Lists) : List String :=
  ((l.get kind).filter fun e => !e.expired t).map (·.pattern)

theorem livePatterns_allow (t : Instant) (l : Lists) : l.livePatterns .allow t = l.liveRanges t := rfl

/-- Some entry of a sound list governs an address exactly if the address lies, under the name that it is
known by, in a range in force. -/
theorem any_governs_iff {l : Lists} (sound : l.Sound) (kind : ListKind) (t : Instant) (a : Address) :
    (l.get kind).any (Entry.governs t a) = true ↔ LiesIn (l.livePatterns kind t) a.canonical := by
  rw [List.any_eq_true]
  constructor
  · rintro ⟨e, member, governs⟩
    obtain ⟨live, covered⟩ := Entry.governs_iff.1 governs
    refine ⟨e.pattern, ?_, e.network, ((sound kind).each e member).denotes, covered⟩
    exact List.mem_map_of_mem (List.mem_filter.2 ⟨member, by simp [live]⟩)
  · rintro ⟨_, listed, n, denoted, covered⟩
    obtain ⟨e, kept, rfl⟩ := List.mem_map.1 listed
    obtain ⟨member, live⟩ := List.mem_filter.1 kept
    rw [((sound kind).each e member).denotes, Option.some.injEq] at denoted
    exact ⟨e, member, Entry.governs_iff.2 ⟨by simpa using live, denoted ▸ covered⟩⟩

/-- An address is let in exactly if it lies in an allowed range in force and in no denied one. -/
theorem allows_iff {l : Lists} (sound : l.Sound) (t : Instant) (a : Address) :
    l.allows t a = true ↔
      LiesIn (l.livePatterns .allow t) a.canonical ∧ ¬LiesIn (l.livePatterns .deny t) a.canonical := by
  rw [← any_governs_iff sound, ← any_governs_iff sound, allows, Bool.and_eq_true,
    Bool.not_eq_true', Bool.not_eq_true, and_comm]
  rfl

/-- The lists without one entry. -/
def leaveOut (kind : ListKind) (e : Entry) (l : Lists) : Lists :=
  l.set kind ((l.get kind).filter (· ≠ e))

/-- An entry that does not govern an address has no part in the answer for it. -/
theorem allows_leaveOut {kind : ListKind} {e : Entry} {l : Lists} {t : Instant} {a : Address}
    (silent : e.governs t a = false) : (l.leaveOut kind e).allows t a = l.allows t a := by
  have same : ∀ es : List Entry,
      (es.filter (· ≠ e)).any (Entry.governs t a) = es.any (Entry.governs t a) := by
    intro es
    rw [Bool.eq_iff_iff, List.any_eq_true, List.any_eq_true]
    constructor
    · rintro ⟨x, kept, governs⟩
      exact ⟨x, (List.mem_filter.1 kept).1, governs⟩
    · rintro ⟨x, member, governs⟩
      refine ⟨x, List.mem_filter.2 ⟨member, ?_⟩, governs⟩
      rw [decide_eq_true_eq]
      rintro rfl
      rw [silent] at governs
      cases governs
  cases kind
  · simp only [leaveOut, allows, set, get, same]
  · simp only [leaveOut, allows, set, get, same]

end Lists

/-! ### How long an entry stays -/

/-- A step takes the entry of a pattern out of a list. -/
def Removes (kind : ListKind) (pattern : String) (s : Step) (r : Registry) : Prop :=
  (∃ given actor, s.call = .remove kind given actor ∧ trim given = pattern) ∧
    ∃ reply, (s.carryOut r).result = .ok reply

/-- No step of a run takes the entry of a pattern out of a list. -/
def Kept (kind : ListKind) (pattern : String) (r : Registry) : List Step → Prop
  | [] => True
  | s :: later => Kept kind pattern r later ∧ ¬Removes kind pattern s (r.after later)

/-- An entry stays in its list unless a step removes it or sweeps it as expired. -/
theorem mem_carryOut {kind : ListKind} {e : Entry} {r : Registry} {s : Step}
    (member : e ∈ r.lists.get kind) (live : e.expired s.now = false)
    (kept : ¬Removes kind e.pattern s r) : e ∈ (s.carryOut r).registry.lists.get kind := by
  rcases carryOut_ends s r with
    ⟨_, _, same⟩ | ⟨_, _, _, _, _, same⟩ | ⟨reply, next, planned, done, _, put⟩
  · rwa [same]
  · rwa [same]
  · rw [put]
    cases planned with
    | @add other =>
        by_cases same : kind = other
        · subst same
          rw [Lists.get_set_self]
          exact List.mem_append_left _ member
        · rwa [Lists.get_set_of_ne same]
    | @remove other given actor =>
        by_cases same : kind = other
        · subst same
          -- The entry that is taken out is the one of the pattern that was given.
          have apart : e.pattern ≠ trim given := by
            intro equal
            exact kept ⟨⟨given, actor, rfl, equal.symm⟩, _, done⟩
          rw [Lists.get_set_self]
          exact (List.mem_eraseP_of_neg (by simpa using apart)).2 member
        · rwa [Lists.get_set_of_ne same]
    | cleanup =>
        rw [get_swept]
        exact List.mem_filter.2 ⟨member, by simp [live]⟩

/-- An entry is in its list after any run that does not remove it and ends before it expires. -/
theorem mem_after_of_kept {kind : ListKind} {e : Entry} {r : Registry}
    (member : e ∈ r.lists.get kind) {later : List Step}
    (live : ∀ s ∈ later, e.expired s.now = false) (kept : Kept kind e.pattern r later) :
    e ∈ (r.after later).lists.get kind := by
  induction later with
  | nil => exact member
  | cons s later ih =>
      have before := ih (fun s listed => live s (List.mem_cons_of_mem _ listed)) kept.1
      exact mem_carryOut before (live s List.mem_cons_self) kept.2

/-- A step that adds puts an entry for its pattern at the end of its list. -/
theorem added_entry {kind : ListKind} {pattern description addedBy : String}
    {expiresAt : Option Instant} {now : Instant} {fault : Option WriteFault} {r : Registry}
    {reply : Reply}
    (added : ((⟨.add kind pattern description addedBy expiresAt, now, fault⟩ : Step).carryOut r).result =
      .ok reply) :
    ∃ e, reply = .entry e ∧ Entry.make pattern description addedBy now expiresAt = .ok e ∧
      ((⟨.add kind pattern description addedBy expiresAt, now, fault⟩ : Step).carryOut
        r).registry.lists = r.lists.set kind (r.lists.get kind ++ [e]) := by
  rcases carryOut_done added with ⟨call, _⟩ | ⟨next, planned, put⟩
  · cases call
  · rw [put]
    cases planned with
    | @add _ _ _ _ _ _ _ e made => exact ⟨e, rfl, made, rfl⟩

/-! ### What an entry decides -/

/-- A pattern that is added governs every address of its range that is known by itself. From then on, and
until the entry expires or is removed, an entry of the deny list keeps these addresses out, and one of the
allow list lets them in where no denied range in force holds them. For the IPv4-mapped addresses of its
range the entry decides nothing, and from its expiry on it decides nothing at all. -/
theorem added_pattern_governs {middleware pattern description addedBy : String} {place : Place}
    {start t : Instant} {kind : ListKind} {expiresAt : Option Instant} {opened r : Registry}
    {past later : List Step} {add : Step} {reply : Reply}
    (found : Registry.open? middleware place start = .ok opened)
    (call : add.call = .add kind pattern description addedBy expiresAt)
    (added : (add.carryOut (opened.after past)).result = .ok reply)
    (state : (opened.after (add :: past)).after later = r) :
    ∃ e n, reply = .entry e ∧ Network.ofPattern? pattern = some n ∧
      (∀ a, n.Covers a → ¬a.IsMapped →
        Kept kind (trim pattern) (opened.after (add :: past)) later →
        (∀ x ∈ expiresAt, t < x ∧ ∀ s ∈ later, s.now < x) →
          (kind = .deny → r.allowsAddress a t = false) ∧
          (kind = .allow → ¬LiesIn (r.lists.livePatterns .deny t) a → r.allowsAddress a t = true)) ∧
      (∀ a, n.Covers a → a.IsMapped → (r.lists.leaveOut kind e).allows t a = r.lists.allows t a) ∧
      ((∃ x ∈ expiresAt, x ≤ t) → ∀ a, (r.lists.leaveOut kind e).allows t a = r.lists.allows t a) := by
  obtain ⟨_, now, fault⟩ := add
  cases call
  obtain ⟨e, rfl, made, put⟩ := added_entry added
  obtain ⟨n, denoted, rfl⟩ := Entry.make_eq_ok_iff.1 made
  have sound : r.lists.Sound := by
    rw [← state]
    exact sound_after (sound_after (Registry.sound_of_open? found) _) later
  refine ⟨_, n, rfl, denoted, ?_, ?_, ?_⟩
  · -- The address is asked for as itself, so all that is left is that the entry is still in its list.
    intro a covered own kept before
    have known : a.canonical = a := Address.canonical_of_not_isMapped own
    have present : Entry.expired t ⟨trim pattern, description, addedBy, now, expiresAt, n⟩ = false :=
      Entry.expired_eq_false_iff.2 fun x ends => (before x ends).1
    have member : (⟨trim pattern, description, addedBy, now, expiresAt, n⟩ : Entry) ∈
        r.lists.get kind := by
      rw [← state]
      have first : (⟨trim pattern, description, addedBy, now, expiresAt, n⟩ : Entry) ∈
          (opened.after (⟨.add kind pattern description addedBy expiresAt, now, fault⟩ ::
            past)).lists.get kind := by
        rw [Registry.after, put, Lists.get_set_self]
        exact List.mem_append_right _ (List.mem_singleton_self _)
      refine mem_after_of_kept first ?_ kept
      intro s listed
      exact Entry.expired_eq_false_iff.2 fun x ends => (before x ends).2 s listed
    have lies : LiesIn (r.lists.livePatterns kind t) a.canonical := by
      rw [← Lists.any_governs_iff sound, List.any_eq_true]
      exact ⟨_, member, Entry.governs_iff.2 ⟨present, by rwa [known]⟩⟩
    constructor
    · rintro rfl
      rw [Registry.allowsAddress, ← Bool.not_eq_true, Lists.allows_iff sound]
      intro admitted
      exact admitted.2 lies
    · rintro rfl free
      rw [Registry.allowsAddress, Lists.allows_iff sound, known]
      rw [known] at lies
      exact ⟨lies, free⟩
  · -- The address is asked for in the other family, where the range holds nothing.
    intro a covered mapped
    apply Lists.allows_leaveOut
    rw [← Bool.not_eq_true, Entry.governs_iff]
    intro governs
    exact Address.not_covers_canonical mapped covered governs.2
  · rintro ⟨x, ends, past⟩ a
    apply Lists.allows_leaveOut
    rw [← Bool.not_eq_true, Entry.governs_iff]
    intro governs
    exact Instant.not_le.2 (Entry.expired_eq_false_iff.1 governs.1 x ends) past

/-- An office network is let in. -/
def admitOffice : Step :=
  ⟨.add .allow "10.0.0.0/8" "office" "ops" none, atSecond 0, none⟩

/-- One host of the office is kept out for an hour. -/
def banHost : Step :=
  ⟨.add .deny "10.0.0.9" "scanner" "ops" (some (atSecond 3600)), atSecond 60, none⟩

/-- The host is kept out until the hour is over, whether the lists are swept or not, and its neighbour is
let in. -/
theorem added_pattern_governs_host :
    ∃ r reply, (banHost.carryOut (Registry.after { middleware := "web", place := .missing }
        [admitOffice])).result = .ok reply ∧
      (Registry.after { middleware := "web", place := .missing } [banHost, admitOffice]).after
        [⟨.cleanup, atSecond 120, none⟩] = r ∧
      r.allowsAddress (.v4 0x0a000009#32) (atSecond 3599) = false ∧
      r.allowsAddress (.v4 0x0a000008#32) (atSecond 3599) = true := by
  have added : (banHost.carryOut (Registry.after { middleware := "web", place := .missing }
      [admitOffice])).result = .ok (.entry ⟨"10.0.0.9", "scanner", "ops", atSecond 60,
        some (atSecond 3600), .v4 0x0a000009#32 32 (by decide)⟩) := by decide +kernel
  refine ⟨_, _, added, rfl, ?_, by decide +kernel⟩
  obtain ⟨e, n, _, denoted, governs, _⟩ := added_pattern_governs
    (Registry.open?_missing "web" (atSecond 0)) (rfl : banHost.call = _) added rfl
  have host : n = .v4 0x0a000009#32 32 (by decide) := by
    have known : Network.ofPattern? "10.0.0.9" = some (.v4 0x0a000009#32 32 (by decide)) := by
      decide +kernel
    rw [known] at denoted
    exact (Option.some.inj denoted).symm
  subst host
  refine (governs (.v4 0x0a000009#32) (by decide) id ?_ ?_).1 rfl
  · refine ⟨trivial, ?_⟩
    rintro ⟨⟨_, _, removal, _⟩, _⟩
    cases removal
  · intro x ends
    cases ends
    refine ⟨by decide, ?_⟩
    intro s listed
    rw [List.mem_singleton.1 listed]
    decide

/-- One address is let in. -/
def admitAddress : Step :=
  ⟨.add .allow "203.0.113.5" "office" "ops" none, atSecond 0, none⟩

/-- The same address is to be kept out, written as an IPv4-mapped one. -/
def banMapped : Step :=
  ⟨.add .deny "::ffff:203.0.113.5" "scanner" "ops" none, atSecond 1, none⟩

/-- A range of IPv6 form that holds one IPv4-mapped address does not keep that address out, although it
lies in the range: it is asked for as the IPv4 address that it carries. -/
theorem mapped_deny_entry_has_no_effect :
    ∃ r n, Registry.open? "web" .missing (atSecond 0) = .ok r ∧
      (∃ reply, (banMapped.carryOut (r.after [admitAddress])).result = .ok reply) ∧
      Network.ofPattern? "::ffff:203.0.113.5" = some n ∧ n.Covers (.v6 0xffffcb007105#128) ∧
      (r.after [banMapped, admitAddress]).allowsAddress (.v6 0xffffcb007105#128)
        (atSecond 2) = true := by
  have added : (banMapped.carryOut (Registry.after { middleware := "web", place := .missing }
      [admitAddress])).result = .ok (.entry ⟨"::ffff:203.0.113.5", "scanner", "ops",
        (atSecond 1), none, .v6 0xffffcb007105#128 128 (by decide)⟩) := by decide +kernel
  exact ⟨_, .v6 0xffffcb007105#128 128 (by decide), rfl, ⟨_, added⟩, by decide +kernel, by decide,
    by decide +kernel⟩

end HostControl.Access
