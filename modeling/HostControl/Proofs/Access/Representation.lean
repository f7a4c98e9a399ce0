/-
Module: HostControl.Proofs.Access.Representation
Purpose: What the lists hold in every state that a registry can come to. When it is opened, the allow list has
  the patterns of the file, each where it occurs first. From then on each list is made of entries that were put
  into it, in the order in which that was done; every pattern is there once, without blanks around it and
  beside the range that it denotes, and an entry that has an end was added before it.
Main exports: patternsOf, Registry.map_pattern_load, latest, Step.insertion, Registry.insertions, Represents,
  represents_carryOut, represents_after, lists_represent_insertions
-/
import HostControl.Proofs.Access.History
import HostControl.Proofs.Access.Lockstep

namespace HostControl.Access

open Text

/-! ### The patterns of a file -/

/-- The patterns that the ranges of a file give: the texts that denote a range, without the blanks around them,
each of them once, where it occurs first. -/
def patternsOf (ranges : List String) : List String :=
  ((ranges.map trim).filter fun pattern => (Network.ofPattern? pattern).isSome).eraseDups

theorem eraseDups_append_singleton {α : Type} [BEq α] [LawfulBEq α] (l : List α) (x : α) :
    (l ++ [x]).eraseDups = if x ∈ l then l.eraseDups else l.eraseDups ++ [x] := by
  rw [List.eraseDups_append]
  by_cases known : x ∈ l
  · rw [if_pos known, List.removeAll, List.filter_cons_of_neg (by simpa using known)]
    simp
  · rw [if_neg known, List.removeAll, List.filter_cons_of_pos (by simpa using known)]
    simp [List.eraseDups_cons]

/-- A further range adds its pattern at the end if it denotes a range and the pattern is new. -/
theorem patternsOf_append_singleton (ranges : List String) (range : String) :
    patternsOf (ranges ++ [range]) =
      if (Network.ofPattern? range).isSome ∧ trim range ∉ patternsOf ranges then
        patternsOf ranges ++ [trim range]
      else patternsOf ranges := by
  unfold patternsOf
  rw [List.map_append, List.filter_append, List.map_singleton]
  by_cases denotes : (Network.ofPattern? range).isSome = true
  · rw [List.filter_cons_of_pos (by rwa [ofPattern?_trim]), List.filter_nil, eraseDups_append_singleton]
    by_cases known : trim range ∈ (ranges.map trim).filter fun pattern => (Network.ofPattern? pattern).isSome
    · rw [if_pos known, if_neg fun new => new.2 (List.mem_eraseDups.2 known)]
    · rw [if_neg known, if_pos ⟨denotes, mt List.mem_eraseDups.1 known⟩]
  · rw [List.filter_cons_of_neg (by rwa [ofPattern?_trim]), List.filter_nil, List.append_nil,
      if_neg fun new => denotes new.1]

namespace Registry

/-- An entry is found exactly for a text that denotes a range, under its pattern. -/
theorem map_pattern_loaded? (now : Instant) (range : String) :
    (loaded? range now).toList.map (·.pattern) =
      if (Network.ofPattern? range).isSome then [trim range] else [] := by
  cases denoted : Network.ofPattern? range with
  | none =>
      have nothing : loaded? range now = none := by
        rw [Option.eq_none_iff_forall_ne_some]
        intro e found
        obtain ⟨network, some, _⟩ := Entry.make_eq_ok_iff.1 (loaded?_eq_some_iff.1 found)
        rw [denoted] at some
        cases some
      simp [nothing]
  | some network =>
      rw [loaded?_eq_some_iff.2 (Entry.make_eq_ok_iff.2 ⟨network, denoted, rfl⟩)]
      rfl

/-- The entries that are found have the patterns of the file, in its order. -/
theorem map_pattern_load (now : Instant) (ranges : List String) :
    (load now ranges).map (·.pattern) = patternsOf ranges := by
  induction ranges using List.reverseRecOn with
  | nil => rfl
  | append_singleton ranges range ih =>
      have known : ((load now ranges).any fun e => e.pattern == trim range) = true ↔
          trim range ∈ patternsOf ranges := by
        simp only [← ih, List.any_eq_true, List.mem_map, beq_iff_eq]
      rw [load_eq_foldl, List.foldl_append, List.foldl_cons, List.foldl_nil, ← load_eq_foldl, loadStep,
        patternsOf_append_singleton]
      by_cases there : trim range ∈ patternsOf ranges
      · rw [if_pos (known.2 there), if_neg fun new => new.2 there, ih]
      · rw [if_neg (mt known.1 there), List.map_append, ih, map_pattern_loaded?]
        by_cases denotes : (Network.ofPattern? range).isSome = true
        · rw [if_pos denotes, if_pos ⟨denotes, there⟩]
        · rw [if_neg denotes, if_neg fun new => denotes new.1, List.append_nil]

/-- The entries that are found have been put there when the file was read, to stay. -/
theorem reloaded_of_mem_load {now : Instant} {ranges : List String} :
    ∀ e ∈ load now ranges, reloaded now e = e := by
  induction ranges using List.reverseRecOn with
  | nil => nofun
  | append_singleton ranges range ih =>
      rw [load_eq_foldl, List.foldl_append, List.foldl_cons, List.foldl_nil, ← load_eq_foldl, loadStep]
      split
      · exact ih
      · intro e member
        rcases List.mem_append.1 member with before | new
        · exact ih e before
        · have found : loaded? range now = some e := by simpa using new
          obtain ⟨network, _, rfl⟩ := Entry.make_eq_ok_iff.1 (loaded?_eq_some_iff.1 found)
          rfl

end Registry

/-! ### What was put into a list -/

/-- The entry that a step has put into a list, if it has put one there. -/
def Step.insertion (s : Step) (kind : ListKind) (r : Registry) : List Entry :=
  match s.call, (s.carryOut r).result with
  | .add list .., .ok (.entry e) => if list = kind then [e] else []
  | _, _ => []

/-- The entries that were put into a list, in order: those that it began with, and those that the steps of a run
have put there. -/
def Registry.insertions (r : Registry) (kind : ListKind) : List Step → List Entry
  | [] => r.lists.get kind
  | s :: past => r.insertions kind past ++ s.insertion kind (r.after past)

/-- The entries that no later one follows under the same pattern. -/
def latest : List Entry → List Entry
  | [] => []
  | e :: rest => if e.pattern ∈ rest.map (·.pattern) then latest rest else e :: latest rest

/-- Where no pattern occurs twice, no entry is followed by one of its pattern. -/
theorem latest_of_nodup {es : List Entry} (distinct : (es.map (·.pattern)).Nodup) : latest es = es := by
  induction es with
  | nil => rfl
  | cons e rest ih =>
      obtain ⟨new, apart⟩ := List.nodup_cons.1 distinct
      rw [latest, if_neg new, ih apart]

/-- A further entry takes the place of those that have its pattern. -/
theorem latest_append_singleton (es : List Entry) (e : Entry) :
    latest (es ++ [e]) = (latest es).filter (·.pattern ≠ e.pattern) ++ [e] := by
  induction es with
  | nil => simp [latest]
  | cons first rest ih =>
      rw [List.cons_append, latest, latest, ih]
      by_cases later : first.pattern ∈ rest.map (·.pattern)
      · rw [if_pos later, if_pos (by simp_all)]
      · by_cases own : first.pattern = e.pattern
        · rw [if_neg later, if_pos (by simp [own]), List.filter_cons_of_neg (by simpa using own)]
        · rw [if_neg later, if_neg (by simp_all), List.filter_cons_of_pos (by simpa using own),
            List.cons_append]

/-- What a list holds, given the entries that were put into it. -/
structure Represents (entries inserted : List Entry) : Prop where
  sound : SoundEntries entries
  lasting : ∀ e ∈ entries, ∀ ends ∈ e.expiresAt, e.addedAt < ends
  ordered : entries.Sublist (latest inserted)

namespace Represents

variable {entries fewer inserted : List Entry} {e : Entry}

/-- Entries may be taken out. -/
theorem sublist (holds : Represents entries inserted) (kept : fewer.Sublist entries) :
    Represents fewer inserted where
  sound := holds.sound.sublist kept
  lasting := fun e member => holds.lasting e (kept.subset member)
  ordered := kept.trans holds.ordered

/-- An entry of a new pattern may be put at the end. -/
theorem append (holds : Represents entries inserted) (made : e.Sound)
    (lasts : ∀ ends ∈ e.expiresAt, e.addedAt < ends) (fresh : ∀ other ∈ entries, other.pattern ≠ e.pattern) :
    Represents (entries ++ [e]) (inserted ++ [e]) where
  sound := holds.sound.append made fresh
  lasting := by
    intro other member
    rcases List.mem_append.1 member with old | new
    · exact holds.lasting other old
    · rw [List.mem_singleton.1 new]
      exact lasts
  ordered := by
    rw [latest_append_singleton]
    have others : entries.filter (·.pattern ≠ e.pattern) = entries :=
      List.filter_eq_self.2 fun other member => by simpa using fresh other member
    have kept := holds.ordered.filter (·.pattern ≠ e.pattern)
    rw [others] at kept
    exact kept.append (List.Sublist.refl [e])

end Represents

/-! ### Every state -/

/-- A failed step has put nothing into a list. -/
theorem insertion_of_failed {s : Step} {r : Registry} {e : Error} (failed : (s.carryOut r).result = .error e)
    (kind : ListKind) : s.insertion kind r = [] := by
  unfold Step.insertion
  rw [failed]
  split
  · next same => cases same
  · rfl

/-- One step keeps both lists as what is left of the entries put into them. -/
theorem represents_carryOut {r : Registry} {inserted : ListKind → List Entry}
    (holds : ∀ kind, Represents (r.lists.get kind) (inserted kind)) (s : Step) (kind : ListKind) :
    Represents ((s.carryOut r).registry.lists.get kind) (inserted kind ++ s.insertion kind r) := by
  rcases carryOut_ends s r with
    ⟨⟨e, failed⟩, _, same⟩ | ⟨call, _, _, _, _, same⟩ | ⟨reply, next, planned, done, _, put⟩
  · rw [same, insertion_of_failed failed, List.append_nil]
    exact holds kind
  · rw [same, Step.insertion, call, List.append_nil]
    exact holds kind
  · rw [put, Step.insertion, done]
    cases planned with
    | @add list pattern description addedBy ends now fault e made live fresh =>
        by_cases own : list = kind
        · subst own
          rw [Lists.get_set_self]
          dsimp only
          rw [if_pos rfl]
          refine (holds list).append (Entry.sound_of_make made) ?_ ?_
          · obtain ⟨network, _, rfl⟩ := Entry.make_eq_ok_iff.1 made
            exact Entry.expired_eq_false_iff.1 live
          · simpa only [Registry.has, List.any_eq_false, beq_iff_eq] using fresh
        · rw [Lists.get_set_of_ne (Ne.symm own)]
          dsimp only
          rw [if_neg own, List.append_nil]
          exact holds kind
    | @remove list pattern actor now fault e found =>
        rw [List.append_nil]
        by_cases own : list = kind
        · subst own
          rw [Lists.get_set_self]
          exact (holds list).sublist List.eraseP_sublist
        · rw [Lists.get_set_of_ne (Ne.symm own)]
          exact holds kind
    | cleanup some =>
        rw [List.append_nil, get_swept]
        exact (holds kind).sublist List.filter_sublist

theorem represents_after {r : Registry} (holds : ∀ kind, Represents (r.lists.get kind) (r.lists.get kind))
    (past : List Step) (kind : ListKind) :
    Represents ((r.after past).lists.get kind) (r.insertions kind past) := by
  induction past generalizing kind with
  | nil => exact holds kind
  | cons s past ih => exact represents_carryOut ih s kind

/-- Sound entries that have no end are what is left of themselves. -/
theorem Represents.of_endless {entries : List Entry} (sound : SoundEntries entries)
    (endless : ∀ e ∈ entries, e.expiresAt = none) : Represents entries entries where
  sound := sound
  lasting := by
    intro e member ends found
    rw [endless e member] at found
    cases found
  ordered := by rw [latest_of_nodup sound.distinct]

/-- A removal that succeeds leaves no entry of its pattern in the list. -/
theorem absent_of_removed {r : Registry} (sound : r.lists.Sound) {kind : ListKind} {pattern actor : String}
    {now : Instant} {fault : Option WriteFault} {reply : Reply}
    (done : ((⟨.remove kind pattern actor, now, fault⟩ : Step).carryOut r).result = .ok reply) :
    ∀ e ∈ ((⟨.remove kind pattern actor, now, fault⟩ : Step).carryOut r).registry.lists.get kind,
      e.pattern ≠ trim pattern := by
  rcases carryOut_done done with ⟨call, _, _⟩ | ⟨next, planned, put⟩
  · cases call
  · rw [put]
    cases planned with
    | remove found =>
        intro e member
        rw [Lists.get_set_self] at member
        exact ((mem_without_iff (sound kind).distinct).1 member).2

/-- The lists of a registry and what was put into them. Whatever file it was opened from, the allow list then has
the patterns of the file, each where it occurs first, as entries of that instant without an end, and the deny list
has none. After any run each list has no pattern twice, every pattern without blanks and beside the range that it
denotes, every end later than the instant of the addition, and its entries in the order in which they were put
there, each at the place of the last entry that was put there under its pattern. A removal that succeeds leaves no
entry of its pattern. -/
theorem lists_represent_insertions {middleware : String} {place : Place} {start : Instant} {r : Registry}
    (opened : Registry.open? middleware place start = .ok r) :
    (∃ ranges, place.ranges middleware = .ok ranges ∧ r.lists.allow.map (·.pattern) = patternsOf ranges) ∧
    (∀ e ∈ r.lists.allow, e.description = "loaded from proxy config" ∧ e.addedBy = "system" ∧
      e.addedAt = start ∧ e.expiresAt = none) ∧
    r.lists.deny = [] ∧
    ∀ past kind,
      Represents ((r.after past).lists.get kind) (r.insertions kind past) ∧
      ∀ pattern actor now fault reply,
        ((⟨.remove kind pattern actor, now, fault⟩ : Step).carryOut (r.after past)).result = .ok reply →
        ∀ e ∈ (r.after (⟨.remove kind pattern actor, now, fault⟩ :: past)).lists.get kind,
          e.pattern ≠ trim pattern := by
  have sound := Registry.sound_of_open? opened
  unfold Registry.open? at opened
  cases read : place.ranges middleware with
  | error e => simp [read, Except.map] at opened
  | ok ranges =>
      simp only [read, Except.map, Except.ok.injEq] at opened
      subst opened
      have loaded : ∀ e ∈ Registry.load start ranges, e.description = "loaded from proxy config" ∧
          e.addedBy = "system" ∧ e.addedAt = start ∧ e.expiresAt = none := by
        intro e member
        rw [← Registry.reloaded_of_mem_load e member]
        exact ⟨rfl, rfl, rfl, rfl⟩
      refine ⟨⟨ranges, rfl, Registry.map_pattern_load start ranges⟩, loaded, rfl, ?_⟩
      intro past kind
      refine ⟨represents_after ?_ past kind, ?_⟩
      · rintro (_ | _)
        · exact .of_endless (sound .allow) fun e member => (loaded e member).2.2.2
        · exact .of_endless (sound .deny) nofun
      · intro pattern actor now fault reply done
        exact absent_of_removed (sound_after sound past) done

/-- A file that someone else has written: a pattern is there twice, and another text denotes nothing. -/
def foreignFile : Place :=
  .text "[http.middlewares.web.ipAllowList]\nsourceRange = [' 10.0.0.0/8', 'office', '::1', '10.0.0.0/8']\n"

/-- What the registry makes of it. -/
def foreignStart : Registry where
  middleware := "web"
  place := foreignFile
  lists := { allow := Registry.load (atSecond 0) [" 10.0.0.0/8", "office", "::1", "10.0.0.0/8"] }

/-- A range is added behind the others, and one of these is taken out and added again, for an hour. -/
def takenOutAndBack : List Step :=
  [⟨.add .allow " ::1" "itself" "ops" (some (atSecond 3690)), atSecond 90, none⟩,
    ⟨.remove .allow "::1 " "ops", atSecond 60, none⟩,
    ⟨.add .allow "fe80::/10" "link" "ops" none, atSecond 30, none⟩]

/-- The entry that was taken out stands last when it is back. -/
theorem lists_represent_insertions_takenOutAndBack :
    Registry.open? "web" foreignFile (atSecond 0) = .ok foreignStart ∧
      foreignStart.lists.allow.map (·.pattern) = ["10.0.0.0/8", "::1"] ∧
      (foreignStart.insertions .allow takenOutAndBack).map (·.pattern) =
        ["10.0.0.0/8", "::1", "fe80::/10", "::1"] ∧
      ((foreignStart.after takenOutAndBack).lists.get .allow).map (·.pattern) =
        ["10.0.0.0/8", "fe80::/10", "::1"] ∧
      Represents ((foreignStart.after takenOutAndBack).lists.get .allow)
        (foreignStart.insertions .allow takenOutAndBack) ∧
      ∀ e ∈ (foreignStart.after takenOutAndBack.tail).lists.get .allow, e.pattern ≠ "::1" := by
  have opened : Registry.open? "web" foreignFile (atSecond 0) = .ok foreignStart := by decide +kernel
  obtain ⟨_, _, _, runs⟩ := lists_represent_insertions opened
  have removed := (runs [⟨.add .allow "fe80::/10" "link" "ops" none, atSecond 30, none⟩] .allow).2
    "::1 " "ops" (atSecond 60) none
    (.entry ⟨"::1", "loaded from proxy config", "system", atSecond 0, none, .v6 1#128 128 (by decide)⟩)
    (by decide +kernel)
  refine ⟨opened, by decide +kernel, by decide +kernel, by decide +kernel, (runs takenOutAndBack .allow).1, ?_⟩
  have name : trim "::1 " = "::1" := by decide +kernel
  rw [name] at removed
  exact removed

end HostControl.Access
