/-
Module: HostControl.Proofs.Admission.Callers
Purpose: What the limiter of callers promises in every run: it tracks no more callers than it has room for,
  only the one seen least recently has to leave, and each caller is served by a bucket of its own, as if
  no other caller were there.
Main exports: Callers.Orderly, orderly_run, evicted_last, Bucket.serving, Clients.ownTakes, own_run,
  clients_keep_recency_list
-/
import HostControl.Proofs.Admission.Recency
import Mathlib.Algebra.Group.Nat.Defs

namespace HostControl.Admission

namespace Callers

variable {cs next : Callers} {address : Address} {now clock : Span}

/-! ### Room and order -/

/-- A take that has a result puts its caller in front, with what it left in the bucket. -/
theorem take_ok {taking : Taking} (taken : cs.take address now = .ok (taking, next)) :
    ∃ bucket, (cs.bucketOf address now).take now = .ok (taking, bucket) ∧
      next = { cs with list :=
        ⟨address, bucket, now⟩ :: (cs.withRoom address).filter (·.address ≠ address) } := by
  rw [take] at taken
  cases result : (cs.bucketOf address now).take now with
  | error fault =>
      rw [result] at taken
      cases taken
  | ok left =>
      rw [result] at taken
      cases taken
      exact ⟨left.2, rfl, rfl⟩

/-- A take gives what the caller's bucket gives. -/
theorem take_map (address : Address) (now : Span) (cs : Callers) :
    (cs.take address now).map (·.1) = ((cs.bucketOf address now).take now).map (·.1) := by
  rw [take]
  cases (cs.bucketOf address now).take now <;> rfl

theorem withRoom_sublist (address : Address) (cs : Callers) : (cs.withRoom address).Sublist cs.list := by
  unfold withRoom
  split
  · exact List.dropLast_sublist _
  · exact .refl _

/-- The callers are no more than there is room for, have an address each, and stand in the order in which
they were seen. -/
structure Orderly (clock : Span) (cs : Callers) : Prop where
  positive : 0 < cs.capacity
  bounded : cs.list.length ≤ cs.capacity
  distinct : (cs.list.map (·.address)).Nodup
  recent : cs.list.Pairwise fun later earlier => earlier.lastSeen ≤ later.lastSeen
  seen : ∀ k ∈ cs.list, k.lastSeen ≤ clock

/-- Once there is room for an address, its caller fits in. -/
theorem length_lt_of_room (positive : 0 < cs.capacity) (bounded : cs.list.length ≤ cs.capacity)
    (address : Address) :
    ((cs.withRoom address).filter (·.address ≠ address)).length < cs.capacity := by
  unfold withRoom
  by_cases crowded : (∀ k ∈ cs.list, k.address ≠ address) ∧ cs.capacity ≤ cs.list.length
  · rw [if_pos crowded]
    have fewer := List.length_filter_le (fun k => k.address ≠ address) cs.list.dropLast
    rw [List.length_dropLast] at fewer
    omega
  · rw [if_neg crowded]
    by_cases unknown : ∀ k ∈ cs.list, k.address ≠ address
    · have room : cs.list.length < cs.capacity := Nat.lt_of_not_le fun full => crowded ⟨unknown, full⟩
      exact Nat.lt_of_le_of_lt (List.length_filter_le _ _) room
    · have known : ∃ k ∈ cs.list, ¬ decide (k.address ≠ address) = true := by
        simpa using unknown
      exact Nat.lt_of_lt_of_le (List.length_filter_lt_length_iff_exists.2 known) bounded

/-- A caller that is seen comes to the front, whatever is left in its bucket. -/
theorem Orderly.seeing (orderly : Orderly clock cs) (later : clock ≤ now) (address : Address) (bucket : Bucket) :
    Orderly now (cs.seeing address now bucket) := by
  have kept : ((cs.withRoom address).filter (·.address ≠ address)).Sublist cs.list :=
    List.filter_sublist.trans (withRoom_sublist address cs)
  have before : ∀ k ∈ (cs.withRoom address).filter (·.address ≠ address), k.lastSeen ≤ now := by
    intro k member
    exact Nat.le_trans (orderly.seen k (kept.subset member)) later
  refine ⟨orderly.positive, ?_, ?_, ?_, ?_⟩
  · exact length_lt_of_room orderly.positive orderly.bounded address
  · refine List.nodup_cons.2 ⟨?_, orderly.distinct.sublist (kept.map _)⟩
    simp
  · exact List.pairwise_cons.2 ⟨before, orderly.recent.sublist kept⟩
  · intro k member
    rcases List.mem_cons.1 member with rfl | earlier
    · exact Nat.le_refl _
    · exact before k earlier

theorem Orderly.take (orderly : Orderly clock cs) (later : clock ≤ now) {taking : Taking}
    (taken : cs.take address now = .ok (taking, next)) : Orderly now next := by
  obtain ⟨bucket, _, rfl⟩ := take_ok taken
  exact orderly.seeing later address bucket

theorem Orderly.prune (orderly : Orderly clock cs) (later : clock ≤ now) :
    Orderly now (cs.prune now).2 := by
  have kept : (cs.prune now).2.list.Sublist cs.list := List.filter_sublist
  refine ⟨orderly.positive, Nat.le_trans kept.length_le orderly.bounded,
    orderly.distinct.sublist (kept.map _), orderly.recent.sublist kept, ?_⟩
  intro k member
  exact Nat.le_trans (orderly.seen k (kept.subset member)) later

/-- Who has to leave at a take is the last of the list, and leaves for a new caller who finds it full. -/
theorem evicted_last {taking : Taking} (taken : cs.take address now = .ok (taking, next)) {k : Caller}
    (listed : k ∈ cs.list) (gone : ∀ k' ∈ next.list, k'.address ≠ k.address) :
    (∀ k' ∈ cs.list, k'.address ≠ address) ∧ cs.capacity ≤ cs.list.length ∧
      cs.list.getLast? = some k := by
  obtain ⟨bucket, _, rfl⟩ := take_ok taken
  have other : k.address ≠ address := fun same => gone _ List.mem_cons_self same.symm
  have left : k ∉ cs.withRoom address := by
    intro stays
    refine gone k (List.mem_cons_of_mem _ (List.mem_filter.2 ⟨stays, ?_⟩)) rfl
    exact decide_eq_true other
  unfold withRoom at left
  by_cases crowded : (∀ k ∈ cs.list, k.address ≠ address) ∧ cs.capacity ≤ cs.list.length
  · rw [if_pos crowded] at left
    refine ⟨crowded.1, crowded.2, ?_⟩
    rcases List.eq_nil_or_concat cs.list with empty | ⟨init, last, same⟩
    · rw [empty] at listed
      cases listed
    · rw [same, List.concat_eq_append] at listed left ⊢
      rw [List.dropLast_concat] at left
      rcases List.mem_append.1 listed with before | latest
      · exact absurd before left
      · rw [List.mem_singleton.1 latest, List.getLast?_concat]
  · rw [if_neg crowded] at left
    exact absurd listed left

/-- The last of the list was seen no later than any other. -/
theorem Orderly.lastSeen_le (orderly : Orderly clock cs) {last k : Caller}
    (is_last : cs.list.getLast? = some last) (listed : k ∈ cs.list) : last.lastSeen ≤ k.lastSeen := by
  obtain ⟨init, parts⟩ := List.getLast?_eq_some_iff.1 is_last
  have recent := orderly.recent
  rw [parts] at listed recent
  rcases List.mem_append.1 listed with before | latest
  · exact (List.pairwise_append.1 recent).2.2 k before last List.mem_cons_self
  · exact Nat.le_of_eq (congrArg Caller.lastSeen (List.mem_singleton.1 latest).symm)

/-! ### Runs -/

/-- The time of the latest visit. -/
def clockOf : List Visit → Span
  | [] => 0
  | visit :: _ => visit.now

theorem clockOf_le {visit : Visit} {past : List Visit}
    (timely : (visit :: past).Pairwise fun later earlier => earlier.now ≤ later.now) :
    clockOf past ≤ visit.now := by
  cases past with
  | nil => exact Nat.zero_le _
  | cons before past => exact (List.pairwise_cons.1 timely).1 before List.mem_cons_self

/-- A visit that has a result is a take or a prune. -/
theorem visit_cases {visit : Visit} {result : Visit.Result} (done : cs.visit visit = .ok (result, next)) :
    (∃ address now taking, visit = .take address now ∧ result = .taking taking ∧
      cs.take address now = .ok (taking, next)) ∨
    ∃ now, visit = .prune now ∧ next = (cs.prune now).2 := by
  cases visit with
  | take address now =>
      rw [Callers.visit] at done
      cases taken : cs.take address now with
      | error fault =>
          rw [taken] at done
          cases done
      | ok reached =>
          rw [taken] at done
          cases done
          exact .inl ⟨address, now, reached.1, rfl, rfl, taken⟩
  | prune now =>
      cases done
      exact .inr ⟨now, rfl, rfl⟩

theorem visit_keeps {visit : Visit} {result : Visit.Result} (done : cs.visit visit = .ok (result, next)) :
    next.quota = cs.quota ∧ next.capacity = cs.capacity := by
  rcases visit_cases done with ⟨address, now, taking, rfl, rfl, taken⟩ | ⟨now, rfl, rfl⟩
  · obtain ⟨_, _, rfl⟩ := take_ok taken
    exact ⟨rfl, rfl⟩
  · exact ⟨rfl, rfl⟩

theorem run_keeps {start : Callers} {visits : List Visit} {results : List Visit.Result}
    (came : start.run visits = .ok (results, cs)) :
    cs.quota = start.quota ∧ cs.capacity = start.capacity := by
  induction visits generalizing results cs with
  | nil =>
      cases came
      exact ⟨rfl, rfl⟩
  | cons visit past ih =>
      obtain ⟨earlier, before, result, reached, done, rfl⟩ := Visit.run_cons_ok came
      obtain ⟨quota, capacity⟩ := visit_keeps done
      exact ⟨quota.trans (ih reached).1, capacity.trans (ih reached).2⟩

/-- A visit keeps the list in order. -/
theorem Orderly.visit (orderly : Orderly clock cs) {visit : Visit} (later : clock ≤ visit.now)
    {result : Visit.Result} (done : cs.visit visit = .ok (result, next)) : Orderly visit.now next := by
  rcases visit_cases done with ⟨address, now, taking, rfl, rfl, taken⟩ | ⟨now, rfl, rfl⟩
  · exact orderly.take later taken
  · exact orderly.prune later

/-- Every run keeps the list in order. -/
theorem orderly_run {start : Callers} (orderly : Orderly 0 start) {visits : List Visit}
    (timely : visits.Pairwise fun later earlier => earlier.now ≤ later.now)
    {results : List Visit.Result} (came : start.run visits = .ok (results, cs)) :
    Orderly (clockOf visits) cs := by
  induction visits generalizing results cs with
  | nil =>
      cases came
      exact orderly
  | cons visit past ih =>
      obtain ⟨earlier, before, result, reached, done, rfl⟩ := Visit.run_cons_ok came
      exact (ih (List.pairwise_cons.1 timely).2 reached).visit (clockOf_le timely) done

end Callers

/-! ### A bucket of one's own -/

/-- A bucket that was made at the first of the given takes, the latest first, and has served these and no
others. Without takes it is made now. -/
def Bucket.serving (quota : Quota) (now : Span) (times : List Span) : Bucket :=
  ({ quota, made := times.getLast?.getD now } : Bucket).after times

/-- The time at which a visit takes from the bucket of an address. -/
def Visit.takesAt (address : Address) : Visit → Option Span
  | .take caller now => if caller = address then some now else none
  | .prune _ => none

namespace Clients

/-- Whether an address is tracked after a run. -/
def tracksAfter (start : Clients) (address : Address) (visits : List Visit) : Bool :=
  match start.run visits with
  | .ok (_, c) => c.slots.has address
  | .error _ => false

/-- The times of the takes of an address since it was last created, the latest first. -/
def ownTakes (start : Clients) (address : Address) : List Visit → List Span
  | [] => []
  | visit :: past =>
      if start.tracksAfter address (visit :: past) then
        (visit.takesAt address).toList ++ start.ownTakes address past
      else []

variable {start c : Clients} {cs : Callers} {address : Address} {visits : List Visit}

theorem ownTakes_of_untracked (untracked : start.tracksAfter address visits = false) :
    start.ownTakes address visits = [] := by
  cases visits with
  | nil => rfl
  | cons visit past => rw [ownTakes, untracked, if_neg Bool.false_ne_true]

theorem ownTakes_of_tracked {visit : Visit} {past : List Visit}
    (tracked : start.tracksAfter address (visit :: past) = true) :
    start.ownTakes address (visit :: past) =
      (visit.takesAt address).toList ++ start.ownTakes address past := by
  rw [ownTakes, if_pos tracked]

/-- The slots are the callers of the list. -/
theorem Mirrors.mem_iff (mirrors : Mirrors cs c) (k : Caller) :
    k ∈ cs.list ↔ ∃ rank, c.slots.find? k.address = some ⟨k.bucket, rank, k.lastSeen⟩ := by
  obtain ⟨ranked, by_rank, list⟩ := mirrors.ranked
  rw [list, List.mem_map]
  constructor
  · rintro ⟨⟨rank, k⟩, member, rfl⟩
    exact ⟨rank, by_rank.find?_slots_iff.2 member⟩
  · rintro ⟨rank, found⟩
    exact ⟨_, by_rank.find?_slots_iff.1 found, rfl⟩

theorem Mirrors.has_iff (mirrors : Mirrors cs c) (address : Address) :
    c.slots.has address = true ↔ ∃ k ∈ cs.list, k.address = address := by
  rw [Table.has, Option.isSome_iff_exists]
  constructor
  · rintro ⟨⟨bucket, rank, lastSeen⟩, found⟩
    exact ⟨⟨address, bucket, lastSeen⟩, (mirrors.mem_iff _).2 ⟨rank, found⟩, rfl⟩
  · rintro ⟨k, listed, rfl⟩
    obtain ⟨rank, found⟩ := (mirrors.mem_iff k).1 listed
    exact ⟨_, found⟩

theorem Mirrors.size_eq (mirrors : Mirrors cs c) : c.size = cs.list.length := by
  obtain ⟨ranked, by_rank, list⟩ := mirrors.ranked
  rw [by_rank.size_eq, list, List.length_map]

variable {listed : Callers} {results : List Visit.Result}

/-- Who is tracked is in the list. -/
theorem tracksAfter_iff (mirrors : Mirrors listed start)
    (few : start.tick + visits.countP Visit.isTake ≤ Word.max64)
    (came : listed.run visits = .ok (results, cs)) :
    start.tracksAfter address visits = true ↔ ∃ k ∈ cs.list, k.address = address := by
  rcases mirrors_run mirrors few with ⟨fault, _, failed⟩ | ⟨_, c, _, reached, same, still, _⟩
  · rw [came] at failed
    cases failed
  · rw [came] at same
    cases same
    rw [tracksAfter, reached]
    exact still.has_iff address

/-- The bucket that a take finds has served the caller's own takes, if every bucket in the list has. -/
theorem bucketOf_eq_serving (mirrors : Mirrors listed start)
    (few : start.tick + visits.countP Visit.isTake ≤ Word.max64)
    (came : listed.run visits = .ok (results, cs))
    (own : ∀ k ∈ cs.list, start.ownTakes k.address visits ≠ [] ∧
      ∀ now, k.bucket = Bucket.serving listed.quota now (start.ownTakes k.address visits))
    (address : Address) (now : Span) :
    cs.bucketOf address now = Bucket.serving listed.quota now (start.ownTakes address visits) := by
  rw [Callers.bucketOf]
  cases found : cs.list.find? (·.address = address) with
  | some k =>
      have same : k.address = address := by simpa using List.find?_some found
      obtain ⟨_, bucket⟩ := own k (List.mem_of_find?_eq_some found)
      rw [← same]
      exact bucket now
  | none =>
      have untracked : start.tracksAfter address visits = false := by
        rw [Bool.eq_false_iff, ne_eq, tracksAfter_iff mirrors few came]
        rintro ⟨k, listed_there, same⟩
        exact List.find?_eq_none.1 found k listed_there (decide_eq_true same)
      rw [ownTakes_of_untracked untracked]
      simp [Bucket.serving, Bucket.after, (Callers.run_keeps came).1]

/-- What a take leaves in a bucket is the bucket with one take more. -/
theorem serving_cons {quota : Quota} {now : Span} {times : List Span} {taking : Taking} {left : Bucket}
    (taken : (Bucket.serving quota now times).take now = .ok (taking, left)) (later : Span) :
    left = Bucket.serving quota later (now :: times) := by
  have made : (now :: times).getLast?.getD later = times.getLast?.getD now := by
    cases times with
    | nil => rfl
    | cons time times => simp [List.getLast?_cons]
  rw [Bucket.serving] at taken
  rw [Bucket.serving, made, Bucket.after, taken]

/-- In every run the bucket of a tracked caller has served the caller's own takes since it was created, and
no others. -/
theorem own_run (mirrors : Mirrors listed start) (empty : listed.list = [])
    (few : start.tick + visits.countP Visit.isTake ≤ Word.max64)
    (came : listed.run visits = .ok (results, cs)) :
    ∀ k ∈ cs.list, start.ownTakes k.address visits ≠ [] ∧
      ∀ now, k.bucket = Bucket.serving listed.quota now (start.ownTakes k.address visits) := by
  induction visits generalizing results cs with
  | nil =>
      cases came
      intro k member
      rw [empty] at member
      cases member
  | cons visit past ih =>
      obtain ⟨earlier, before, result, reached, done, rfl⟩ := Visit.run_cons_ok came
      have few_before : start.tick + past.countP Visit.isTake ≤ Word.max64 :=
        Nat.le_trans (Nat.add_le_add_left (List.sublist_cons_self _ _).countP_le _) few
      have own := ih few_before reached
      intro k member
      have tracked := (tracksAfter_iff mirrors few came).2 ⟨k, member, rfl⟩
      rw [ownTakes_of_tracked tracked]
      rcases Callers.visit_cases done with ⟨address, now, taking, rfl, rfl, taken⟩ | ⟨now, rfl, rfl⟩
      · obtain ⟨bucket, served, rfl⟩ := Callers.take_ok taken
        rw [bucketOf_eq_serving mirrors few_before reached own] at served
        rcases List.mem_cons.1 member with rfl | other
        · simp only [Visit.takesAt, if_true, Option.toList_some, List.singleton_append]
          exact ⟨List.cons_ne_nil _ _, serving_cons served⟩
        · obtain ⟨kept, differs⟩ := List.mem_filter.1 other
          have apart : address ≠ k.address := fun same => by simp [same] at differs
          simp only [Visit.takesAt, if_neg apart, Option.toList_none, List.nil_append]
          exact own k ((Callers.withRoom_sublist address before).subset kept)
      · exact own k (List.filter_sublist.subset member)

/-! ### Every run from the beginning -/

theorem room_pos (capacity : Nat) : 0 < max capacity 1 := Nat.le_max_right capacity 1

/-- A limiter that has seen no caller. There is room for one at least. -/
def fresh (quota : Quota) (capacity : Nat) (idle : Span) : Clients :=
  { quota, capacity := max capacity 1, idle, capacity_pos := room_pos capacity }

theorem of_eq_fresh (rate burst : UInt32) (capacity idleSeconds : UInt64) :
    of rate burst capacity idleSeconds =
      fresh (Quota.of rate burst) capacity.toNat (Span.ofSeconds idleSeconds.toNat) := rfl

end Clients

/-- A list without callers. There is room for one at least. -/
def Callers.fresh (quota : Quota) (capacity : Nat) (idle : Span) : Callers :=
  { quota, capacity := max capacity 1, idle }

theorem Clients.mirrors_fresh (quota : Quota) (capacity : Nat) (idle : Span) :
    Mirrors (Callers.fresh quota capacity idle) (fresh quota capacity idle) where
  ranked := ⟨[], ⟨.refl _, rfl, .nil, nofun, .nil⟩, rfl⟩
  quota := rfl
  capacity := rfl
  idle := rfl

theorem Callers.orderly_fresh (quota : Quota) (capacity : Nat) (idle : Span) :
    Orderly 0 (fresh quota capacity idle) where
  positive := Clients.room_pos capacity
  bounded := Nat.zero_le _
  distinct := .nil
  recent := .nil
  seen := nofun

/-- A limiter of callers and a list of callers in the order of their last takes, each with its own bucket,
agree in every run of takes and prunes: both come to the same results or to the same fault, and they track
the same callers with the same buckets. So no more callers are tracked than there is room for; a take gives
what the bucket gives that has served the caller's own takes since it was last created; and who has to leave
for a new caller is the last of the list, whom no other was seen before. -/
theorem clients_keep_recency_list (rate burst : UInt32) (capacity : Nat) (idle : Span)
    {start : Clients} (made : start = .fresh (.of rate burst) capacity idle)
    {list : Callers} (listed : list = .fresh (.of rate burst) capacity idle) {visits : List Visit}
    (timely : visits.Pairwise fun later earlier => earlier.now ≤ later.now)
    (few : visits.countP Visit.isTake < 2 ^ 64) :
    ((∃ fault, start.run visits = .error fault ∧ list.run visits = .error fault) ∨
      ∃ results c cs, start.run visits = .ok (results, c) ∧ list.run visits = .ok (results, cs) ∧
        (∀ k, k ∈ cs.list ↔ ∃ rank, c.slots.find? k.address = some ⟨k.bucket, rank, k.lastSeen⟩) ∧
        (cs.list.map (·.address)).Nodup ∧ c.size = cs.list.length ∧ c.size ≤ max capacity 1) ∧
    ∀ later address now past results c, visits = later ++ .take address now :: past →
      start.run past = .ok (results, c) →
      (c.take address now).map (·.1) =
        ((Bucket.serving (.of rate burst) now (start.ownTakes address past)).take now).map (·.1) ∧
      ∀ taking next other slot, c.take address now = .ok (taking, next) →
        c.slots.find? other = some slot → next.slots.has other = false →
        c.slots.has address = false ∧ c.size = max capacity 1 ∧
          (∃ cs, list.run past = .ok (results, cs) ∧
            cs.list.getLast? = some ⟨other, slot.bucket, slot.lastSeen⟩) ∧
          ∀ another s, c.slots.find? another = some s → slot.lastSeen ≤ s.lastSeen := by
  have mirrors : Clients.Mirrors list start := made ▸ listed ▸ Clients.mirrors_fresh _ _ _
  have orderly : Callers.Orderly 0 list := listed ▸ Callers.orderly_fresh _ _ _
  have new : start.tick = 0 := made ▸ rfl
  have room : list.capacity = max capacity 1 := listed ▸ rfl
  have quota : list.quota = .of rate burst := listed ▸ rfl
  refine ⟨?_, ?_⟩
  · have ticks : start.tick + visits.countP Visit.isTake ≤ Word.max64 := by
      rw [new, Word.max64]
      omega
    rcases Clients.mirrors_run mirrors ticks with failed | ⟨results, c, cs, came, came', still, _⟩
    · exact .inl failed
    · have kept := Callers.orderly_run orderly timely came'
      refine .inr ⟨results, c, cs, came, came', still.mem_iff, kept.distinct, still.size_eq, ?_⟩
      rw [still.size_eq, ← room, ← (Callers.run_keeps came').2]
      exact kept.bounded
  · rintro later address now past results c rfl came
    have ticks : start.tick + past.countP Visit.isTake < Word.max64 := by
      rw [List.countP_append, List.countP_cons, Visit.isTake, if_pos rfl] at few
      rw [new, Word.max64]
      omega
    have timely_past := (List.pairwise_cons.1 (List.pairwise_append.1 timely).2.1).2
    rcases Clients.mirrors_run mirrors (Nat.le_of_lt ticks) with
      ⟨fault, failed, _⟩ | ⟨_, _, cs, same, came', still, tick⟩
    · rw [came] at failed
      cases failed
    · rw [came] at same
      cases same
      have kept := Callers.orderly_run orderly timely_past came'
      have own := Clients.own_run mirrors (listed ▸ rfl) (Nat.le_of_lt ticks) came'
      have bucket := Clients.bucketOf_eq_serving mirrors (Nat.le_of_lt ticks) came' own address now
      rw [quota] at bucket
      rw [← bucket, ← Callers.take_map]
      rcases still.take (tick ▸ ticks) address now with
        ⟨fault, failed, failed'⟩ | ⟨taking, next, callers, taken, taken', after, _⟩
      · rw [failed, failed']
        refine ⟨rfl, ?_⟩
        intro taking next other slot taken
        cases taken
      · rw [taken, taken']
        refine ⟨rfl, ?_⟩
        rintro _ _ other slot ⟨⟩ found gone
        have member : ⟨other, slot.bucket, slot.lastSeen⟩ ∈ cs.list := (still.mem_iff _).2 ⟨slot.rank, found⟩
        have none_left : ∀ k' ∈ callers.list, k'.address ≠ other := by
          intro k' listed_there same
          rw [(after.has_iff other).2 ⟨k', listed_there, same⟩] at gone
          cases gone
        obtain ⟨unknown, full, is_last⟩ := Callers.evicted_last taken' member none_left
        refine ⟨?_, ?_, ⟨cs, came', is_last⟩, ?_⟩
        · rw [Bool.eq_false_iff, ne_eq, still.has_iff]
          rintro ⟨k, listed_there, same⟩
          exact unknown k listed_there same
        · rw [still.size_eq, ← room, ← (Callers.run_keeps came').2]
          exact Nat.le_antisymm kept.bounded full
        · intro another s found_there
          exact kept.lastSeen_le is_last ((still.mem_iff ⟨another, s.bucket, s.lastSeen⟩).2 ⟨s.rank, found_there⟩)

/-- Three callers, the latest visit first: the first one comes again before the third one does. -/
def threeCallers : List Visit :=
  [.take (.v4 3) (Span.ofSeconds 3), .take (.v4 1) (Span.ofSeconds 2), .take (.v4 2) (Span.ofSeconds 1),
    .take (.v4 1) 0]

/-- Where there is room for two, the second caller has to leave for the third one. -/
theorem clients_keep_recency_list_threeCallers :
    threeCallers.Pairwise (fun later earlier => earlier.now ≤ later.now) ∧
    threeCallers.countP Visit.isTake < 2 ^ 64 ∧
    ∃ results c cs, (Clients.fresh (.of 1 1) 2 60).run threeCallers = .ok (results, c) ∧
      (Callers.fresh (.of 1 1) 2 60).run threeCallers = .ok (results, cs) ∧
      c.size = 2 ∧ c.slots.has (.v4 2) = false ∧
      ∃ slot before, (Clients.fresh (.of 1 1) 2 60).run threeCallers.tail = .ok before ∧
        before.2.slots.find? (.v4 2) = some slot ∧
        ∀ another s, before.2.slots.find? another = some s → slot.lastSeen ≤ s.lastSeen := by
  have timely : threeCallers.Pairwise fun later earlier => earlier.now ≤ later.now := by decide
  have few : threeCallers.countP Visit.isTake < 2 ^ 64 := by decide
  obtain ⟨agree, each⟩ := clients_keep_recency_list 1 1 2 60 rfl rfl timely few
  have came : ∃ reached, (Clients.fresh (.of 1 1) 2 60).run threeCallers = .ok reached ∧
      reached.2.size = 2 ∧ reached.2.slots.has (.v4 2) = false :=
    ⟨_, rfl, by decide +kernel, by decide +kernel⟩
  have before : ∃ reached slot taking next,
      (Clients.fresh (.of 1 1) 2 60).run threeCallers.tail = .ok reached ∧
      reached.2.take (.v4 3) (Span.ofSeconds 3) = .ok (taking, next) ∧
      reached.2.slots.find? (.v4 2) = some slot ∧ next.slots.has (.v4 2) = false :=
    ⟨_, _, _, _, rfl, rfl, rfl, by decide +kernel⟩
  obtain ⟨⟨results, c⟩, came, size, gone⟩ := came
  obtain ⟨reached, slot, taking, next, past, taken, found, left⟩ := before
  rcases agree with ⟨fault, failed, _⟩ | ⟨_, _, cs, same, came', _⟩
  · rw [came] at failed
    cases failed
  · rw [came] at same
    cases same
    obtain ⟨_, evicted⟩ := each [] (.v4 3) (Span.ofSeconds 3) _ reached.1 reached.2 rfl past
    obtain ⟨_, _, _, least⟩ := evicted taking next (.v4 2) slot taken found left
    exact ⟨timely, few, results, c, cs, came, came', size, gone, slot, reached, past, found, least⟩

end HostControl.Admission
