/-
Module: HostControl.Proofs.Admission.RankIndex
Purpose: The table by ranks is an index of the table by addresses: a rank stands in it for an address exactly if the
  slot of that address has that rank. It stays so in every run of takes and prunes, also past takes whose bucket comes
  to no result, and so the entry in front, which leaves first, is that of the caller seen least recently.
Main exports: Clients.Leads, Clients.Reaches, Clients.Indexed, Mirrors.indexed, Leads.mirrors, Reaches.mirrors,
  index_mirrors_slots
-/
import HostControl.Proofs.Admission.Callers

namespace HostControl.Admission.Clients

/-! ### Reachable limiters -/

/-- Where a visit leads. A take whose bucket comes to no result has put its caller into both tables before it turned to
the bucket; nothing is said of what it leaves there. -/
inductive Leads (c : Clients) : Visit → Clients → Prop where
  | done {visit : Visit} {result : Visit.Result} {next : Clients} (done : c.visit visit = .ok (result, next)) :
      Leads c visit next
  | broken {address : Address} {now : Span} {fault : ArithmeticFault} (failed : c.take address now = .error fault)
      (bucket : Bucket) : Leads c (.take address now) ((c.welcoming address).seeing address now bucket)

/-- The limiters that visits can lead to, the latest visit first. -/
inductive Reaches (start : Clients) : List Visit → Clients → Prop where
  | start : Reaches start [] start
  | visit {visit : Visit} {past : List Visit} {c next : Clients} (before : Reaches start past c)
      (leads : c.Leads visit next) : Reaches start (visit :: past) next

/-- A run without faults reaches the limiter that it comes to. -/
theorem reaches_of_run {start c : Clients} {visits : List Visit} {results : List Visit.Result}
    (came : start.run visits = .ok (results, c)) : start.Reaches visits c := by
  induction visits generalizing results c with
  | nil =>
      cases came
      exact .start
  | cons visit past ih =>
      obtain ⟨earlier, before, result, reached, done, rfl⟩ := Visit.run_cons_ok came
      exact .visit (ih reached) (.done done)

/-! ### The index -/

/-- The table by ranks is an index of the slots. Both tables have distinct keys, and the ranks come in rising order. -/
structure Indexed (c : Clients) : Prop where
  /-- A rank stands for an address exactly if the slot of the address has that rank. -/
  rank_iff : ∀ rank address,
    c.order.find? rank = some address ↔ ∃ slot, c.slots.find? address = some slot ∧ slot.rank = rank
  size : c.order.length = c.slots.length
  addresses : c.slots.keys.Nodup
  ranks : (c.slots.map (·.2.rank)).Nodup
  rising : c.order.keys.Pairwise (· < ·)
  known : ∀ rank ∈ c.order.keys, rank ≤ c.tick
  /-- The first rank is that of the slot seen least recently, and the smallest of those seen at that time. -/
  first : ∀ rank address, c.order.head? = some (rank, address) →
    ∃ slot, c.slots.find? address = some slot ∧ slot.rank = rank ∧
      ∀ other s, c.slots.find? other = some s → other ≠ address →
        slot.lastSeen < s.lastSeen ∨ slot.lastSeen = s.lastSeen ∧ slot.rank < s.rank

variable {ranked : List (Nat × Caller)} {c next : Clients} {cs : Callers} {clock : Span} {visit : Visit}
  {visits : List Visit}

theorem Ranked.keys_order (by_rank : Ranked ranked c) : c.order.keys = (ranked.map (·.1)).reverse := by
  rw [by_rank.order, Table.keys, List.map_reverse, List.map_map]
  rfl

/-- Of two callers the one with the smaller rank was seen no later. -/
theorem Ranked.lastSeen_le (by_rank : Ranked ranked c)
    (recent : ranked.Pairwise fun later earlier => earlier.2.lastSeen ≤ later.2.lastSeen) {e f : Nat × Caller}
    (he : e ∈ ranked) (hf : f ∈ ranked) (less : e.1 < f.1) : e.2.lastSeen ≤ f.2.lastSeen := by
  have both := List.pairwise_iff_getElem.1 (by_rank.falling.and recent)
  obtain ⟨i, hi, rfl⟩ := List.getElem_of_mem he
  obtain ⟨j, hj, rfl⟩ := List.getElem_of_mem hf
  rcases Nat.lt_trichotomy i j with before | rfl | after
  · exact absurd less (Nat.lt_asymm (both i j hi hj before).1)
  · exact Nat.le_refl _
  · exact (both j i hj hi after).2

theorem Ranked.rank_iff (by_rank : Ranked ranked c) (rank : Nat) (address : Address) :
    c.order.find? rank = some address ↔ ∃ slot, c.slots.find? address = some slot ∧ slot.rank = rank := by
  rw [by_rank.find?_order_iff]
  constructor
  · rintro ⟨⟨address, bucket, lastSeen⟩, member, rfl⟩
    exact ⟨⟨bucket, rank, lastSeen⟩, by_rank.find?_slots_iff.2 member, rfl⟩
  · rintro ⟨slot, found, rfl⟩
    exact ⟨_, by_rank.find?_slots_iff.1 found, rfl⟩

theorem Ranked.rising (by_rank : Ranked ranked c) : c.order.keys.Pairwise (· < ·) := by
  rw [by_rank.keys_order, List.pairwise_reverse]
  exact List.pairwise_map.2 by_rank.falling

theorem Ranked.slot_ranks_nodup (by_rank : Ranked ranked c) : (c.slots.map (·.2.rank)).Nodup := by
  have same : (c.slots.map (·.2.rank)).Perm (ranked.map (·.1)) := by
    refine (by_rank.slots.map (·.2.rank)).trans (.of_eq ?_)
    rw [List.map_map]
    rfl
  exact same.nodup_iff.2 (List.pairwise_map.2 (by_rank.falling.imp Nat.ne_of_gt))

/-- The rank in front is smaller than that of every other slot. -/
theorem Ranked.rank_lt_of_front (by_rank : Ranked ranked c) {rank : Nat} {address other : Address} {s : Slot}
    (front : c.order.head? = some (rank, address)) (found : c.slots.find? other = some s) (apart : other ≠ address) :
    rank < s.rank := by
  obtain ⟨rest, order⟩ := List.head?_eq_some_iff.1 front
  have listed := Table.mem_of_find? ((by_rank.rank_iff s.rank other).2 ⟨s, found, rfl⟩)
  have rising := by_rank.rising
  rw [order] at listed rising
  rcases List.mem_cons.1 listed with same | behind
  · exact absurd (congrArg Prod.snd same) apart
  · exact (List.pairwise_cons.1 rising).1 s.rank (Table.mem_keys behind)

/-- Where the limiter tracks the callers of an orderly list, its ranks are an index of its slots. -/
theorem Mirrors.indexed (mirrors : Mirrors cs c) (orderly : cs.Orderly clock) : c.Indexed := by
  obtain ⟨ranked, by_rank, list⟩ := mirrors.ranked
  refine ⟨by_rank.rank_iff, ?size, by_rank.keys_nodup, by_rank.slot_ranks_nodup, by_rank.rising, ?known, ?first⟩
  case size => rw [by_rank.order, List.length_reverse, List.length_map, by_rank.slots.length_eq, List.length_map]
  case known =>
    intro rank member
    rw [by_rank.keys_order, List.mem_reverse, List.mem_map] at member
    obtain ⟨e, listed, rfl⟩ := member
    exact by_rank.known e listed
  case first =>
    intro rank address front
    have listed : c.order.find? rank = some address :=
      Table.find?_of_mem by_rank.ranks_nodup (List.mem_of_mem_head? front)
    obtain ⟨slot, found, rfl⟩ := (by_rank.rank_iff rank address).1 listed
    refine ⟨slot, found, rfl, fun other s found_there apart => ?_⟩
    have less := by_rank.rank_lt_of_front front found_there apart
    have recent := List.pairwise_map.1 (list ▸ orderly.recent)
    have seen : slot.lastSeen ≤ s.lastSeen := by_rank.lastSeen_le recent (by_rank.find?_slots_iff.1 found)
      (by_rank.find?_slots_iff.1 found_there) less
    rcases Nat.lt_or_eq_of_le seen with earlier | same_time
    · exact .inl earlier
    · exact .inr ⟨same_time, less⟩

/-! ### Every visit keeps the index -/

/-- Wherever a visit leads, the limiter tracks the callers of an orderly list again, and a take moves its ticks on. -/
theorem Leads.mirrors (leads : c.Leads visit next) (mirrors : Mirrors cs c) (orderly : cs.Orderly clock)
    (later : clock ≤ visit.now) (few : visit.isTake = true → c.tick < Word.max64) :
    ∃ callers, Mirrors callers next ∧ callers.Orderly visit.now ∧
      next.tick = c.tick + if visit.isTake then 1 else 0 := by
  cases leads with
  | done done =>
    rcases mirrors.visit few with ⟨fault, failed, _⟩ | ⟨result, after, callers, same, listed, still, tick⟩
    · rw [done] at failed
      cases failed
    · rw [done] at same
      cases same
      exact ⟨callers, still, orderly.visit later listed, tick⟩
  | @broken address now fault failed bucket =>
    obtain ⟨still, tick⟩ := mirrors.seeing (few rfl) address now bucket
    exact ⟨_, still, orderly.seeing later address bucket, tick⟩

/-- After every run of visits the limiter tracks the callers of an orderly list, and its ticks are the takes. -/
theorem Reaches.mirrors {start : Clients} {listed : Callers} (reached : start.Reaches visits c)
    (mirrors : Mirrors listed start) (orderly : listed.Orderly 0)
    (timely : visits.Pairwise fun later earlier => earlier.now ≤ later.now)
    (few : start.tick + visits.countP Visit.isTake ≤ Word.max64) :
    ∃ cs, Mirrors cs c ∧ cs.Orderly (Callers.clockOf visits) ∧ c.tick = start.tick + visits.countP Visit.isTake := by
  induction reached with
  | start => exact ⟨listed, mirrors, orderly, rfl⟩
  | @visit visit past before after _ leads ih =>
    rw [List.countP_cons] at few ⊢
    obtain ⟨cs, still, in_order, ticks⟩ := ih (List.pairwise_cons.1 timely).2 (by omega)
    have room (takes : visit.isTake = true) : before.tick < Word.max64 := by
      rw [if_pos takes] at few
      omega
    obtain ⟨callers, mirrored, ordered, tick⟩ := leads.mirrors still in_order (Callers.clockOf_le timely) room
    exact ⟨callers, mirrored, ordered, by omega⟩

/-- In every limiter that takes and prunes can lead to, with fewer takes than a word counts, the table by ranks is an
index of the slots: a rank stands for an address exactly if the slot of the address has that rank. So there are as many
ranks as slots, no two slots have the same, none is beyond the present tick, and the first is that of the slot seen
least recently, the smallest rank where several were seen at that time. -/
theorem index_mirrors_slots (quota : Quota) (capacity : Nat) (idle : Span) {visits : List Visit} {c : Clients}
    (reached : (fresh quota capacity idle).Reaches visits c)
    (timely : visits.Pairwise fun later earlier => earlier.now ≤ later.now)
    (few : visits.countP Visit.isTake < 2 ^ 64) : c.Indexed := by
  have ticks : (fresh quota capacity idle).tick + visits.countP Visit.isTake ≤ Word.max64 := by
    have new : (fresh quota capacity idle).tick = 0 := rfl
    rw [new, Word.max64]
    omega
  obtain ⟨cs, mirrors, orderly, _⟩ :=
    reached.mirrors (mirrors_fresh quota capacity idle) (Callers.orderly_fresh quota capacity idle) timely ticks
  exact mirrors.indexed orderly

/-- One nanosecond more than a word counts: by then the bucket of an early caller comes to no result. -/
def overdue : Span := 18446744073709551616

/-- Three callers, the latest visit first: the first one comes again when its bucket has no result any more. -/
def overdueCaller : List Visit :=
  [.take (.v4 3) (overdue + Span.second), .take (.v4 1) overdue, .take (.v4 2) Span.second, .take (.v4 1) 0]

/-- Where there is room for two, the second caller has to leave for the third one: the first one was seen after it,
although its take had no result. -/
theorem index_mirrors_slots_overdue :
    overdueCaller.Pairwise (fun later earlier => earlier.now ≤ later.now) ∧
    overdueCaller.countP Visit.isTake < 2 ^ 64 ∧
    ∃ before c, (fresh (.of 1 1) 2 60).Reaches overdueCaller.tail.tail before ∧
      before.take (.v4 1) overdue = .error .overflow ∧
      (fresh (.of 1 1) 2 60).Reaches overdueCaller c ∧ c.order = [(3, .v4 1), (4, .v4 3)] ∧ c.Indexed := by
  have timely : overdueCaller.Pairwise fun later earlier => earlier.now ≤ later.now := by decide
  have few : overdueCaller.countP Visit.isTake < 2 ^ 64 := by decide
  have early : ∃ results before, (fresh (.of 1 1) 2 60).run overdueCaller.tail.tail = .ok (results, before) ∧
      before.take (.v4 1) overdue = .error .overflow ∧
      ∃ taking c, ((before.welcoming (.v4 1)).seeing (.v4 1) overdue ⟨.of 1 1, 0, none⟩).take (.v4 3)
        (overdue + Span.second) = .ok (taking, c) ∧ c.order = [(3, .v4 1), (4, .v4 3)] :=
    ⟨_, _, rfl, rfl, _, _, rfl, rfl⟩
  obtain ⟨results, before, came, failed, taking, c, taken, order⟩ := early
  have done : Clients.visit ((before.welcoming (.v4 1)).seeing (.v4 1) overdue ⟨.of 1 1, 0, none⟩)
      (.take (.v4 3) (overdue + Span.second)) = .ok (.taking taking, c) := by
    rw [Clients.visit, taken]
    rfl
  have reached : (fresh (.of 1 1) 2 60).Reaches overdueCaller c :=
    .visit (.visit (reaches_of_run came) (.broken failed _)) (.done done)
  exact ⟨timely, few, before, c, reaches_of_run came, failed, reached, order,
    index_mirrors_slots (.of 1 1) 2 60 reached timely few⟩

end HostControl.Admission.Clients
