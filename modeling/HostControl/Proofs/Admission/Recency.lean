/-
Module: HostControl.Proofs.Admission.Recency
Purpose: The limiter of callers against a plain list of callers, the one seen last in front, each with a
  bucket of its own. Both give the same results and track the same callers in every run, although the
  limiter keeps two tables, by address and by rank.
Main exports: Caller, Callers, Visit, Visit.run, Clients.Ranked, Clients.Mirrors, Mirrors.seeing,
  Mirrors.take, Mirrors.prune, mirrors_run
-/
import HostControl.Admission.Clients
import HostControl.Proofs.Admission.Window
import Mathlib.Data.List.Nodup

namespace HostControl.Admission

/-! ### Callers in a list -/

/-- A caller, its bucket, and the time of its last take. -/
structure Caller where
  address : Address
  bucket : Bucket
  lastSeen : Span
deriving DecidableEq, Repr

/-- Callers in the order of their last takes, the latest first. -/
structure Callers where
  quota : Quota
  capacity : Nat
  idle : Span
  list : List Caller := []
deriving Repr

namespace Callers

/-- The callers with room for an address: if the list is full, the last one leaves for a new one. -/
def withRoom (address : Address) (cs : Callers) : List Caller :=
  if (∀ k ∈ cs.list, k.address ≠ address) ∧ cs.capacity ≤ cs.list.length then cs.list.dropLast
  else cs.list

/-- The bucket of an address, a new one if the address is not listed. -/
def bucketOf (address : Address) (now : Span) (cs : Callers) : Bucket :=
  ((cs.list.find? (·.address = address)).map (·.bucket)).getD { quota := cs.quota, made := now }

/-- The callers once an address was seen, which comes to the front with what is left in its bucket. -/
def seeing (address : Address) (now : Span) (bucket : Bucket) (cs : Callers) : Callers :=
  { cs with list := ⟨address, bucket, now⟩ :: (cs.withRoom address).filter (·.address ≠ address) }

/-- A take moves its caller to the front, whether it is admitted or not. -/
def take (address : Address) (now : Span) (cs : Callers) :
    Except ArithmeticFault (Taking × Callers) := do
  let (taking, bucket) ← (cs.bucketOf address now).take now
  return (taking, cs.seeing address now bucket)

/-- Drops the callers that were idle for long enough, and gives their number. -/
def prune (now : Span) (cs : Callers) : Nat × Callers :=
  (cs.list.countP fun k => cs.idle ≤ now - k.lastSeen,
    { cs with list := cs.list.filter fun k => ¬ cs.idle ≤ now - k.lastSeen })

end Callers

/-! ### Runs -/

/-- What is asked of a limiter of callers. -/
inductive Visit where
  | take (address : Address) (now : Span)
  | prune (now : Span)
deriving DecidableEq, Repr

namespace Visit

/-- What a visit gives. -/
inductive Result where
  | taking (taking : Taking)
  | dropped (count : Nat)
deriving DecidableEq, Repr

def now : Visit → Span
  | take _ now => now
  | prune now => now

def isTake : Visit → Bool
  | take _ _ => true
  | prune _ => false

variable {σ : Type}

/-- The results of visits, the latest first, and what they lead to, where a step is given. A visit whose
arithmetic has no result ends the run. -/
def run (step : Visit → σ → Except ArithmeticFault (Result × σ)) (start : σ) :
    List Visit → Except ArithmeticFault (List Result × σ)
  | [] => .ok ([], start)
  | visit :: past => do
      let (results, s) ← run step start past
      let (result, s) ← step visit s
      return (result :: results, s)

end Visit

/-- A visit to the limiter. -/
def Clients.visit (c : Clients) : Visit → Except ArithmeticFault (Visit.Result × Clients)
  | .take address now => (c.take address now).map fun (taking, next) => (.taking taking, next)
  | .prune now => .ok (.dropped (c.prune now).1, (c.prune now).2)

/-- A visit to the list. -/
def Callers.visit (cs : Callers) : Visit → Except ArithmeticFault (Visit.Result × Callers)
  | .take address now => (cs.take address now).map fun (taking, next) => (.taking taking, next)
  | .prune now => .ok (.dropped (cs.prune now).1, (cs.prune now).2)

def Clients.run (start : Clients) : List Visit → Except ArithmeticFault (List Visit.Result × Clients) :=
  Visit.run (fun visit c => c.visit visit) start

def Callers.run (start : Callers) : List Visit → Except ArithmeticFault (List Visit.Result × Callers) :=
  Visit.run (fun visit cs => cs.visit visit) start

/-! ### The two tables as one list -/

namespace Clients

/-- A caller with the rank of its last take, as the table by addresses has it. -/
def slotEntry (e : Nat × Caller) : Address × Slot := (e.2.address, ⟨e.2.bucket, e.1, e.2.lastSeen⟩)

/-- A caller with the rank of its last take, as the table by ranks has it. -/
def orderEntry (e : Nat × Caller) : Nat × Address := (e.1, e.2.address)

/-- Callers with their ranks, the latest first, which the two tables hold between them. -/
structure Ranked (ranked : List (Nat × Caller)) (c : Clients) : Prop where
  slots : c.slots.Perm (ranked.map slotEntry)
  order : c.order = (ranked.map orderEntry).reverse
  falling : ranked.Pairwise fun later earlier => earlier.1 < later.1
  known : ∀ e ∈ ranked, e.1 ≤ c.tick
  distinct : (ranked.map (·.2.address)).Nodup

/-- The limiter tracks the callers of the list. -/
structure Mirrors (cs : Callers) (c : Clients) : Prop where
  ranked : ∃ ranked, Ranked ranked c ∧ cs.list = ranked.map (·.2)
  quota : cs.quota = c.quota
  capacity : cs.capacity = c.capacity
  idle : cs.idle = c.idle

variable {ranked : List (Nat × Caller)} {c : Clients} {cs : Callers} {address : Address} {now : Span}

theorem keys_slotEntry (ranked : List (Nat × Caller)) :
    Table.keys (ranked.map slotEntry) = ranked.map (·.2.address) := by
  simp [Table.keys, slotEntry, Function.comp_def]

theorem Ranked.keys_nodup (by_rank : Ranked ranked c) : c.slots.keys.Nodup := by
  have same : c.slots.keys.Perm (ranked.map (·.2.address)) :=
    keys_slotEntry ranked ▸ by_rank.slots.map Prod.fst
  exact same.nodup_iff.2 by_rank.distinct

/-- No two callers have one rank. -/
theorem Ranked.eq_of_rank (by_rank : Ranked ranked c) {e f : Nat × Caller} (he : e ∈ ranked)
    (hf : f ∈ ranked) (same : e.1 = f.1) : e = f := by
  have falling := List.pairwise_iff_getElem.1 by_rank.falling
  obtain ⟨i, hi, rfl⟩ := List.getElem_of_mem he
  obtain ⟨j, hj, rfl⟩ := List.getElem_of_mem hf
  rcases Nat.lt_trichotomy i j with before | rfl | after
  · exact absurd same (Nat.ne_of_gt (falling i j hi hj before))
  · rfl
  · exact absurd same (Nat.ne_of_lt (falling j i hj hi after))

/-- A rank stands for the same caller as its address. -/
theorem Ranked.rank_eq_iff (by_rank : Ranked ranked c) {e f : Nat × Caller} (he : e ∈ ranked)
    (hf : f ∈ ranked) : e.1 = f.1 ↔ e.2.address = f.2.address :=
  ⟨fun same => by rw [by_rank.eq_of_rank he hf same],
    fun same => by rw [List.inj_on_of_nodup_map by_rank.distinct he hf same]⟩

theorem Ranked.ranks_nodup (by_rank : Ranked ranked c) : c.order.keys.Nodup := by
  rw [by_rank.order, Table.keys, List.map_reverse, List.nodup_reverse, List.map_map]
  exact List.pairwise_map.2 (by_rank.falling.imp fun less same => Nat.ne_of_gt less same)

theorem erase_slotEntry (by_rank : Ranked ranked c) (address : Address) :
    (c.slots.erase address).Perm ((ranked.filter (·.2.address ≠ address)).map slotEntry) := by
  rw [Table.erase_eq_filter by_rank.keys_nodup]
  refine (by_rank.slots.filter _).trans (.of_eq ?_)
  rw [List.filter_map]
  rfl

theorem find?_slotEntry (address : Address) (ranked : List (Nat × Caller)) :
    Table.find? address (ranked.map slotEntry) =
      (ranked.find? (·.2.address = address)).map fun e => (slotEntry e).2 := by
  induction ranked with
  | nil => rfl
  | cons e rest ih =>
      by_cases own : e.2.address = address
      · simp [Table.find?, slotEntry, own]
      · simp [Table.find?, slotEntry, own] at ih ⊢
        exact ih

/-- The slot of an address is that of its caller in the list. -/
theorem Ranked.find?_eq (by_rank : Ranked ranked c) (address : Address) :
    c.slots.find? address = (ranked.find? (·.2.address = address)).map fun e => (slotEntry e).2 := by
  rw [Table.find?_eq_of_perm by_rank.keys_nodup by_rank.slots, find?_slotEntry]

/-- The slots are the callers with their ranks. -/
theorem Ranked.find?_slots_iff (by_rank : Ranked ranked c) {address : Address} {slot : Slot} :
    c.slots.find? address = some slot ↔ (slot.rank, ⟨address, slot.bucket, slot.lastSeen⟩) ∈ ranked := by
  rw [Table.find?_eq_some_iff by_rank.keys_nodup, by_rank.slots.mem_iff, List.mem_map]
  constructor
  · rintro ⟨e, member, same⟩
    cases same
    exact member
  · intro member
    exact ⟨_, member, rfl⟩

/-- The entries by rank are the ranks with the addresses of their callers. -/
theorem Ranked.find?_order_iff (by_rank : Ranked ranked c) {rank : Nat} {address : Address} :
    c.order.find? rank = some address ↔ ∃ k, (rank, k) ∈ ranked ∧ k.address = address := by
  rw [Table.find?_eq_some_iff by_rank.ranks_nodup, by_rank.order, List.mem_reverse, List.mem_map]
  constructor
  · rintro ⟨⟨rank, k⟩, member, same⟩
    cases same
    exact ⟨k, member, rfl⟩
  · rintro ⟨k, member, rfl⟩
    exact ⟨_, member, rfl⟩

theorem Ranked.size_eq (by_rank : Ranked ranked c) : c.size = ranked.length := by
  rw [size, by_rank.slots.length_eq, List.length_map]

theorem Ranked.has_eq_false_iff (by_rank : Ranked ranked c) :
    c.slots.has address = false ↔ ∀ e ∈ ranked, e.2.address ≠ address := by
  simp [Table.has, by_rank.find?_eq]

/-! ### Room for a new caller -/

/-- The caller whose rank is the smallest is the one at the end of the list. -/
theorem Ranked.evict (by_rank : Ranked ranked c) : Ranked ranked.dropLast c.evict := by
  have kept : ranked.dropLast.Sublist ranked := List.dropLast_sublist ranked
  rcases List.eq_nil_or_concat ranked with rfl | ⟨init, last, rfl⟩
  · have empty : c.order = [] := by_rank.order
    rw [Clients.evict, empty]
    exact by_rank
  · have order : c.order = orderEntry last :: (init.map orderEntry).reverse := by
      rw [by_rank.order, List.concat_eq_append, List.map_append, List.reverse_append]
      rfl
    have others : ∀ e ∈ init, e.2.address ≠ last.2.address := by
      have distinct := by_rank.distinct
      rw [List.concat_eq_append, List.map_append, List.nodup_append] at distinct
      exact fun e member => distinct.2.2 _ (List.mem_map_of_mem member) _ List.mem_cons_self
    rw [List.concat_eq_append] at by_rank kept ⊢
    rw [List.dropLast_concat] at kept ⊢
    rw [Clients.evict, order]
    refine ⟨?_, rfl, by_rank.falling.sublist kept, fun e member => by_rank.known e (kept.subset member),
      by_rank.distinct.sublist (kept.map _)⟩
    refine (erase_slotEntry by_rank last.2.address).trans (.of_eq (congrArg _ ?_))
    rw [List.filter_append, List.filter_eq_self.2 fun e member => decide_eq_true (others e member)]
    simp

theorem makeRoom_eq (address : Address) (c : Clients) :
    c.makeRoom address =
      if c.slots.has address = false ∧ c.capacity ≤ c.size then c.evict else c := by
  simp only [makeRoom, Bool.and_eq_true, Bool.not_eq_true', decide_eq_true_eq]

/-- Making room changes the callers only. -/
theorem makeRoom_keeps (address : Address) (c : Clients) :
    (c.makeRoom address).quota = c.quota ∧ (c.makeRoom address).capacity = c.capacity ∧
      (c.makeRoom address).idle = c.idle ∧ (c.makeRoom address).tick = c.tick := by
  rw [makeRoom_eq]
  split
  · unfold evict
    split <;> exact ⟨rfl, rfl, rfl, rfl⟩
  · exact ⟨rfl, rfl, rfl, rfl⟩

/-- The limiter and the list make room in the same cases, and both drop the caller at the end. -/
theorem Ranked.makeRoom (by_rank : Ranked ranked c) (list : cs.list = ranked.map (·.2))
    (capacity : cs.capacity = c.capacity) (address : Address) :
    ∃ kept, Ranked kept (c.makeRoom address) ∧ kept.Sublist ranked ∧
      cs.withRoom address = kept.map (·.2) := by
  have unknown : (∀ k ∈ cs.list, k.address ≠ address) ↔ c.slots.has address = false := by
    rw [by_rank.has_eq_false_iff, list, List.forall_mem_map]
  have full : cs.capacity ≤ cs.list.length ↔ c.capacity ≤ c.size := by
    rw [capacity, by_rank.size_eq, list, List.length_map]
  rw [makeRoom_eq, Callers.withRoom]
  by_cases crowded : c.slots.has address = false ∧ c.capacity ≤ c.size
  · rw [if_pos crowded, if_pos ⟨unknown.2 crowded.1, full.2 crowded.2⟩]
    exact ⟨ranked.dropLast, by_rank.evict, List.dropLast_sublist ranked, by rw [list, List.map_dropLast]⟩
  · rw [if_neg crowded, if_neg fun both => crowded ⟨unknown.1 both.1, full.1 both.2⟩]
    exact ⟨ranked, by_rank, .refl _, list⟩

/-- The ticks of the limiter say nothing about its callers. -/
theorem Ranked.tick {later : Nat} (by_rank : Ranked ranked c) (grows : c.tick ≤ later) :
    Ranked ranked { c with tick := later } :=
  ⟨by_rank.slots, by_rank.order, by_rank.falling,
    fun e member => Nat.le_trans (by_rank.known e member) grows, by_rank.distinct⟩

/-! ### One take -/

/-- The limiter at the next tick, with room for an address. -/
def welcoming (address : Address) (c : Clients) : Clients :=
  { c with tick := Word.following c.tick }.makeRoom address

/-- The limiter with the bucket of a caller that was seen. -/
def seeing (address : Address) (now : Span) (bucket : Bucket) (c : Clients) : Clients :=
  { c with
    slots := c.slots.set address ⟨bucket, c.tick, now⟩
    order := insertRank c.tick address (c.order.erase (c.slot address now).rank) }

theorem take_eq (address : Address) (now : Span) (c : Clients) :
    c.take address now = (((c.welcoming address).slot address now).bucket.take now).map
      fun (taking, bucket) => (taking, (c.welcoming address).seeing address now bucket) := by
  simp only [take, welcoming]
  cases (Clients.slot address now
    ({ c with tick := Word.following c.tick }.makeRoom address)).bucket.take now with
  | error fault => rfl
  | ok taken => rfl

theorem insertRank_last {rank : Nat} {t : Table Nat Address} (greatest : ∀ e ∈ t, e.1 < rank) :
    insertRank rank address t = t ++ [(rank, address)] := by
  induction t with
  | nil => rfl
  | cons e rest ih =>
      obtain ⟨r, a⟩ := e
      have below : r < rank := greatest _ List.mem_cons_self
      have rest_below := ih fun e member => greatest e (List.mem_cons_of_mem _ member)
      simp [insertRank, Nat.lt_asymm below, Nat.ne_of_gt below, rest_below]

/-- Seeing a caller moves it to the front. -/
theorem Ranked.seeing (by_rank : Ranked ranked c) (fresh : ∀ e ∈ ranked, e.1 < c.tick)
    (address : Address) (now : Span) (bucket : Bucket) :
    Ranked ((c.tick, ⟨address, bucket, now⟩) :: ranked.filter (·.2.address ≠ address))
      (c.seeing address now bucket) := by
  have kept : (ranked.filter (·.2.address ≠ address)).Sublist ranked := List.filter_sublist
  have order : c.order.erase (c.slot address now).rank =
      ((ranked.filter (·.2.address ≠ address)).map orderEntry).reverse := by
    -- The slot of a new caller has a rank that stands for no other.
    have own : ∀ e ∈ ranked, e.1 = (c.slot address now).rank ↔ e.2.address = address := by
      intro e member
      rw [slot, by_rank.find?_eq]
      cases found : ranked.find? (·.2.address = address) with
      | none =>
          have others := List.find?_eq_none.1 found e member
          have below := fresh e member
          simp only [decide_eq_true_eq] at others
          simp only [Option.map_none, Option.getD_none, others, iff_false]
          omega
      | some f =>
          have same : f.2.address = address := by simpa using List.find?_some found
          rw [← same]
          exact by_rank.rank_eq_iff member (List.mem_of_find?_eq_some found)
    rw [Table.erase_eq_filter by_rank.ranks_nodup, by_rank.order, List.filter_reverse, List.filter_map]
    refine congrArg (fun entries => (entries.map orderEntry).reverse) (List.filter_congr ?_)
    intro e member
    simp [orderEntry, own e member]
  refine ⟨?_, ?_, ?_, ?_, ?_⟩
  · exact (Table.set_perm _ _ _).trans ((erase_slotEntry by_rank address).cons _)
  · have below : ∀ p ∈ ((ranked.filter (·.2.address ≠ address)).map orderEntry).reverse,
        p.1 < c.tick := by
      intro p member
      obtain ⟨e, listed, rfl⟩ := List.mem_map.1 (List.mem_reverse.1 member)
      exact fresh e (kept.subset listed)
    simp only [Clients.seeing]
    rw [order, insertRank_last below]
    simp [orderEntry]
  · refine List.pairwise_cons.2 ⟨?_, by_rank.falling.sublist kept⟩
    exact fun e member => fresh e (kept.subset member)
  · intro e member
    rcases List.mem_cons.1 member with rfl | earlier
    · exact Nat.le_refl _
    · exact by_rank.known e (kept.subset earlier)
  · refine List.nodup_cons.2 ⟨?_, by_rank.distinct.sublist (kept.map _)⟩
    simp

/-- At the next tick the limiter has the callers of the list with room for an address, and a new rank for
the one that is seen. -/
theorem Mirrors.welcoming (mirrors : Mirrors cs c) (few : c.tick < Word.max64) (address : Address) :
    ∃ ranked, Ranked ranked (c.welcoming address) ∧
      (∀ e ∈ ranked, e.1 < (c.welcoming address).tick) ∧ cs.withRoom address = ranked.map (·.2) := by
  obtain ⟨ranked, by_rank, list⟩ := mirrors.ranked
  have next : Word.following c.tick = c.tick + 1 := Word.following_eq few
  have ticked : Ranked ranked { c with tick := Word.following c.tick } :=
    by_rank.tick (next ▸ Nat.le_succ c.tick)
  obtain ⟨kept, room, fewer, listed⟩ := ticked.makeRoom list mirrors.capacity address
  obtain ⟨_, _, _, tick⟩ := makeRoom_keeps address { c with tick := Word.following c.tick }
  refine ⟨kept, room, ?_, listed⟩
  intro e member
  rw [Clients.welcoming, tick, next]
  exact Nat.lt_succ_of_le (by_rank.known e (fewer.subset member))

/-- A caller that is dropped for want of room is not the one that comes. -/
theorem find?_withRoom (address : Address) (cs : Callers) :
    (cs.withRoom address).find? (·.address = address) = cs.list.find? (·.address = address) := by
  unfold Callers.withRoom
  split
  · next crowded =>
      have none_of_them : ∀ k ∈ cs.list, ¬ decide (k.address = address) = true := fun k member =>
        by simpa using crowded.1 k member
      rw [List.find?_eq_none.2 none_of_them,
        List.find?_eq_none.2 fun k member => none_of_them k (List.dropLast_subset _ member)]
  · rfl

/-- The slot of a caller at a take has the bucket that the list has for it. -/
theorem Mirrors.bucket_eq (mirrors : Mirrors cs c) (few : c.tick < Word.max64) (address : Address)
    (now : Span) :
    ((c.welcoming address).slot address now).bucket = cs.bucketOf address now := by
  obtain ⟨ranked, by_rank, _, listed⟩ := mirrors.welcoming few address
  obtain ⟨quota, _⟩ := makeRoom_keeps address { c with tick := Word.following c.tick }
  rw [slot, by_rank.find?_eq, Callers.bucketOf, ← find?_withRoom, listed, List.find?_map, Function.comp_def,
    mirrors.quota]
  have same : (c.welcoming address).quota = c.quota := quota
  cases ranked.find? (·.2.address = address) with
  | none => simp [same]
  | some e => simp [slotEntry]

/-- Seeing a caller moves it to the front of the list, whatever is left in its bucket. -/
theorem Mirrors.seeing (mirrors : Mirrors cs c) (few : c.tick < Word.max64) (address : Address) (now : Span)
    (bucket : Bucket) :
    Mirrors (cs.seeing address now bucket) ((c.welcoming address).seeing address now bucket) ∧
      ((c.welcoming address).seeing address now bucket).tick = c.tick + 1 := by
  obtain ⟨ranked, by_rank, fresh, listed⟩ := mirrors.welcoming few address
  obtain ⟨quota, capacity, idle, tick⟩ :=
    makeRoom_keeps address { c with tick := Word.following c.tick }
  refine ⟨⟨⟨_, by_rank.seeing fresh address now bucket, ?_⟩, ?_, ?_, ?_⟩, ?_⟩
  · rw [Callers.seeing, List.map_cons, listed, List.filter_map]
    rfl
  · exact mirrors.quota.trans quota.symm
  · exact mirrors.capacity.trans capacity.symm
  · exact mirrors.idle.trans idle.symm
  · exact tick.trans (Word.following_eq few)

/-- Takes of the limiter and of the list agree. -/
theorem Mirrors.take (mirrors : Mirrors cs c) (few : c.tick < Word.max64) (address : Address)
    (now : Span) :
    (∃ fault, c.take address now = .error fault ∧ cs.take address now = .error fault) ∨
    ∃ taking next callers, c.take address now = .ok (taking, next) ∧
      cs.take address now = .ok (taking, callers) ∧ Mirrors callers next ∧ next.tick = c.tick + 1 := by
  rw [take_eq, mirrors.bucket_eq few address now, Callers.take]
  cases taken : (cs.bucketOf address now).take now with
  | error fault => exact .inl ⟨fault, rfl, rfl⟩
  | ok result =>
      obtain ⟨still, tick⟩ := mirrors.seeing few address now result.2
      exact .inr ⟨result.1, _, _, rfl, rfl, still, tick⟩

/-! ### Pruning -/

/-- Whether a caller was seen within the idle time. -/
def stays (now : Span) (c : Clients) (e : Nat × Caller) : Bool := c.recent now (slotEntry e).2

theorem foldl_erase {t : Table Nat Address} (distinct : t.keys.Nodup) (dropped : List (Address × Slot)) :
    dropped.foldl (fun order e => order.erase e.2.rank) t =
      t.filter fun p => p.1 ∉ dropped.map (·.2.rank) := by
  induction dropped generalizing t with
  | nil => simp
  | cons first rest ih =>
      have fewer : (Table.keys (t.filter fun p => p.1 ≠ first.2.rank)).Nodup :=
        distinct.sublist (List.filter_sublist.map _)
      rw [List.foldl_cons, Table.erase_eq_filter distinct, ih fewer, List.filter_filter]
      refine List.filter_congr fun p _ => ?_
      rw [List.map_cons, ← Bool.decide_and, decide_eq_decide, List.mem_cons, not_or, and_comm]

/-- Pruning keeps the callers seen within the idle time, and gives the number of the others. -/
theorem Ranked.prune (by_rank : Ranked ranked c) (now : Span) :
    Ranked (ranked.filter (c.stays now)) (c.prune now).2 ∧
      (c.prune now).1 = ranked.countP fun e => ! c.stays now e := by
  have kept : (ranked.filter (c.stays now)).Sublist ranked := List.filter_sublist
  have slots : (c.slots.filter fun p => c.recent now p.2).Perm
      ((ranked.filter (c.stays now)).map slotEntry) := by
    refine (by_rank.slots.filter _).trans (.of_eq ?_)
    rw [List.filter_map]
    rfl
  have dropped : (c.slots.filter fun p => ! c.recent now p.2).Perm
      ((ranked.filter fun e => ! c.stays now e).map slotEntry) := by
    refine (by_rank.slots.filter _).trans (.of_eq ?_)
    rw [List.filter_map]
    rfl
  refine ⟨⟨slots, ?_, by_rank.falling.sublist kept, fun e member => by_rank.known e (kept.subset member),
    by_rank.distinct.sublist (kept.map _)⟩, ?_⟩
  · simp only [Clients.prune]
    rw [foldl_erase by_rank.ranks_nodup, by_rank.order, List.filter_reverse, List.filter_map]
    refine congrArg (fun entries => (entries.map orderEntry).reverse) (List.filter_congr ?_)
    intro e member
    have gone : e.1 ∈ (c.slots.filter fun p => ! c.recent now p.2).map (·.2.rank) ↔
        c.stays now e = false := by
      rw [(dropped.map (·.2.rank)).mem_iff, List.map_map, List.mem_map]
      constructor
      · rintro ⟨f, idle, same⟩
        obtain ⟨listed, idle⟩ := List.mem_filter.1 idle
        rw [by_rank.eq_of_rank member listed same.symm]
        simpa using idle
      · intro idle
        exact ⟨e, List.mem_filter.2 ⟨member, by simp [idle]⟩, rfl⟩
    simp only [Function.comp_apply, orderEntry, gone, Bool.not_eq_false, Bool.decide_eq_true]
  · simp only [Clients.prune]
    rw [slots.length_eq, List.length_map, by_rank.size_eq, ← List.countP_eq_length_filter,
      List.length_eq_countP_add_countP (c.stays now), Nat.add_sub_cancel_left]
    exact List.countP_congr fun e _ => by simp

/-- Pruning the limiter and pruning the list agree. -/
theorem Mirrors.prune (mirrors : Mirrors cs c) (now : Span) :
    (c.prune now).1 = (cs.prune now).1 ∧ Mirrors (cs.prune now).2 (c.prune now).2 ∧
      (c.prune now).2.tick = c.tick := by
  obtain ⟨ranked, by_rank, list⟩ := mirrors.ranked
  obtain ⟨by_rank, count⟩ := by_rank.prune now
  have idle : ∀ e : Nat × Caller, c.stays now e = ! decide (cs.idle ≤ now - e.2.lastSeen) := by
    intro e
    rw [stays, recent, mirrors.idle, ← decide_not, decide_eq_decide, Nat.not_le]
    rfl
  refine ⟨?_, ⟨⟨_, by_rank, ?_⟩, mirrors.quota, mirrors.capacity, mirrors.idle⟩, rfl⟩
  · rw [count, Callers.prune, list, List.countP_map]
    exact List.countP_congr fun e _ => by simp [idle]
  · rw [Callers.prune, list, List.filter_map]
    refine congrArg _ (List.filter_congr fun e _ => ?_)
    rw [idle, Function.comp_apply, decide_not]

/-! ### Whole runs -/

/-- A visit of the limiter and the same visit of the list agree. -/
theorem Mirrors.visit (mirrors : Mirrors cs c) {v : Visit} (few : v.isTake = true → c.tick < Word.max64) :
    (∃ fault, c.visit v = .error fault ∧ cs.visit v = .error fault) ∨
    ∃ result next callers, c.visit v = .ok (result, next) ∧ cs.visit v = .ok (result, callers) ∧
      Mirrors callers next ∧ next.tick = c.tick + if v.isTake then 1 else 0 := by
  cases v with
  | take address now =>
      rw [Clients.visit, Callers.visit]
      rcases mirrors.take (few rfl) address now with
        ⟨fault, failed, failed'⟩ | ⟨taking, next, callers, taken, taken', still, tick⟩
      · rw [failed, failed']
        exact .inl ⟨fault, rfl, rfl⟩
      · rw [taken, taken']
        exact .inr ⟨_, next, callers, rfl, rfl, still, tick⟩
  | prune now =>
      obtain ⟨count, still, tick⟩ := mirrors.prune now
      exact .inr ⟨_, _, _, rfl, by rw [Callers.visit, count], still, tick⟩

end Clients

theorem Visit.run_cons {σ : Type} (step : Visit → σ → Except ArithmeticFault (Result × σ)) (start : σ)
    (visit : Visit) (past : List Visit) :
    run step start (visit :: past) = (run step start past).bind fun (results, s) =>
      (step visit s).map fun (result, next) => (result :: results, next) := by
  rw [run]
  cases run step start past with
  | error fault => rfl
  | ok reached =>
      simp only [bind, Except.bind]
      cases step visit reached.2 <;> rfl

/-- A run that came to its last visit had come to the visits before. -/
theorem Visit.run_cons_ok {σ : Type} {step : Visit → σ → Except ArithmeticFault (Result × σ)}
    {start : σ} {visit : Visit} {past : List Visit} {results : List Result} {s : σ}
    (came : run step start (visit :: past) = .ok (results, s)) :
    ∃ earlier before result, run step start past = .ok (earlier, before) ∧
      step visit before = .ok (result, s) ∧ results = result :: earlier := by
  rw [run_cons] at came
  cases before : run step start past with
  | error fault => rw [before] at came; cases came
  | ok reached =>
      rw [before, Except.bind] at came
      cases taken : step visit reached.2 with
      | error fault => simp only [taken] at came; cases came
      | ok left =>
          simp only [taken] at came
          cases came
          exact ⟨reached.1, reached.2, left.1, rfl, taken, rfl⟩

/-- Runs of the limiter and of the list agree, as long as the ticks fit into a word. -/
theorem Clients.mirrors_run {start : Clients} {listed : Callers} (mirrors : Mirrors listed start)
    {visits : List Visit} (few : start.tick + visits.countP Visit.isTake ≤ Word.max64) :
    (∃ fault, start.run visits = .error fault ∧ listed.run visits = .error fault) ∨
    ∃ results c cs, start.run visits = .ok (results, c) ∧ listed.run visits = .ok (results, cs) ∧
      Mirrors cs c ∧ c.tick = start.tick + visits.countP Visit.isTake := by
  induction visits with
  | nil => exact .inr ⟨[], start, listed, rfl, rfl, mirrors, rfl⟩
  | cons visit past ih =>
      rw [List.countP_cons] at few ⊢
      rw [Clients.run, Callers.run, Visit.run_cons, Visit.run_cons]
      rcases ih (by omega) with ⟨fault, failed, failed'⟩ | ⟨results, c, cs, came, came', still, tick⟩
      · rw [Clients.run] at failed
        rw [Callers.run] at failed'
        rw [failed, failed']
        exact .inl ⟨fault, rfl, rfl⟩
      · rw [Clients.run] at came
        rw [Callers.run] at came'
        rw [came, came']
        have room : visit.isTake = true → c.tick < Word.max64 := by
          intro takes
          rw [if_pos takes] at few
          omega
        rcases still.visit room with
          ⟨fault, failed, failed'⟩ | ⟨result, next, callers, done, done', after, ticked⟩
        · refine .inl ⟨fault, ?_, ?_⟩
          · simp only [Except.bind, failed]
            rfl
          · simp only [Except.bind, failed']
            rfl
        · refine .inr ⟨result :: results, next, callers, ?_, ?_, after, by omega⟩
          · simp only [Except.bind, done]
            rfl
          · simp only [Except.bind, done']
            rfl

end HostControl.Admission
