/-
Module: HostControl.Proofs.Admission.Pruning
Purpose: The limiter of callers with and without prunes. A caller who was pruned starts again with a new bucket,
  which may admit a take that the old one would have made wait. But that has been paid for: what the old bucket
  is further from full than the new one, it has given before in takes that the new one refused.
Main exports: Bucket.fullBy, Bucket.Abreast, Abreast.take, Clients.Roomy, Compares, Beside, beside_run,
  pruning_buys_no_tokens
-/
import HostControl.Proofs.Admission.Callers
import HostControl.Proofs.Admission.Faults
import Mathlib.Data.List.Dedup
import Mathlib.Data.List.Perm.Subperm

namespace HostControl.Admission

/-- Whether a taking gave a token. -/
def Taking.isAdmitted : Taking → Bool
  | .admitted _ => true
  | .throttled _ => false

/-! ### Two buckets of one caller -/

namespace Bucket

variable {q : Quota} {b next renewed kept : Bucket} {now later : Span} {taking : Taking} {less more : Nat}

/-- When the bucket is full again, on the clock. -/
def fullBy (now : Span) (b : Bucket) : Span := b.made + b.due now

/-- A bucket that is in use at a time: it is short of its burst and one token more at most. -/
structure Serves (q : Quota) (now : Span) (b : Bucket) : Prop where
  quota : b.quota = q
  made : b.made ≤ now
  near : b.fullBy now ≤ now + q.tolerance + q.interval

/-- A bucket that was used is full at the same time whenever one looks. -/
theorem fullBy_of_used (used : b.fullAt.isSome) (now later : Span) : b.fullBy now = b.fullBy later := by
  obtain ⟨full, known⟩ := Option.isSome_iff_exists.1 used
  rw [fullBy, fullBy, due, due, known, Option.getD_some, Option.getD_some]

theorem fullBy_new (q : Quota) (now : Span) : fullBy now ⟨q, now, none⟩ = now + q.interval := by
  rw [fullBy, due, Option.getD_none, Nat.sub_self, Nat.zero_add]

theorem serves_new (q : Quota) (now : Span) : Serves q now ⟨q, now, none⟩ where
  quota := rfl
  made := Nat.le_refl _
  near := by
    rw [fullBy_new, Nat.add_right_comm]
    exact Nat.le_add_right _ _

/-- A bucket that was used stays in use as time goes on. -/
theorem Serves.mono (serves : Serves q now b) (used : b.fullAt.isSome) (on : now ≤ later) :
    Serves q later b where
  quota := serves.quota
  made := Nat.le_trans serves.made on
  near := by
    have near := serves.near
    rw [fullBy_of_used used later now]
    unfold Span at *
    omega

/-- What a take does, told on the clock: it puts the time at which the bucket is full off by an interval, or the
bucket is too far from full. -/
theorem Serves.take (serves : Serves q now b) (taken : b.take now = .ok (taking, next)) :
    next.fullAt.isSome ∧ Serves q now next ∧
      ((taking.isAdmitted = true ∧ b.fullBy now ≤ now + q.tolerance ∧
          next.fullBy now = max (b.fullBy now) now + q.interval) ∨
        (taking.isAdmitted = false ∧ now + q.tolerance < b.fullBy now ∧ next = b)) := by
  obtain ⟨rfl, made, near⟩ := serves
  cases taking with
  | admitted left =>
    obtain ⟨ready, _, rfl, _⟩ := take_admitted taken
    have full : (b.spent now).fullBy now = max (b.fullBy now) now + b.quota.interval := by
      simp only [fullBy, spent, due, Option.getD_some]
      unfold Span at *
      omega
    have reached : b.fullBy now ≤ now + b.quota.tolerance := by
      unfold Ready at ready
      unfold fullBy
      unfold Span at *
      omega
    have bounded : (b.spent now).fullBy now ≤ now + b.quota.tolerance + b.quota.interval := by
      rw [full]
      unfold Span at *
      omega
    exact ⟨rfl, ⟨rfl, made, bounded⟩, .inl ⟨rfl, reached, full⟩⟩
  | throttled wait =>
    obtain ⟨rfl, full, known, short, _⟩ := take_throttled taken
    refine ⟨by simp [known], ⟨rfl, made, near⟩, .inr ⟨rfl, ?_, rfl⟩⟩
    rw [fullBy, due, known, Option.getD_some]
    unfold Span at *
    omega

/-- Two buckets of one caller, of which one has given no more tokens than the other: what the other is further
from full has been paid with the tokens that it has given more. -/
structure Abreast (now : Span) (less more : Nat) (renewed kept : Bucket) : Prop where
  fewer : less ≤ more
  paid : kept.fullBy now + less * kept.quota.interval ≤ renewed.fullBy now + more * kept.quota.interval

/-- One take from each of the buckets. Where only the renewed one has a token, the other is further from full, and
so it has given a token more before. -/
theorem Abreast.take (abreast : Abreast now less more renewed kept) {renewed' kept' : Bucket}
    {taking' : Taking} (serves : Serves q now renewed) (serves' : Serves q now kept)
    (taken : renewed.take now = .ok (taking, renewed')) (taken' : kept.take now = .ok (taking', kept')) :
    Abreast now (less + taking.isAdmitted.toNat) (more + taking'.isAdmitted.toNat) renewed' kept' := by
  obtain ⟨fewer, paid⟩ := abreast
  obtain ⟨_, after, ends⟩ := serves.take taken
  obtain ⟨_, after', ends'⟩ := serves'.take taken'
  have fewer_tokens : less * q.interval ≤ more * q.interval := Nat.mul_le_mul_right _ fewer
  rw [serves'.quota] at paid
  rcases ends with ⟨given, reached, full⟩ | ⟨given, short, rfl⟩
  · rcases ends' with ⟨given', reached', full'⟩ | ⟨given', short', rfl⟩
    · rw [given, given']
      refine ⟨Nat.add_le_add_right fewer 1, ?_⟩
      rw [after'.quota, full, full', Bool.toNat_true, Nat.add_mul, Nat.add_mul]
      unfold Span at *
      omega
    · have strictly : less < more := by
        apply Nat.lt_of_not_le
        intro equal
        have no_more : more * q.interval ≤ less * q.interval := Nat.mul_le_mul_right _ equal
        unfold Span at *
        omega
      rw [given, given']
      refine ⟨strictly, ?_⟩
      rw [after'.quota, full, Bool.toNat_true, Bool.toNat_false, Nat.add_zero more, Nat.add_mul]
      unfold Span at *
      omega
  · rcases ends' with ⟨given', reached', full'⟩ | ⟨given', short', rfl⟩
    · rw [given, given']
      refine ⟨Nat.le_succ_of_le fewer, ?_⟩
      rw [after'.quota, full', Bool.toNat_true, Bool.toNat_false, Nat.add_zero less, Nat.add_mul]
      unfold Span at *
      omega
    · rw [given, given']
      refine ⟨fewer, ?_⟩
      rw [after'.quota]
      exact paid

end Bucket

/-! ### A limiter with room for all -/

namespace Clients

variable {callers : List Address} {c next : Clients} {address other : Address} {now : Span} {taking : Taking}

/-- The limiter tracks none but certain callers, and there is room for all of these. -/
structure Roomy (callers : List Address) (c : Clients) : Prop where
  distinct : c.slots.keys.Nodup
  known : c.slots.keys ⊆ callers
  room : callers.length ≤ c.capacity

/-- The bucket that a take finds: that of the caller's slot, or a new one. -/
def bucketOf (address : Address) (now : Span) (c : Clients) : Bucket :=
  ((c.slots.find? address).map (·.bucket)).getD ⟨c.quota, now, none⟩

/-- None has to leave for a caller for whom there is room. -/
theorem Roomy.welcoming_eq (roomy : Roomy callers c) (member : address ∈ callers) :
    c.welcoming address = { c with tick := Word.following c.tick } := by
  rw [welcoming, makeRoom_eq, if_neg]
  rintro ⟨unknown, full⟩
  have fresh : address ∉ c.slots.keys := by
    rw [← Table.find?_eq_none_iff]
    simpa [Table.has] using unknown
  have fits : (address :: c.slots.keys).length ≤ callers.length :=
    ((List.nodup_cons.2 ⟨fresh, roomy.distinct⟩).subperm
      (List.cons_subset.2 ⟨member, roomy.known⟩)).length_le
  have room := roomy.room
  simp only [Table.keys, List.length_cons, List.length_map] at fits
  simp only [size] at full
  omega

/-- A take changes the slot of its caller. -/
theorem Roomy.take (roomy : Roomy callers c) (member : address ∈ callers)
    (taken : c.take address now = .ok (taking, next)) :
    ∃ bucket rank, (c.bucketOf address now).take now = .ok (taking, bucket) ∧ Roomy callers next ∧
      next.slots = c.slots.set address ⟨bucket, rank, now⟩ ∧ next.quota = c.quota ∧ next.idle = c.idle := by
  have found : ((c.welcoming address).slot address now).bucket = c.bucketOf address now := by
    rw [roomy.welcoming_eq member, slot, bucketOf]
    cases c.slots.find? address <;> rfl
  rw [take_eq, found, roomy.welcoming_eq member] at taken
  cases ends : (c.bucketOf address now).take now with
  | error fault =>
    rw [ends] at taken
    cases taken
  | ok result =>
    rw [ends] at taken
    cases taken
    refine ⟨result.2, _, rfl, ⟨?_, ?_, roomy.room⟩, rfl, rfl, rfl⟩
    · simp only [seeing, Table.keys_set]
      split
      · exact roomy.distinct
      · next fresh => exact List.nodup_append.2 ⟨roomy.distinct, List.nodup_singleton _,
          fun a known b same => by
            rw [List.mem_singleton.1 same]
            rintro rfl
            exact fresh known⟩
    · simp only [seeing, Table.keys_set]
      split
      · exact roomy.known
      · exact List.append_subset.2 ⟨roomy.known, List.cons_subset.2 ⟨member, List.nil_subset _⟩⟩

/-- A prune keeps the slots of the callers that were seen within the idle time. -/
theorem Roomy.prune (roomy : Roomy callers c) (now : Span) :
    Roomy callers (c.prune now).2 ∧
      ∀ address, (c.prune now).2.slots.find? address = (c.slots.find? address).filter (c.recent now) := by
  have kept : ((c.prune now).2.slots.keys).Sublist c.slots.keys := List.filter_sublist.map _
  refine ⟨⟨roomy.distinct.sublist kept, List.Subset.trans kept.subset roomy.known, roomy.room⟩, fun address => ?_⟩
  exact Table.find?_filter roomy.distinct _ address

end Clients

/-! ### The slots of one caller -/

section

variable {q : Quota} {idle clock now : Span} {less more : Nat} {pruned kept : Option Slot}

/-- A slot whose bucket was used when its caller was last seen. -/
structure Slot.Tracks (q : Quota) (clock : Span) (s : Slot) : Prop where
  seen : s.lastSeen ≤ clock
  used : s.bucket.fullAt.isSome
  serves : s.bucket.Serves q s.lastSeen

/-- The slots that a caller has with prunes and without, where it has been admitted less and more often. With
prunes its slot may be gone, if it was idle for long enough. -/
inductive Compares (q : Quota) (idle clock : Span) (less more : Nat) : Option Slot → Option Slot → Prop
  | unseen (fewer : less ≤ more) : Compares q idle clock less more none none
  | dropped {kept : Slot} (fewer : less ≤ more) (tracks : kept.Tracks q clock)
      (rested : kept.lastSeen + idle ≤ clock) : Compares q idle clock less more none (some kept)
  | tracked {pruned kept : Slot} (tracks : pruned.Tracks q clock) (tracks' : kept.Tracks q clock)
      (same : pruned.lastSeen = kept.lastSeen) (abreast : pruned.bucket.Abreast clock less more kept.bucket) :
      Compares q idle clock less more (some pruned) (some kept)

theorem Slot.Tracks.mono {s : Slot} (tracks : s.Tracks q clock) (on : clock ≤ now) : s.Tracks q now where
  seen := Nat.le_trans tracks.seen on
  used := tracks.used
  serves := tracks.serves

theorem Slot.Tracks.serves_at {s : Slot} (tracks : s.Tracks q clock) : s.bucket.Serves q clock :=
  tracks.serves.mono tracks.used tracks.seen

theorem Compares.fewer (compares : Compares q idle clock less more pruned kept) : less ≤ more := by
  cases compares with
  | unseen fewer => exact fewer
  | dropped fewer _ _ => exact fewer
  | tracked _ _ _ abreast => exact abreast.fewer

/-- Time alone changes nothing. -/
theorem Compares.mono (compares : Compares q idle clock less more pruned kept) (on : clock ≤ now) :
    Compares q idle now less more pruned kept := by
  cases compares with
  | unseen fewer => exact .unseen fewer
  | dropped fewer tracks rested => exact .dropped fewer (tracks.mono on) (Nat.le_trans rested on)
  | tracked tracks tracks' same abreast =>
    refine .tracked (tracks.mono on) (tracks'.mono on) same ⟨abreast.fewer, ?_⟩
    rw [Bucket.fullBy_of_used tracks.used now clock, Bucket.fullBy_of_used tracks'.used now clock]
    exact abreast.paid

/-- A prune drops the slot of a caller that was idle for long enough. -/
theorem Compares.prune (compares : Compares q idle clock less more pruned kept) {c : Clients}
    (idle_time : c.idle = idle) : Compares q idle clock less more (pruned.filter (c.recent clock)) kept := by
  cases compares with
  | unseen fewer => exact .unseen fewer
  | dropped fewer tracks rested => exact .dropped fewer tracks rested
  | @tracked p k tracks tracks' same abreast =>
    rw [Option.filter_some]
    split
    · exact .tracked tracks tracks' same abreast
    · next old =>
      refine .dropped abreast.fewer tracks' ?_
      have seen := tracks'.seen
      simp only [Clients.recent, idle_time, same, decide_eq_true_eq] at old
      unfold Span at *
      omega

/-- The buckets that a take of the caller finds. A new bucket is full when the one that was dropped has been full
for long. -/
theorem Compares.buckets (compares : Compares q idle clock less more pruned kept)
    (patient : q.tolerance ≤ idle) {b b' : Bucket}
    (found : b = (pruned.map (·.bucket)).getD ⟨q, clock, none⟩)
    (found' : b' = (kept.map (·.bucket)).getD ⟨q, clock, none⟩) :
    b.Serves q clock ∧ b'.Serves q clock ∧ b.Abreast clock less more b' := by
  subst found found'
  cases compares with
  | unseen fewer =>
    refine ⟨Bucket.serves_new q clock, Bucket.serves_new q clock, fewer, ?_⟩
    exact Nat.add_le_add_left (Nat.mul_le_mul_right _ fewer) _
  | @dropped k fewer tracks rested =>
    refine ⟨Bucket.serves_new q clock, tracks.serves_at, fewer, ?_⟩
    have tokens : less * q.interval ≤ more * q.interval := Nat.mul_le_mul_right _ fewer
    have near := tracks.serves.near
    have full := Bucket.fullBy_of_used tracks.used clock k.lastSeen
    simp only [Option.map_none, Option.map_some, Option.getD_none, Option.getD_some]
    rw [Bucket.fullBy_new, full, tracks.serves.quota]
    unfold Span at *
    omega
  | tracked tracks tracks' same abreast => exact ⟨tracks.serves_at, tracks'.serves_at, abreast⟩

/-- A take with prunes and without. -/
theorem Compares.take (compares : Compares q idle clock less more pruned kept)
    (patient : q.tolerance ≤ idle) {b b' next next' : Bucket} {taking taking' : Taking}
    (found : b = (pruned.map (·.bucket)).getD ⟨q, clock, none⟩)
    (found' : b' = (kept.map (·.bucket)).getD ⟨q, clock, none⟩)
    (taken : b.take clock = .ok (taking, next)) (taken' : b'.take clock = .ok (taking', next'))
    (rank rank' : Nat) :
    Compares q idle clock (less + taking.isAdmitted.toNat) (more + taking'.isAdmitted.toNat)
      (some ⟨next, rank, clock⟩) (some ⟨next', rank', clock⟩) := by
  obtain ⟨serves, serves', abreast⟩ := compares.buckets patient found found'
  obtain ⟨used, after, _⟩ := serves.take taken
  obtain ⟨used', after', _⟩ := serves'.take taken'
  exact .tracked ⟨Nat.le_refl _, used, after⟩ ⟨Nat.le_refl _, used', after'⟩ rfl
    (abreast.take serves serves' taken taken')

end

/-! ### Runs with and without prunes -/

namespace Visit

/-- Whom a visit is for. -/
def caller? : Visit → Option Address
  | take address _ => some address
  | prune _ => none

def Result.isAdmitted : Result → Bool
  | taking given => given.isAdmitted
  | dropped _ => false

/-- How often an address was admitted in visits that had certain results. -/
def admissions (address : Address) (visits : List Visit) (results : List Result) : Nat :=
  (visits.zip results).countP fun e => e.1.caller? = some address && e.2.isAdmitted

theorem admissions_cons (address : Address) (visit : Visit) (past : List Visit) (result : Result)
    (results : List Result) :
    admissions address (visit :: past) (result :: results) = admissions address past results +
      if visit.caller? = some address then result.isAdmitted.toNat else 0 := by
  rw [admissions, List.zip_cons_cons, List.countP_cons, admissions]
  by_cases own : visit.caller? = some address
  · cases result.isAdmitted <;> simp [own]
  · simp [own]

end Visit

namespace Clients

variable {callers : List Address} {q : Quota} {idle clock : Span}

/-- A visit that has a result is a take or a prune. -/
theorem visit_cases {visit : Visit} {result : Visit.Result} {c next : Clients}
    (done : c.visit visit = .ok (result, next)) :
    (∃ address now taking, visit = .take address now ∧ result = .taking taking ∧
      c.take address now = .ok (taking, next)) ∨
    ∃ now count, visit = .prune now ∧ result = .dropped count ∧ next = (c.prune now).2 := by
  cases visit with
  | take address now =>
    rw [visit] at done
    cases taken : c.take address now with
    | error fault =>
      rw [taken] at done
      cases done
    | ok reached =>
      rw [taken] at done
      cases done
      exact .inl ⟨address, now, reached.1, rfl, rfl, taken⟩
  | prune now =>
    cases done
    exact .inr ⟨now, _, rfl, rfl, rfl⟩

/-- A limiter that has been pruned and one that has not, after the same takes. -/
structure Beside (callers : List Address) (q : Quota) (idle clock : Span) (less more : Address → Nat)
    (pruned kept : Clients) : Prop where
  roomy : Roomy callers pruned
  roomy' : Roomy callers kept
  quota : pruned.quota = q
  quota' : kept.quota = q
  idle_time : pruned.idle = idle
  slots : ∀ address,
    Compares q idle clock (less address) (more address) (pruned.slots.find? address) (kept.slots.find? address)

variable {less more : Address → Nat} {pruned kept pruned' kept' : Clients}

/-- The same take of both. -/
theorem Beside.take (beside : Beside callers q idle clock less more pruned kept) (patient : q.tolerance ≤ idle)
    {address : Address} (member : address ∈ callers) {now : Span} (on : clock ≤ now) {taking taking' : Taking}
    (taken : pruned.take address now = .ok (taking, pruned'))
    (taken' : kept.take address now = .ok (taking', kept')) :
    Beside callers q idle now
      (fun other => less other + if some address = some other then taking.isAdmitted.toNat else 0)
      (fun other => more other + if some address = some other then taking'.isAdmitted.toNat else 0)
      pruned' kept' := by
  obtain ⟨bucket, rank, gave, roomy, slots, quota, idle_time⟩ := beside.roomy.take member taken
  obtain ⟨bucket', rank', gave', roomy', slots', quota', _⟩ := beside.roomy'.take member taken'
  refine ⟨roomy, roomy', quota.trans beside.quota, quota'.trans beside.quota',
    idle_time.trans beside.idle_time, fun other => ?_⟩
  have before := (beside.slots other).mono on
  rw [slots, slots']
  by_cases own : address = other
  · subst own
    rw [Table.find?_set_self, Table.find?_set_self, if_pos rfl, if_pos rfl]
    rw [bucketOf, beside.quota] at gave
    rw [bucketOf, beside.quota'] at gave'
    exact before.take patient rfl rfl gave gave' rank rank'
  · have apart : some address ≠ some other := fun same => own (Option.some.inj same)
    rw [Table.find?_set_ne (Ne.symm own), Table.find?_set_ne (Ne.symm own), if_neg apart, if_neg apart]
    exact before

/-- A prune of the one. -/
theorem Beside.prune (beside : Beside callers q idle clock less more pruned kept) {now : Span}
    (on : clock ≤ now) : Beside callers q idle now less more (pruned.prune now).2 kept := by
  obtain ⟨roomy, slots⟩ := beside.roomy.prune now
  refine ⟨roomy, beside.roomy', beside.quota, beside.quota', beside.idle_time, fun address => ?_⟩
  rw [slots]
  exact ((beside.slots address).mono on).prune beside.idle_time

theorem beside_fresh (callers : List Address) (q : Quota) (idle : Span) {capacity : Nat}
    (few : callers.length ≤ max capacity 1) :
    Beside callers q idle 0 (fun _ => 0) (fun _ => 0) (fresh q capacity idle) (fresh q capacity idle) where
  roomy := ⟨.nil, List.nil_subset _, few⟩
  roomy' := ⟨.nil, List.nil_subset _, few⟩
  quota := rfl
  quota' := rfl
  idle_time := rfl
  slots _ := .unseen (Nat.le_refl _)

/-- Runs of the same takes, the one with prunes and the other without. -/
theorem beside_run {capacity : Nat} (few : callers.length ≤ max capacity 1) (patient : q.tolerance ≤ idle)
    {visits : List Visit} (timely : visits.Pairwise fun later earlier => earlier.now ≤ later.now)
    (known : visits.filterMap Visit.caller? ⊆ callers) {results results' : List Visit.Result}
    (came : (fresh q capacity idle).run visits = .ok (results, pruned))
    (came' : (fresh q capacity idle).run (visits.filter Visit.isTake) = .ok (results', kept)) :
    Beside callers q idle (Callers.clockOf visits) (Visit.admissions · visits results)
      (Visit.admissions · (visits.filter Visit.isTake) results') pruned kept := by
  induction visits generalizing results results' pruned kept with
  | nil =>
    cases came
    cases came'
    exact beside_fresh callers q idle few
  | cons visit past ih =>
    obtain ⟨earlier, before, result, reached, done, rfl⟩ := Visit.run_cons_ok came
    have on := Callers.clockOf_le timely
    have timely_past := (List.pairwise_cons.1 timely).2
    rcases visit_cases done with ⟨address, now, taking, rfl, rfl, taken⟩ | ⟨now, count, rfl, rfl, rfl⟩
    · obtain ⟨member, known_past⟩ := List.cons_subset.1 known
      rw [List.filter_cons_of_pos rfl] at came'
      obtain ⟨earlier', before', result', reached', done', rfl⟩ := Visit.run_cons_ok came'
      rcases visit_cases done' with ⟨_, _, taking', same, rfl, taken'⟩ | ⟨_, _, other, _⟩
      · cases same
        have beside := ih timely_past known_past reached reached'
        have after := beside.take patient member on taken taken'
        simp only [List.filter_cons_of_pos (show Visit.isTake (.take address now) = true from rfl),
          Visit.admissions_cons]
        exact after
      · cases other
    · rw [List.filter_cons_of_neg (by simp [Visit.isTake])] at came'
      have beside := ih timely_past known reached came'
      have after := beside.prune on
      simp only [List.filter_cons_of_neg (show ¬ Visit.isTake (.prune now) = true from Bool.false_ne_true),
        Visit.admissions_cons, Visit.caller?, reduceCtorEq, if_false, Nat.add_zero]
      exact after

/-! ### Runs that have results -/

/-- Every bucket of the limiter has one quota. -/
structure Even (q : Quota) (c : Clients) : Prop where
  quota : c.quota = q
  slots : ∀ e ∈ c.slots, e.2.bucket.quota = q

/-- Where the rate leaves time for a token, a visit before the last time has a result. -/
theorem Even.visit {rate burst : UInt32} {c : Clients} (even : Even (.of rate burst) c)
    (slow : rate.toNat ≤ Span.second) {visit : Visit} (early : visit.now ≤ lastTime) :
    ∃ result next, c.visit visit = .ok (result, next) ∧ Even (.of rate burst) next := by
  cases visit with
  | take address now =>
    have slots : ∀ e ∈ (c.welcoming address).slots, e.2.bucket.quota = .of rate burst := fun e member =>
      even.slots e ((welcoming_slots address c).subset member)
    have quota : (c.welcoming address).quota = .of rate burst := (welcoming_quota address c).trans even.quota
    have own : ((c.welcoming address).slot address now).bucket.quota = .of rate burst := by
      rcases slot_bucket address now (c.welcoming address) with ⟨e, member, same⟩ | new
      · rw [same]
        exact slots e member
      · rw [new]
        exact quota
    rw [Clients.visit, take_eq]
    cases taken : ((c.welcoming address).slot address now).bucket.take now with
    | error fault =>
      have known : Quota.of rate burst ∈ quotasOf { clientRate := rate, clientBurst := burst } :=
        List.mem_cons_of_mem _ (List.mem_cons_of_mem _ List.mem_cons_self)
      have timed : (Quota.of rate burst).rate ≤ Span.second := Nat.max_le.2 ⟨slow, by decide⟩
      rcases (Bucket.take_error_iff.1 taken).2 with ⟨wide, _⟩ | ⟨_, fast, _⟩
      · exact absurd (Bucket.fits_of_early (own ▸ known) early) wide
      · rw [own] at fast
        exact absurd timed (Nat.not_le_of_lt fast)
    | ok left =>
      refine ⟨_, _, rfl, quota, fun e member => ?_⟩
      rcases mem_seeing member with same | other
      · rw [same, Controller.take_quota taken, own]
      · exact slots e other
  | prune now => exact ⟨_, _, rfl, even.quota, fun e member => even.slots e (List.mem_of_mem_filter member)⟩

theorem Even.run {rate burst : UInt32} {start : Clients} (even : Even (.of rate burst) start)
    (slow : rate.toNat ≤ Span.second) {visits : List Visit} (early : ∀ visit ∈ visits, visit.now ≤ lastTime) :
    ∃ results c, start.run visits = .ok (results, c) ∧ Even (.of rate burst) c := by
  induction visits with
  | nil => exact ⟨[], start, rfl, even⟩
  | cons visit past ih =>
    obtain ⟨results, c, came, still⟩ := ih fun visit member => early visit (List.mem_cons_of_mem _ member)
    obtain ⟨result, next, done, after⟩ := still.visit slow (early visit List.mem_cons_self)
    rw [Clients.run] at came
    refine ⟨result :: results, next, ?_, after⟩
    simp only [Clients.run, Visit.run_cons, came, Except.bind, done]
    rfl

/-! ### Pruning never buys tokens -/

/-- A limiter of callers that is pruned at any instants, and one that is not, have the same takes. If a caller who
is pruned was idle for as long as the burst and one token more take to come back, and there is room for all
callers, then up to every point of the run each caller has been admitted no more often by the one that is
pruned. Before the last time both have results. -/
theorem pruning_buys_no_tokens (rate burst : UInt32) (capacity : Nat) (idle : Span)
    (slow : rate.toNat ≤ Span.second)
    (patient : (burst.toNat + 1) * (Quota.of rate burst).interval ≤ idle) {visits : List Visit}
    (timely : visits.Pairwise fun later earlier => earlier.now ≤ later.now)
    (few : (visits.filterMap Visit.caller?).dedup.length ≤ max capacity 1) {past : List Visit}
    (reached : past <:+ visits) :
    ((∀ visit ∈ past, visit.now ≤ lastTime) →
      ∃ results c results' c', (fresh (.of rate burst) capacity idle).run past = .ok (results, c) ∧
        (fresh (.of rate burst) capacity idle).run (past.filter Visit.isTake) = .ok (results', c')) ∧
    ∀ results c results' c', (fresh (.of rate burst) capacity idle).run past = .ok (results, c) →
      (fresh (.of rate burst) capacity idle).run (past.filter Visit.isTake) = .ok (results', c') →
      ∀ address, Visit.admissions address past results ≤
        Visit.admissions address (past.filter Visit.isTake) results' := by
  refine ⟨fun early => ?_, ?_⟩
  · have even : Even (.of rate burst) (fresh (.of rate burst) capacity idle) := ⟨rfl, nofun⟩
    obtain ⟨results, c, came, _⟩ := even.run slow early
    obtain ⟨results', c', came', _⟩ := even.run slow fun visit member =>
      early visit (List.mem_of_mem_filter member)
    exact ⟨results, c, results', c', came, came'⟩
  · intro results c results' c' came came' address
    have timed : (Quota.of rate burst).rate ≤ Span.second := Nat.max_le.2 ⟨slow, by decide⟩
    have refills : (Quota.of rate burst).tolerance ≤ idle := by
      rw [Quota.tolerance_eq timed, Nat.mul_comm]
      refine Nat.le_trans (Nat.mul_le_mul_right _ ?_) patient
      exact Nat.max_le.2 ⟨Nat.le_succ _, Nat.le_add_left 1 _⟩
    have callers : past.filterMap Visit.caller? ⊆ (visits.filterMap Visit.caller?).dedup :=
      fun caller member => List.mem_dedup.2 ((reached.sublist.filterMap _).subset member)
    exact ((beside_run few refills (timely.sublist reached.sublist) callers came came').slots address).fewer

/-- A caller who comes back after three seconds, and then again and again; it is pruned when it comes back. -/
def returning : List Visit :=
  [.take (.v4 1) (Span.ofMillis 5200), .take (.v4 1) (Span.ofMillis 4700), .take (.v4 1) (Span.ofMillis 4500),
    .take (.v4 1) (Span.ofMillis 3000), .prune (Span.ofMillis 3000), .take (.v4 1) 0]

/-- The last take is admitted where the caller was pruned, and it waits where the caller was not; the one before
was paid for that. -/
theorem pruning_buys_no_tokens_returning :
    (1 : UInt32).toNat ≤ Span.second ∧
    ((1 : UInt32).toNat + 1) * (Quota.of 1 1).interval ≤ Span.ofSeconds 2 ∧
    returning.Pairwise (fun later earlier => earlier.now ≤ later.now) ∧
    (returning.filterMap Visit.caller?).dedup.length ≤ max 2 1 ∧
    ∃ results c results' c', (fresh (.of 1 1) 2 (Span.ofSeconds 2)).run returning = .ok (results, c) ∧
      (fresh (.of 1 1) 2 (Span.ofSeconds 2)).run (returning.filter Visit.isTake) = .ok (results', c') ∧
      results.map Visit.Result.isAdmitted = [true, false, true, true, false, true] ∧
      results'.map Visit.Result.isAdmitted = [false, true, true, true, true] ∧
      Visit.admissions (.v4 1) returning results ≤
        Visit.admissions (.v4 1) (returning.filter Visit.isTake) results' := by
  have slow : (1 : UInt32).toNat ≤ Span.second := by decide
  have patient : ((1 : UInt32).toNat + 1) * (Quota.of 1 1).interval ≤ Span.ofSeconds 2 := by decide
  have timely : returning.Pairwise fun later earlier => earlier.now ≤ later.now := by decide
  have few : (returning.filterMap Visit.caller?).dedup.length ≤ max 2 1 := by decide
  obtain ⟨_, no_more⟩ :=
    pruning_buys_no_tokens 1 1 2 (Span.ofSeconds 2) slow patient timely few (List.suffix_refl returning)
  have both : ∃ reached reached', (fresh (.of 1 1) 2 (Span.ofSeconds 2)).run returning = .ok reached ∧
      (fresh (.of 1 1) 2 (Span.ofSeconds 2)).run (returning.filter Visit.isTake) = .ok reached' ∧
      reached.1.map Visit.Result.isAdmitted = [true, false, true, true, false, true] ∧
      reached'.1.map Visit.Result.isAdmitted = [false, true, true, true, true] :=
    ⟨_, _, rfl, rfl, by decide +kernel, by decide +kernel⟩
  obtain ⟨⟨results, c⟩, ⟨results', c'⟩, came, came', given, given'⟩ := both
  exact ⟨slow, patient, timely, few, results, c, results', c', came, came', given, given',
    no_more results c results' c' came came' (.v4 1)⟩

end Clients

end HostControl.Admission
