/-
Module: HostControl.Proofs.Workload.Operations
Purpose: What the operations on containers come to, in every sequence of them and whatever the runtime answers. A
  text that refers to no container never reaches the runtime and leaves no record. Everything else is one call, and
  that call alone decides: by what the runtime answers, and whether it does so before it is given up, which is at the
  deadline up to where the timer looks. The records of starts, stops and restarts are those calls, in order, with how
  they ended.
Main exports: Ends, perform_ends, IsPlatform, ProcessorShare, MemoryShare, Derived, Task, Task.carryOut,
  Task.Concludes, Task.event?, Task.Faithful, carryOut_faithful, Order, Deed, deeds, operations_faithful
-/
import HostControl.Proofs.Text.Sorting
import HostControl.Workload.Engine

namespace HostControl.Workload

/-! ### The end of a call -/

/-- How a call ends that is awaited from a time of the clock, with a limit, until it is given up: with which result,
and after how long. The operation and its target are named where it fails. -/
inductive Ends {α : Type} (operation target : String) (now limit cutoff : Span) :
    Answer (Except RuntimeError α) → Except Error α → Span → Prop
  | answered {delay : Delay} {value : α} (arrives : delay.wait now ≤ cutoff) :
    Ends operation target now limit cutoff (.after delay (.ok value)) (.ok value) (delay.wait now)
  | missing {delay : Delay} {text : String} (arrives : delay.wait now ≤ cutoff) :
    Ends operation target now limit cutoff (.after delay (.error (.notFound text))) (.error (.notFound target))
      (delay.wait now)
  | failed {delay : Delay} {text : String} (arrives : delay.wait now ≤ cutoff) :
    Ends operation target now limit cutoff (.after delay (.error (.api text)))
      (.error (.runtime operation target text)) (delay.wait now)
  | late {delay : Delay} {reply : Except RuntimeError α} (missed : cutoff < delay.wait now) :
    Ends operation target now limit cutoff (.after delay reply) (.error (.timeout operation target limit.seconds))
      cutoff
  | silent :
    Ends operation target now limit cutoff .never (.error (.timeout operation target limit.seconds)) cutoff

theorem Controller.perform_ends {α : Type} (operation target : String) (limit : Span) (call : RuntimeCall)
    (answer : Answer (Except RuntimeError α)) (now : Span) :
    Ends operation target now limit (Timer.deadline now limit) answer
      (perform operation target limit call answer now).result
      (perform operation target limit call answer now).took := by
  cases answer with
  | never => exact .silent
  | after delay reply =>
    by_cases arrives : delay.wait now ≤ Timer.deadline now limit
    · rcases reply with (text | text) | value
      · simpa [perform, Answer.within, arrives, verdict] using Ends.missing arrives
      · simpa [perform, Answer.within, arrives, verdict] using Ends.failed arrives
      · simpa [perform, Answer.within, arrives, verdict] using Ends.answered arrives
    · simpa [perform, Answer.within, arrives, verdict] using Ends.late (Nat.not_le.1 arrives)

/-! ### The platform's own containers -/

/-- The containers among all whose names begin with a prefix, in the order of their names; those of one name stay as
they were told. -/
structure IsPlatform (namePrefix : String) (all ours : List Container) : Prop where
  same : ours.Perm (all.filter fun x => namePrefix.toList <+: x.name.toList)
  ordered : ours.Pairwise fun a b => a.name ≤ b.name
  stable : ∀ name, ours.filter (·.name = name) =
    (all.filter fun x => namePrefix.toList <+: x.name.toList).filter (·.name = name)

theorem isPlatform_mergeSort (namePrefix : String) (all : List Container) :
    IsPlatform namePrefix all
      ((all.filter fun x => namePrefix.toList.isPrefixOf x.name.toList).mergeSort fun a b => a.name ≤ b.name) := by
  have begins : (fun x : Container => namePrefix.toList.isPrefixOf x.name.toList) =
      fun x => decide (namePrefix.toList <+: x.name.toList) := by
    funext x
    rw [Bool.eq_iff_iff, decide_eq_true_iff, List.isPrefixOf_iff_prefix]
  rw [begins]
  exact ⟨List.mergeSort_perm _ _, Text.sortedBy_pairwise Container.name _,
    fun name => Text.filter_sortedBy Container.name name _⟩

/-! ### The use of a container -/

/-- A number that is cut off where it leaves the range from zero to a greatest one. -/
inductive CutOff (greatest exact : Float) : Float → Prop
  | within (least : ¬exact < 0) (most : ¬greatest < exact) : CutOff greatest exact exact
  | below (negative : exact < 0) : CutOff greatest exact 0
  | above (least : ¬exact < 0) (excess : greatest < exact) : CutOff greatest exact greatest

theorem cutOff_clamp (greatest exact : Float) : CutOff greatest exact (clamp 0 greatest exact) := by
  unfold clamp
  split
  · next negative => exact .below negative
  · next least =>
    split
    · next excess => exact .above least excess
    · next most => exact .within least most

/-- The processor time that a container used between two samples, in percent of one core. A counter of the container
or of its host that has not grown means no use. Else it is the part that the container's gain is of the host's, times
the cores that it sees and at least one, up to all of them. -/
inductive ProcessorShare (previous current : CpuSample) : Binary64 → Prop
  | idle (still : current.total ≤ previous.total ∨ current.system ≤ previous.system) :
    ProcessorShare previous current (.ofFloat 0)
  | busy {cores share : Float} (used : previous.total < current.total) (passed : previous.system < current.system)
      (seen : cores = (UInt64.ofNat (max current.cpus.toNat 1)).toFloat)
      (cut : CutOff (100 * cores) ((current.total - previous.total).toFloat /
        (current.system - previous.system).toFloat * cores * 100) share) :
    ProcessorShare previous current (.ofFloat share)

/-- The memory that a container uses, in percent of what it may use; none where there is no limit. -/
inductive MemoryShare (usage limit : UInt64) : Binary64 → Prop
  | unlimited (free : limit = 0) : MemoryShare usage limit (.ofFloat 0)
  | limited {share : Float} (bounded : limit ≠ 0) (cut : CutOff 100 (usage.toFloat / limit.toFloat * 100) share) :
    MemoryShare usage limit (.ofFloat share)

/-- A counter gained nothing exactly if it has not grown. -/
theorem gain_eq_zero_iff {previous current : UInt64} : gain previous current = 0 ↔ current ≤ previous := by
  unfold gain
  split
  · next grown =>
    rw [← UInt64.not_lt]
    refine iff_of_false (fun nothing => ?_) (not_not_intro grown)
    rw [UInt64.sub_eq_iff_eq_add, UInt64.zero_add] at nothing
    exact UInt64.lt_irrefl _ (nothing ▸ grown)
  · next still => exact iff_of_true rfl (UInt64.not_lt.1 still)

/-- A container sees one core at least. -/
theorem cores_eq (cpus : UInt32) :
    (if cpus = 0 then 1 else cpus).toUInt64 = UInt64.ofNat (max cpus.toNat 1) := by
  split
  · next unknown =>
    subst unknown
    rfl
  · next known =>
    have positive : 0 < cpus.toNat := Nat.pos_of_ne_zero fun zero => known (UInt32.toNat_inj.1 zero)
    rw [Nat.max_eq_left positive, UInt64.ofNat_uInt32ToNat]

theorem processorShare_cpuPercent (previous current : CpuSample) :
    ProcessorShare previous current (cpuPercent previous current) := by
  unfold cpuPercent
  dsimp only
  split
  · next still =>
    rw [gain_eq_zero_iff, gain_eq_zero_iff] at still
    exact .idle still
  · next grown =>
    rw [gain_eq_zero_iff, gain_eq_zero_iff, not_or, UInt64.not_le, UInt64.not_le] at grown
    obtain ⟨used, passed⟩ := grown
    rw [gain, if_pos used, gain, if_pos passed, cores_eq]
    exact .busy used passed rfl (cutOff_clamp ..)

theorem memoryShare_memoryPercent (usage limit : UInt64) : MemoryShare usage limit (memoryPercent usage limit) := by
  unfold memoryPercent
  split
  · next free => exact .unlimited free
  · next bounded => exact .limited bounded (cutOff_clamp ..)

/-- What is told of a container's use is read off a sample, at the time at which that came. -/
structure Derived (target : String) (sample : StatsSample) (time : Instant) (stats : ContainerStats) : Prop where
  id : stats.id = target
  name : stats.name = sample.name
  cpuPercent : ProcessorShare sample.previous sample.current stats.cpuPercent
  memory : stats.memoryUsage = sample.memoryUsage ∧ stats.memoryLimit = sample.memoryLimit
  memoryPercent : MemoryShare sample.memoryUsage sample.memoryLimit stats.memoryPercent
  network : stats.networkReceived = sample.networkReceived ∧ stats.networkSent = sample.networkSent
  block : stats.blockRead = sample.blockRead ∧ stats.blockWritten = sample.blockWritten
  readAt : stats.readAt = time

theorem derived_stats (target : String) (sample : StatsSample) (time : Instant) :
    Derived target sample time (sample.stats target time) where
  id := rfl
  name := rfl
  cpuPercent := processorShare_cpuPercent ..
  memory := ⟨rfl, rfl⟩
  memoryPercent := memoryShare_memoryPercent ..
  network := ⟨rfl, rfl⟩
  block := ⟨rfl, rfl⟩
  readAt := rfl

/-! ### Operations and what decides them -/

/-- An operation, with what is asked of it. -/
inductive Task where
  | list
  | platform
  | describe (id : String)
  | start (ctx : Context) (id : String)
  | stop (ctx : Context) (id : String) (grace : Option Span)
  | restart (ctx : Context) (id : String) (grace : Option Span)
  | logs (id : String) (query : LogQuery)
  | stats (id : String)
  | images
  | networks
  | volumes
  | info
  | ping

namespace Task

/-- What the runtime answers to the call of an operation. -/
def Told : Task → Type
  | .list | .platform => List Container
  | .describe _ => Container
  | .start .. | .stop .. | .restart .. | .ping => Unit
  | .logs .. => String
  | .stats _ => StatsSample
  | .images => List Image
  | .networks => List RuntimeNetwork
  | .volumes => List Volume
  | .info => RuntimeInfo

/-- What an operation gives. -/
def Value : Task → Type
  | .list | .platform => List Container
  | .describe _ => Container
  | .start .. | .stop .. | .restart .. => Unit
  | .logs .. => String
  | .stats _ => ContainerStats
  | .images => List Image
  | .networks => List RuntimeNetwork
  | .volumes => List Volume
  | .info => RuntimeInfo
  | .ping => Bool

/-- Carries out an operation at a time of the clock. -/
def carryOut (rt : Runtime) (clock : Clock) (c : Controller) : (t : Task) → Run t.Value
  | .list => c.list rt clock.elapsed
  | .platform => c.platform rt clock.elapsed
  | .describe id => c.describe id rt clock.elapsed
  | .start ctx id => c.start ctx id rt clock.elapsed
  | .stop ctx id grace => c.stop ctx id grace rt clock.elapsed
  | .restart ctx id grace => c.restart ctx id grace rt clock.elapsed
  | .logs id query => c.logs id query rt clock.elapsed
  | .stats id => c.stats id rt clock
  | .images => c.images rt clock.elapsed
  | .networks => c.networks rt clock.elapsed
  | .volumes => c.volumes rt clock.elapsed
  | .info => c.info rt clock.elapsed
  | .ping => c.ping rt clock.elapsed

/-- The text by which an operation refers to a container. -/
def id? : Task → Option String
  | .describe id | .start _ id | .stop _ id _ | .restart _ id _ | .logs id _ | .stats id => some id
  | .list | .platform | .images | .networks | .volumes | .info | .ping => none

/-- What an operation is about: the container that its text refers to, or the host. -/
def target (t : Task) : Except Error String :=
  match t.id? with
  | some id => reference id
  | none => .ok Controller.hostTarget

/-- The name of an operation in its errors. -/
def operation : Task → String
  | .list | .platform => "list containers"
  | .describe _ => "inspect container"
  | .start .. => "start container"
  | .stop .. => "stop container"
  | .restart .. => "restart container"
  | .logs .. => "read logs"
  | .stats _ => "read stats"
  | .images => "list images"
  | .networks => "list networks"
  | .volumes => "list volumes"
  | .info => "read system info"
  | .ping => "ping"

/-- The time that a container gets to end by itself: what was asked for, or else what is configured. -/
def grace? (config : Config.Docker) : Task → Option Span
  | .stop _ _ grace | .restart _ _ grace => some (grace.getD (Span.ofSeconds config.stopGraceSeconds.toNat))
  | _ => none

/-- How long an answer is awaited: as configured, but a second at least, and longer by the time that a container gets
to end, up to the longest span. -/
def limit (config : Config.Docker) (t : Task) : Span :=
  let configured := Span.ofSeconds (max config.timeoutSeconds.toNat 1)
  match t.grace? config with
  | some grace => min (configured + grace) Span.longest
  | none => configured

/-- How long it takes from a time of the clock until an answer is given up. -/
def cutoff (config : Config.Docker) (now : Span) (t : Task) : Span := Timer.deadline now (t.limit config)

/-- The call of an operation, made for a target. -/
def call (config : Config.Docker) (target : String) : Task → RuntimeCall
  | .list | .platform => .list true
  | .describe _ => .inspect target
  | .start .. => .start target
  | .stop _ _ grace => .stop target (grace.getD (Span.ofSeconds config.stopGraceSeconds.toNat))
  | .restart _ _ grace => .restart target (grace.getD (Span.ofSeconds config.stopGraceSeconds.toNat))
  | .logs _ query => .logs target query
  | .stats _ => .stats target
  | .images => .images
  | .networks => .networks
  | .volumes => .volumes
  | .info => .info
  | .ping => .ping

/-- What the runtime answers to the call of an operation. -/
def answer (rt : Runtime) : (t : Task) → Answer (Except RuntimeError t.Told)
  | .list | .platform => rt.list
  | .describe _ => rt.inspect
  | .start .. => rt.start
  | .stop .. => rt.stop
  | .restart .. => rt.restart
  | .logs .. => rt.logs
  | .stats _ => rt.stats
  | .images => rt.images
  | .networks => rt.networks
  | .volumes => rt.volumes
  | .info => rt.info
  | .ping => rt.ping

/-- What an operation makes of how its call has ended, at a time of the clock. An error is passed on, except that a
ping says no. -/
def Concludes (config : Config.Docker) (target : String) (ended : Clock) :
    (t : Task) → Except Error t.Told → Except Error t.Value → Prop
  | .platform, .ok all, result => ∃ ours, result = .ok ours ∧ IsPlatform config.namePrefix all ours
  | .platform, .error e, result => result = .error e
  | .stats _, .ok sample, result => ∃ stats, result = .ok stats ∧ Derived target sample ended.now stats
  | .stats _, .error e, result => result = .error e
  | .ping, told, result => result = .ok told.isOk
  | .list, told, result => result = told
  | .describe _, told, result => result = told
  | .start .., told, result => result = told
  | .stop .., told, result => result = told
  | .restart .., told, result => result = told
  | .logs .., told, result => result = told
  | .images, told, result => result = told
  | .networks, told, result => result = told
  | .volumes, told, result => result = told
  | .info, told, result => result = told

/-- Who has an operation recorded, and the action that is recorded. -/
def recordedAs? : Task → Option (Context × String)
  | .start ctx _ => some (ctx, "container_start")
  | .stop ctx _ _ => some (ctx, "container_stop")
  | .restart ctx _ _ => some (ctx, "container_restart")
  | _ => none

end Task

/-- The text of the error that an operation came to. -/
def failure? {α : Type} : Except Error α → Option String
  | .ok _ => none
  | .error e => some e.message

/-- The record of an operation on a target, with how it ended and how long it took. -/
def Task.event? {α : Type} (config : Config.Docker) (target : String) (result : Except Error α) (took : Span)
    (t : Task) : Option Audit.Event :=
  t.recordedAs?.map fun (ctx, action) =>
    { action
      actor := ctx.actor
      resource := target
      success := (failure? result).isNone
      error := failure? result
      details := (t.grace? config).toList.map fun grace => ("grace_secs", .nat grace.seconds)
      maskedAddress := (ctx.address.map Address.masked).getD Audit.unknownAddress
      userAgent := ctx.userAgent
      durationMillis := took.wordMillis
      correlationId := some ctx.correlationId }

namespace Task

/-- An operation came to what it has to: it was refused, without a call and a record, or it made its one call, ended
as that call did, and was recorded if its kind is. -/
inductive Faithful (config : Config.Docker) (rt : Runtime) (clock : Clock) (t : Task) (run : Run t.Value) : Prop
  | refused (e : Error) (rejected : t.target = .error e) (told : run.result = .error e) (calls : run.calls = [])
    (events : run.events = []) (took : run.took = 0)
  | called (target : String) (told : Except Error t.Told) (accepted : t.target = .ok target)
    (calls : run.calls = [t.call config target])
    (timer : Timer.Cutoff clock.elapsed (t.limit config) (t.cutoff config clock.elapsed))
    (ends : Ends t.operation target clock.elapsed (t.limit config) (t.cutoff config clock.elapsed) (t.answer rt) told
      run.took)
    (result : t.Concludes config target (clock.forward run.took) told run.result)
    (events : run.events = (t.event? config target run.result run.took).toList)

variable {config : Config.Docker} {rt : Runtime} {clock : Clock}

/-- An operation on a container is faithful if it is so wherever its text refers to a container. -/
theorem faithful_withReference {t : Task} {id : String} (refers : t.id? = some id) {body : String → Run t.Value}
    (called : ∀ target, t.target = .ok target → Faithful config rt clock t (body target)) :
    Faithful config rt clock t (Controller.withReference id body) := by
  have about : t.target = reference id := by rw [target, refers]
  unfold Controller.withReference
  cases known : reference id with
  | error e => exact .refused e (about.trans known) rfl rfl rfl rfl
  | ok name => exact called name (about.trans known)

/-- The record that is added to a run is the one that the operation needs. -/
theorem recorded_event (ctx : Context) (action target : String) (t : Task) (r : Run Unit)
    (kind : t.recordedAs? = some (ctx, action)) (quiet : r.events = []) :
    (Controller.recorded ctx action target (t.grace? config) r).events =
      (t.event? config target r.result r.took).toList := by
  obtain ⟨result, took, calls, events⟩ := r
  subst quiet
  rw [event?, kind]
  cases result <;> cases t.grace? config <;> rfl

theorem concludes_platform {target : String} {ended : Clock} (told : Except Error (List Container)) :
    Concludes config target ended .platform told
      (told.map fun all => (all.filter fun x => config.namePrefix.toList.isPrefixOf x.name.toList).mergeSort
        fun a b => a.name ≤ b.name) := by
  cases told with
  | error e => rfl
  | ok all => exact ⟨_, rfl, isPlatform_mergeSort config.namePrefix all⟩

theorem concludes_stats {id target : String} {ended : Clock} (told : Except Error StatsSample) :
    Concludes config target ended (.stats id) told (told.map fun sample => sample.stats target ended.now) := by
  cases told with
  | error e => rfl
  | ok sample => exact ⟨_, rfl, derived_stats target sample ended.now⟩

theorem concludes_ping {target : String} {ended : Clock} (told : Except Error Unit) :
    Concludes config target ended .ping told (.ok (match told with | .ok _ => true | .error _ => false)) := by
  cases told <;> rfl

theorem carryOut_faithful (config : Config.Docker) (rt : Runtime) (clock : Clock) (t : Task) :
    Faithful config rt clock t (t.carryOut rt clock (.of config)) := by
  have timer := Timer.cutoff_deadline clock.elapsed (t.limit config)
  cases t with
  | list | images | networks | volumes | info =>
    exact .called _ _ rfl rfl timer (Controller.perform_ends ..) rfl rfl
  | ping =>
    exact .called _ _ rfl rfl timer (Controller.perform_ends _ _ _ .ping rt.ping _) (concludes_ping _) rfl
  | platform =>
    exact .called _ _ rfl rfl timer (Controller.perform_ends _ _ _ (.list true) rt.list _) (concludes_platform _) rfl
  | describe | logs =>
    apply faithful_withReference rfl
    intro target refers
    exact .called _ _ refers rfl timer (Controller.perform_ends ..) rfl rfl
  | stats id =>
    apply faithful_withReference rfl
    intro target refers
    have ends := Controller.perform_ends (operation (.stats id)) target (limit config (.stats id))
      (call config target (.stats id)) rt.stats clock.elapsed
    exact .called _ _ refers rfl timer ends (concludes_stats _) rfl
  | start ctx id =>
    apply faithful_withReference rfl
    intro target refers
    have ends := Controller.perform_ends (operation (.start ctx id)) target (limit config (.start ctx id))
      (call config target (.start ctx id)) rt.start clock.elapsed
    exact .called _ _ refers rfl timer ends rfl (recorded_event ctx _ target (.start ctx id) _ rfl rfl)
  | stop ctx id grace =>
    apply faithful_withReference rfl
    intro target refers
    have ends := Controller.perform_ends (operation (.stop ctx id grace)) target (limit config (.stop ctx id grace))
      (call config target (.stop ctx id grace)) rt.stop clock.elapsed
    exact .called _ _ refers rfl timer ends rfl (recorded_event ctx _ target (.stop ctx id grace) _ rfl rfl)
  | restart ctx id grace =>
    apply faithful_withReference rfl
    intro target refers
    have ends := Controller.perform_ends (operation (.restart ctx id grace)) target
      (limit config (.restart ctx id grace)) (call config target (.restart ctx id grace)) rt.restart clock.elapsed
    exact .called _ _ refers rfl timer ends rfl (recorded_event ctx _ target (.restart ctx id grace) _ rfl rfl)

end Task

/-! ### Sequences of operations -/

/-- An operation that is asked for, some time after the one before it has ended, and what the runtime answers then. -/
structure Order where
  idle : Span
  task : Task
  runtime : Runtime

/-- An operation that was carried out, and when it began. -/
structure Deed where
  order : Order
  begun : Clock
  run : Run order.task.Value

/-- When an operation that was carried out had ended. -/
def Deed.ended (d : Deed) : Clock := d.begun.forward d.run.took

/-- An operation came to what it has to. -/
def Deed.Faithful (config : Config.Docker) (d : Deed) : Prop :=
  d.order.task.Faithful config d.order.runtime d.begun d.run

/-- Carries out an operation once the time before it has passed. -/
def Order.deed (c : Controller) (clock : Clock) (order : Order) : Deed where
  order := order
  begun := clock.forward order.idle
  run := order.task.carryOut order.runtime (clock.forward order.idle) c

/-- Carries out operations one after another. -/
def deeds (c : Controller) : List Order → Clock → List Deed
  | [], _ => []
  | order :: later, clock => order.deed c clock :: deeds c later (order.deed c clock).ended

/-- What a start, stop or restart is to the audit trail: the action, the container, and the error it ended in. -/
structure Change where
  action : String
  target : String
  error : Option String
deriving DecidableEq, Repr

/-- The change that a call makes, and how it ended. -/
def RuntimeCall.change? (error : Option String) : RuntimeCall → Option Change
  | .start id => some ⟨"container_start", id, error⟩
  | .stop id _ => some ⟨"container_stop", id, error⟩
  | .restart id _ => some ⟨"container_restart", id, error⟩
  | _ => none

/-- The change that an event tells of, and whether it calls it a success. -/
def change (e : Audit.Event) : Change × Bool := (⟨e.action, e.resource, e.error⟩, e.success)

/-- The changes that the calls of a run make, with the error that the run came to; a change without one is a
success. -/
def Run.changes {α : Type} (r : Run α) : List (Change × Bool) :=
  (r.calls.filterMap (RuntimeCall.change? (failure? r.result))).map fun made => (made, made.error.isNone)

variable {config : Config.Docker} {rt : Runtime} {clock : Clock} {t : Task} {run : Run t.Value}

/-- The events of an operation are the changes that its calls make. -/
theorem Task.Faithful.changes (faithful : t.Faithful config rt clock run) : run.events.map change = run.changes := by
  cases faithful with
  | refused e rejected told calls events took =>
    rw [Run.changes, calls, events]
    rfl
  | called target told accepted calls timer ends result events =>
    rw [Run.changes, calls, events]
    cases t <;> rfl

theorem Order.deed_faithful (config : Config.Docker) (order : Order) (clock : Clock) :
    (order.deed (.of config) clock).Faithful config :=
  order.task.carryOut_faithful config order.runtime _

/-- In every sequence of operations, whatever texts, grace periods and contexts they come with, and whatever the
runtime answers to each call after whatever time.

An operation whose text refers to no container makes no call and leaves no record. Any other makes exactly one call,
and what the runtime answers to it decides the result, by whether it arrives before it is given up, which is never
before the deadline and less than two milliseconds behind it: the value, or what is made of it for the platform's
containers, the use of a container, and a ping; that the container is not there; that the runtime has failed; or that
time is up. The events of the whole sequence are the starts, stops and restarts that the runtime was called for, in
order, each with its container, its success and its error. -/
theorem operations_faithful (config : Config.Docker) (orders : List Order) (clock : Clock) :
    (deeds (.of config) orders clock).map (·.order) = orders ∧
    (∀ d ∈ deeds (.of config) orders clock, d.Faithful config) ∧
    ((deeds (.of config) orders clock).flatMap (·.run.events)).map change =
      (deeds (.of config) orders clock).flatMap (·.run.changes) := by
  induction orders generalizing clock with
  | nil => exact ⟨rfl, fun d member => absurd member List.not_mem_nil, rfl⟩
  | cons order later ih =>
    have faithful := order.deed_faithful config clock
    obtain ⟨same, others, told⟩ := ih (order.deed (.of config) clock).ended
    rw [deeds]
    refine ⟨?_, ?_, ?_⟩
    · rw [List.map_cons, same, Order.deed]
    · rw [List.forall_mem_cons]
      exact ⟨faithful, others⟩
    · rw [List.flatMap_cons, List.flatMap_cons, List.map_append, told, Task.Faithful.changes faithful]

/-- A clock that was started half a millisecond ago. -/
def halfPast : Clock := { origin := .ofNanos 0, elapsed := 500000 }

/-- A runtime that takes three tenths of a millisecond more than a second to start a container. -/
def slowStart : Runtime := { Engine.unreachable with start := .after (some 1000300000) (.ok ()) }

/-- A start that is answered behind its deadline of one second. The timer looks at the clock only so often, so the
answer comes before it is given up: the start counts as done, and as that it is recorded. -/
theorem start_outlasts_deadline :
    let config : Config.Docker := { timeoutSeconds := 1 }
    let task := Task.start ⟨"ops", none, none, "c-1"⟩ "web"
    let run := task.carryOut slowStart halfPast (.of config)
    task.limit config = Span.ofSeconds 1 ∧ run.took = Span.ofMillis 1001 ∧ ¬run.took ≤ task.limit config ∧
      run.result = .ok () ∧ run.result ≠ .error (.timeout "start container" "web" 1) ∧
      run.events.map (fun e => (e.success, e.durationMillis)) = [(true, 1001)] := by
  refine ⟨rfl, by decide, by decide, rfl, ?_, by decide⟩
  intro timed_out
  cases timed_out

end HostControl.Workload
