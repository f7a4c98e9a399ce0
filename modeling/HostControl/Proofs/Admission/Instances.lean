/-
Module: HostControl.Proofs.Admission.Instances
Purpose: Any number of instances count in one cache, each by its own clock, and their checks, the cache's
  commands and what is lost of them interleave in any order. No counter ends while an instance may still
  count in it, so the checks of a window are counted one after another.
Main exports: Check, World, Step, Reached, Prompt, Tally, Tally.counts, Tally.ends
-/
import HostControl.Proofs.Admission.Counter

namespace HostControl.Admission

variable {ι : Type}

/-! ### Instances, their checks and the cache between them -/

/-- A check of a request: the instance that makes it, its tier, and the instance's clock as read when the
check began. -/
structure Check (ι : Type) where
  node : ι
  tier : Tier
  clock : Clock

namespace Check

/-- The window in which a check counts. -/
def window (c : Check ι) : Window := .covering c.tier c.clock.now

/-- The key under which a check counts. -/
def key (c : Check ι) : String := windowKey c.tier c.clock.now

theorem key_eq (c : Check ι) : c.key = c.window.key := windowKey_eq c.tier c.clock.now

end Check

/-- How a check was decided: by the count that the cache told, or, where none was told, by the instance on
its own. -/
inductive Verdict where
  | shared (ruling : Controller.Ruling)
  | alone (ruling : Controller.Ruling)

/-- Instances and the cache that they share, at a time that is the same for all. For the checks, which have
numbers, it holds when each was counted and as which count, and how it was decided. It holds the commands
that are on their way to set the end of a counter, and all that were sent, and for each window the checks
that were counted in it, in that order. -/
structure World (ι : Type) where
  now : Span
  nodes : ι → Controller
  store : Store
  checks : Nat → Option (Check ι)
  counts : Nat → Option (Span × Nat)
  verdicts : Nat → Option Verdict
  order : Window → List Nat
  flying : List Cache.Command
  sent : List Cache.Command

/-- Instances with an empty cache, before any check. -/
def World.start (nodes : ι → Controller) : World ι where
  now := 0
  nodes
  store := fun _ => none
  checks := fun _ => none
  counts := fun _ => none
  verdicts := fun _ => none
  order := fun _ => []
  flying := []
  sent := []

/-- What can happen. The clock of each instance shows a time of day of its own and runs like all others. -/
inductive Step (origin : ι → Instant) : World ι → World ι → Prop where
  /-- Time passes. -/
  | passes {w : World ι} (d : Span) : Step origin w { w with now := w.now + d }
  /-- An instance begins a check: it reads its clock and asks the cache to count. -/
  | begins {w : World ι} {n : Nat} (node : ι) (tier : Tier) :
      w.checks n = none →
      Step origin w
        { w with checks := Function.update w.checks n (some { node, tier, clock := ⟨origin node, w.now⟩ }) }
  /-- The cache counts a check, be it that the instance has given it up. -/
  | counts {w : World ι} {n : Nat} {c : Check ι} :
      w.checks n = some c → w.counts n = none →
      Step origin w
        { w with
          store := (w.store.increment w.now c.key).2
          counts := Function.update w.counts n (some (w.now, (w.store.increment w.now c.key).1))
          order := Function.update w.order c.window (w.order c.window ++ [n]) }
  /-- The count arrives, and the check is decided by it. -/
  | answers {w : World ι} {n : Nat} {c : Check ι} {time : Span} {count : Nat} {ctx : Context}
      {answers : Cache.Answers} {ruling : Controller.Ruling} {nodes : ι → Controller} :
      w.checks n = some c → w.counts n = some (time, count) → w.verdicts n = none →
      (answers.increment c.key).2 = .ok (count : Int) →
      (w.nodes c.node).check ctx c.tier c.clock answers = .ok (ruling, nodes c.node) →
      (∀ i, i ≠ c.node → nodes i = w.nodes i) →
      Step origin w
        { w with
          nodes
          verdicts := Function.update w.verdicts n (some (.shared ruling))
          flying := w.flying ++ ruling.commands.tail
          sent := w.sent ++ ruling.commands.tail }
  /-- No count arrives: the command was refused, or it was lost, or its answer was. -/
  | fails {w : World ι} {n : Nat} {c : Check ι} {ctx : Context} {e : Cache.Error} {answers : Cache.Answers}
      {ruling : Controller.Ruling} {nodes : ι → Controller} :
      w.checks n = some c → w.verdicts n = none →
      (answers.increment c.key).2 = .error e →
      (w.nodes c.node).check ctx c.tier c.clock answers = .ok (ruling, nodes c.node) →
      (∀ i, i ≠ c.node → nodes i = w.nodes i) →
      Step origin w
        { w with
          nodes
          verdicts := Function.update w.verdicts n (some (.alone ruling))
          flying := w.flying ++ ruling.commands.tail
          sent := w.sent ++ ruling.commands.tail }
  /-- The cache is told the end of a counter. -/
  | ends {w : World ι} {key : String} {seconds : Nat} :
      .expire key seconds ∈ w.flying →
      Step origin w
        { w with
          store := w.store.expire w.now key seconds
          flying := w.flying.erase (.expire key seconds) }
  /-- A command is lost on its way. -/
  | loses {w : World ι} {command : Cache.Command} :
      command ∈ w.flying → Step origin w { w with flying := w.flying.erase command }

/-- What can be reached from a beginning, step by step. -/
inductive Reached (origin : ι → Instant) (start : World ι) : World ι → Prop where
  | start : Reached origin start start
  | step {w w' : World ι} : Reached origin start w → Step origin w w' → Reached origin start w'

/-- The clocks of any two instances are so close, and each check is counted so soon after its instance has
read the clock, that the difference and the delay together are no more than a minute. -/
def Prompt (origin : ι → Instant) (w : World ι) : Prop :=
  ∀ n c time count, w.checks n = some c → w.counts n = some (time, count) →
    ∀ i j, ((origin i).totalNanos - (origin j).totalNanos).natAbs + (time - c.clock.elapsed) ≤
      Span.ofSeconds 60

/-- What is known under one number stays when something is entered under a free one. -/
theorem update_free {α : Type} {f : Nat → Option α} {n m : Nat} {x : α} (free : f n = none) (y : Option α)
    (known : f m = some x) : Function.update f n y m = some x := by
  refine (Function.update_of_ne ?_ _ _).trans known
  rintro rfl
  rw [free] at known
  cases known

section

variable {origin : ι → Instant} {w w' : World ι}

/-- What is known of a check stays. -/
theorem Step.keeps (step : Step origin w w') :
    (∀ n c, w.checks n = some c → w'.checks n = some c) ∧ ∀ n x, w.counts n = some x → w'.counts n = some x := by
  cases step with
  | begins node tier free => exact ⟨fun n c => update_free free _, fun n x counted => counted⟩
  | counts begun uncounted => exact ⟨fun n c made => made, fun n x => update_free uncounted _⟩
  | _ => exact ⟨fun n c made => made, fun n x counted => counted⟩

/-- If all that was counted by now was counted promptly, so was all that was counted before. -/
theorem Prompt.before (step : Step origin w w') (prompt : Prompt origin w') : Prompt origin w :=
  fun n c time count made counted =>
    prompt n c time count (step.keeps.1 n c made) (step.keeps.2 n _ counted)

/-! ### The counters -/

/-- The counters agree with the checks that were counted: each check was counted at its place in the order,
and the counter of a window stands at the number of all and ends, if it does, no sooner than its time after
the first one. -/
structure Tally (origin : ι → Instant) (w : World ι) : Prop where
  read : ∀ n c, w.checks n = some c → c.clock.origin = origin c.node ∧ c.clock.elapsed ≤ w.now
  placed : ∀ n time count, w.counts n = some (time, count) → ∃ c p, w.checks n = some c ∧ count = p + 1 ∧
    (w.order c.window)[p]? = some n ∧ c.clock.elapsed ≤ time ∧ time ≤ w.now
  listed : ∀ v p n, (w.order v)[p]? = some n → ∃ c time, w.checks n = some c ∧ c.window = v ∧
    w.counts n = some (time, p + 1)
  unused : ∀ v, w.order v = [] → w.store v.key = none
  stands : ∀ v n time, (w.order v)[0]? = some n → w.counts n = some (time, 1) →
    ∃ ends, w.store v.key = some ⟨(w.order v).length, ends⟩ ∧
      ∀ e ∈ ends, time + Span.ofSeconds windowExpiry ≤ e
  flying : ∀ command ∈ w.flying, ∃ v, w.order v ≠ [] ∧ command = .expire v.key windowExpiry

theorem tally_start (origin : ι → Instant) (nodes : ι → Controller) : Tally origin (World.start nodes) where
  read := nofun
  placed := nofun
  listed := nofun
  unused := fun _ _ => rfl
  stands := nofun
  flying := nofun

/-- The minute that an instance shows, in terms of the time for all. -/
theorem minute_read {n : Nat} {c : Check ι} (tally : Tally origin w) (begun : w.checks n = some c) :
    c.window.minute = ((origin c.node).totalNanos + c.clock.elapsed) / minuteNanos := by
  simp only [Check.window, Window.covering, Clock.now, Clock.timeAt, Instant.after, minuteOf_ofNanos,
    (tally.read n c begun).1]

/-- Two checks of one window, the later one of which is counted promptly, are less than two minutes apart. -/
theorem counted_soon {n m : Nat} {c d : Check ι} {time : Span} (tally : Tally origin w)
    (first : w.checks n = some c) (other : w.checks m = some d) (same : c.window = d.window)
    (prompt : ∀ i j, ((origin i).totalNanos - (origin j).totalNanos).natAbs + (time - d.clock.elapsed) ≤
      Span.ofSeconds 60) :
    time < c.clock.elapsed + Span.ofSeconds windowExpiry := by
  have minutes := minute_read tally first
  rw [same, minute_read tally other] at minutes
  have near := prompt c.node d.node
  simp only [minuteNanos, windowExpiry, Span.ofSeconds, Span.second] at *
  unfold Span at *
  omega

/-- The counter that a prompt check finds stands at the number of those before, and keeps its end. -/
theorem live_eq {n : Nat} {c : Check ι} (tally : Tally origin w) (begun : w.checks n = some c)
    (prompt : ∀ i j, ((origin i).totalNanos - (origin j).totalNanos).natAbs + (w.now - c.clock.elapsed) ≤
      Span.ofSeconds 60) :
    ∃ ends, (w.store.live w.now c.key).getD {} = ⟨(w.order c.window).length, ends⟩ ∧
      (w.order c.window = [] → ends = none) ∧
      ∀ m time, (w.order c.window)[0]? = some m → w.counts m = some (time, 1) →
        ∀ e ∈ ends, time + Span.ofSeconds windowExpiry ≤ e := by
  rw [c.key_eq]
  cases listed : w.order c.window with
  | nil =>
    rw [Store.live_of_none (tally.unused _ listed)]
    exact ⟨none, rfl, fun _ => rfl, nofun⟩
  | cons first later =>
    have head : (w.order c.window)[0]? = some first := by rw [listed]; rfl
    obtain ⟨d, time, made, window, counted⟩ := tally.listed _ 0 _ head
    obtain ⟨ends, stands, after⟩ := tally.stands _ _ _ head counted
    obtain ⟨d', _, made', _, _, read, _⟩ := tally.placed _ _ _ counted
    obtain rfl : d = d' := Option.some.inj (made.symm.trans made')
    have soon := counted_soon tally made begun window prompt
    rw [Store.live_of_some stands fun e listed => ?_]
    · refine ⟨ends, by rw [listed]; rfl, nofun, ?_⟩
      intro m time' first' counted'
      rw [← listed, head] at first'
      cases first'
      rw [counted] at counted'
      cases counted'
      exact after
    · have := after e listed
      unfold Span at *
      omega

/-- A place in the order of a window is an old one, or it is the new one. -/
theorem place_iff (order : Window → List Nat) (v u : Window) (n p m : Nat) :
    (Function.update order v (order v ++ [n]) u)[p]? = some m ↔
      (order u)[p]? = some m ∨ u = v ∧ p = (order v).length ∧ m = n := by
  by_cases own : u = v
  · subst own
    rw [Function.update_self, List.getElem?_append]
    split
    · next old =>
      constructor
      · exact .inl
      · rintro (listed | ⟨_, rfl, _⟩)
        · exact listed
        · exact absurd old (Nat.lt_irrefl _)
    · next beyond =>
      have none_old : (order u)[p]? = none := List.getElem?_eq_none (Nat.not_lt.1 beyond)
      rw [List.getElem?_singleton, none_old]
      split
      · next zero =>
        have last : p = (order u).length := by omega
        simp [last, eq_comm]
      · next later =>
        have other : p ≠ (order u).length := by omega
        simp [other]
  · rw [Function.update_of_ne own]
    simp [own]

/-- The counters keep agreeing when one more check is counted. -/
theorem Tally.counts {n : Nat} {c : Check ι} (tally : Tally origin w) (begun : w.checks n = some c)
    (uncounted : w.counts n = none)
    (prompt : ∀ i j, ((origin i).totalNanos - (origin j).totalNanos).natAbs + (w.now - c.clock.elapsed) ≤
      Span.ofSeconds 60) :
    Tally origin
      { w with
        store := (w.store.increment w.now c.key).2
        counts := Function.update w.counts n (some (w.now, (w.store.increment w.now c.key).1))
        order := Function.update w.order c.window (w.order c.window ++ [n]) } := by
  obtain ⟨ends, live, new, after⟩ := live_eq tally begun prompt
  have increment : w.store.increment w.now c.key = ((w.order c.window).length + 1,
      Function.update w.store c.window.key (some ⟨(w.order c.window).length + 1, ends⟩)) := by
    rw [Store.increment, live, c.key_eq]
  rw [increment]
  constructor <;> dsimp only
  case read => exact tally.read
  case placed =>
    intro m time count counted
    by_cases own : m = n
    · subst own
      rw [Function.update_self] at counted
      cases counted
      exact ⟨c, _, begun, rfl, (place_iff ..).2 (.inr ⟨rfl, rfl, rfl⟩), (tally.read _ _ begun).2,
        Nat.le_refl _⟩
    · rw [Function.update_of_ne own] at counted
      obtain ⟨d, p, made, place, listed, times⟩ := tally.placed _ _ _ counted
      exact ⟨d, p, made, place, (place_iff ..).2 (.inl listed), times⟩
  case listed =>
    intro v p m listed
    rcases (place_iff ..).1 listed with old | ⟨rfl, rfl, rfl⟩
    · obtain ⟨d, time, made, window, counted⟩ := tally.listed _ _ _ old
      exact ⟨d, time, made, window, update_free uncounted _ counted⟩
    · exact ⟨c, w.now, begun, rfl, Function.update_self ..⟩
  case unused =>
    intro v none_counted
    by_cases own : v = c.window
    · subst own
      rw [Function.update_self] at none_counted
      simp at none_counted
    · rw [Function.update_of_ne own] at none_counted
      rw [Function.update_of_ne fun same => own (key_injective same)]
      exact tally.unused v none_counted
  case stands =>
    intro v m time first counted
    by_cases own : v = c.window
    · subst own
      refine ⟨ends, ?_, ?_⟩
      · rw [Function.update_self, Function.update_self, List.length_append, List.length_singleton]
      · rcases (place_iff ..).1 first with old | ⟨_, empty, rfl⟩
        · obtain ⟨_, time', _, _, counted'⟩ := tally.listed _ _ _ old
          cases (update_free uncounted _ counted').symm.trans counted
          exact after m time old counted'
        · rw [new (List.eq_nil_of_length_eq_zero empty.symm)]
          exact nofun
    · rw [Function.update_of_ne own] at first
      obtain ⟨_, time', _, _, counted'⟩ := tally.listed _ _ _ first
      cases (update_free uncounted _ counted').symm.trans counted
      obtain ⟨ends', stands, after'⟩ := tally.stands v m time first counted'
      refine ⟨ends', ?_, after'⟩
      rw [Function.update_of_ne own, Function.update_of_ne fun same => own (key_injective same)]
      exact stands
  case flying =>
    intro command listed
    obtain ⟨v, some_counted, rfl⟩ := tally.flying command listed
    refine ⟨v, ?_, rfl⟩
    by_cases own : v = c.window
    · subst own
      rw [Function.update_self]
      simp
    · rwa [Function.update_of_ne own]

/-- The counters keep agreeing when another check is begun. -/
theorem Tally.begins {n : Nat} (tally : Tally origin w) (free : w.checks n = none) (node : ι) (tier : Tier) :
    Tally origin
      { w with checks := Function.update w.checks n (some { node, tier, clock := ⟨origin node, w.now⟩ }) } := by
  refine { tally with read := ?read, placed := ?placed, listed := ?listed }
  case read =>
    intro m d made
    by_cases own : m = n
    · subst own
      cases (Function.update_self ..).symm.trans made
      exact ⟨rfl, Nat.le_refl _⟩
    · exact tally.read m d ((Function.update_of_ne own _ _).symm.trans made)
  case placed =>
    intro m time count counted
    obtain ⟨d, p, made, place⟩ := tally.placed m time count counted
    exact ⟨d, p, update_free free _ made, place⟩
  case listed =>
    intro v p m listed
    obtain ⟨d, time, made, rest⟩ := tally.listed v p m listed
    exact ⟨d, time, update_free free _ made, rest⟩

/-- The counters keep agreeing when commands are sent that set the end of counters in use. -/
theorem Tally.sends (tally : Tally origin w) {more : List Cache.Command}
    (known : ∀ command ∈ more, ∃ v, w.order v ≠ [] ∧ command = .expire v.key windowExpiry)
    (nodes : ι → Controller) (verdicts : Nat → Option Verdict) (sent : List Cache.Command) :
    Tally origin { w with nodes, verdicts, flying := w.flying ++ more, sent } := by
  refine { tally with flying := ?_ }
  intro command listed
  rcases List.mem_append.1 listed with old | new
  · exact tally.flying command old
  · exact known command new

/-- The counters keep agreeing when one is told its end: that is no sooner than its time from now, and the
first check was counted before. -/
theorem Tally.ends (tally : Tally origin w) {key : String} {seconds : Nat}
    (listed : .expire key seconds ∈ w.flying) :
    Tally origin
      { w with store := w.store.expire w.now key seconds, flying := w.flying.erase (.expire key seconds) } := by
  obtain ⟨u, some_counted, same⟩ := tally.flying _ listed
  obtain ⟨rfl, rfl⟩ := Cache.Command.expire.inj same
  refine { tally with unused := ?unused, stands := ?stands, flying := ?flying }
  case unused =>
    intro v none_counted
    have other : v.key ≠ u.key := fun same => some_counted (key_injective same ▸ none_counted)
    exact (Store.expire_other other _).trans (tally.unused v none_counted)
  case stands =>
    intro v n time first counted
    obtain ⟨ends, stands, after⟩ := tally.stands v n time first counted
    obtain ⟨_, _, _, _, _, _, past⟩ := tally.placed n time 1 counted
    by_cases own : v = u
    · subst own
      obtain ⟨ends', stands', rfl | rfl⟩ := Store.expire_self w.now stands windowExpiry
      · exact ⟨_, stands', after⟩
      · refine ⟨_, stands', ?_⟩
        rintro _ ⟨⟩
        exact Nat.add_le_add_right past _
    · exact ⟨ends, (Store.expire_other (mt key_injective own) _).trans stands, after⟩
  case flying => exact fun command listed => tally.flying command (List.mem_of_mem_erase listed)

end

end HostControl.Admission
