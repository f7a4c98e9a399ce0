/-
Module: HostControl.Proofs.Admission.SharedWindow
Purpose: What instances that count in one cache admit together. Each count is told once, so of the checks of
  a window that are told their counts the first ones are admitted, and one check sets the end of the counter.
Main exports: Told, step_keeps, reached_keeps, shared_window_limit
-/
import HostControl.Proofs.Admission.Instances
import Mathlib.Data.List.Perm.Subperm

namespace HostControl.Admission

variable {ι : Type}

section

variable {origin : ι → Instant} {w w' : World ι}

/-! ### The decisions -/

/-- Whether a command sets the end of the counter under a key. -/
def setsEnd (key : String) : Cache.Command → Bool
  | .expire other _ => other = key
  | _ => false

/-- The check that was counted first in a window has been told its count. -/
def FirstTold (w : World ι) (v : Window) : Prop :=
  ∃ n ruling, (w.order v)[0]? = some n ∧ w.verdicts n = some (.shared ruling)

/-- The decisions agree with the counters: a check that was told its count was decided by it, and one command
has been sent to set the end of a counter if the first check has been told its count, and none before. -/
structure Told (rate : Tier → Nat) (w : World ι) : Prop where
  rates : ∀ i, (w.nodes i).CountsAt rate
  asked : ∀ n verdict, w.verdicts n = some verdict → ∃ c, w.checks n = some c
  decided : ∀ n ruling, w.verdicts n = some (.shared ruling) → ∃ c time count, w.checks n = some c ∧
    w.counts n = some (time, count) ∧
    ruling.decision = .ofCount c.tier.label (rate c.tier) c.clock.now count
  once : ∀ v, FirstTold w v → w.sent.countP (setsEnd v.key) = 1
  never : ∀ v, ¬ FirstTold w v → w.sent.countP (setsEnd v.key) = 0

variable {rate : Tier → Nat}

theorem told_start {nodes : ι → Controller} (alike : ∀ i, (nodes i).CountsAt rate) :
    Told rate (World.start nodes) where
  rates := alike
  asked := nofun
  decided := nofun
  once := nofun
  never := fun _ _ => rfl

/-- What is sent stays right as long as the first checks that were told their counts stay the same. -/
theorem Told.of_firstTold (told : Told rate w) (rates : ∀ i, (w'.nodes i).CountsAt rate)
    (asked : ∀ n verdict, w'.verdicts n = some verdict → ∃ c, w'.checks n = some c)
    (decided : ∀ n ruling, w'.verdicts n = some (.shared ruling) → ∃ c time count, w'.checks n = some c ∧
      w'.counts n = some (time, count) ∧
      ruling.decision = .ofCount c.tier.label (rate c.tier) c.clock.now count)
    (same : ∀ v, FirstTold w' v ↔ FirstTold w v) (sent : w'.sent = w.sent) : Told rate w' where
  rates := rates
  asked := asked
  decided := decided
  once := fun v first => by rw [sent]; exact told.once v ((same v).1 first)
  never := fun v first => by rw [sent]; exact told.never v (mt (same v).2 first)

theorem Told.begins {n : Nat} (told : Told rate w) (free : w.checks n = none) (c : Check ι) :
    Told rate { w with checks := Function.update w.checks n (some c) } := by
  refine told.of_firstTold told.rates ?_ ?_ (fun v => Iff.rfl) rfl
  · intro m verdict ruled
    obtain ⟨d, made⟩ := told.asked m verdict ruled
    exact ⟨d, update_free free _ made⟩
  · intro m ruling ruled
    obtain ⟨d, time, count, made, counted, decision⟩ := told.decided m ruling ruled
    exact ⟨d, time, count, update_free free _ made, counted, decision⟩

theorem Told.counts {n : Nat} {x : Span × Nat} (told : Told rate w) (uncounted : w.counts n = none)
    (store : Store) (v : Window) :
    Told rate
      { w with
        store
        counts := Function.update w.counts n (some x)
        order := Function.update w.order v (w.order v ++ [n]) } := by
  have untold : ∀ ruling, w.verdicts n ≠ some (.shared ruling) := by
    intro ruling ruled
    obtain ⟨_, _, _, _, counted, _⟩ := told.decided n ruling ruled
    rw [uncounted] at counted
    cases counted
  refine told.of_firstTold told.rates told.asked ?_ ?_ rfl
  · intro m ruling ruled
    obtain ⟨d, time, count, made, counted, decision⟩ := told.decided m ruling ruled
    exact ⟨d, time, count, made, update_free uncounted _ counted, decision⟩
  · intro u
    constructor
    · rintro ⟨m, ruling, first, ruled⟩
      rcases (place_iff ..).1 first with old | ⟨_, _, rfl⟩
      · exact ⟨m, ruling, old, ruled⟩
      · exact absurd ruled (untold ruling)
    · rintro ⟨m, ruling, first, ruled⟩
      exact ⟨m, ruling, (place_iff ..).2 (.inl first), ruled⟩

/-- A controller of each instance counts at its rates when one of them does so anew. -/
theorem rates_of_others {nodes : ι → Controller} {node : ι} (told : Told rate w)
    (others : ∀ i, i ≠ node → nodes i = w.nodes i) (own : (nodes node).CountsAt rate) (i : ι) :
    (nodes i).CountsAt rate := by
  by_cases same : i = node
  · exact same ▸ own
  · rw [others i same]
    exact told.rates i

/-- A check that is told its count is decided by it. If it was the first to be counted, it sends the command
that sets the end of the counter, which nobody has sent before. -/
theorem Told.answers {n : Nat} {c : Check ι} {time : Span} {count : Nat} {ruling : Controller.Ruling}
    {nodes : ι → Controller} (told : Told rate w) (tally : Tally origin w) (begun : w.checks n = some c)
    (counted : w.counts n = some (time, count)) (open_yet : w.verdicts n = none)
    (decision : ruling.decision = .ofCount c.tier.label (rate c.tier) c.clock.now count)
    (more : ruling.commands.tail = if (count : Int) = 1 then [.expire c.key windowExpiry] else [])
    (rates : ∀ i, (nodes i).CountsAt rate) (flying : List Cache.Command) :
    Told rate
      { w with
        nodes
        verdicts := Function.update w.verdicts n (some (.shared ruling))
        flying
        sent := w.sent ++ ruling.commands.tail } := by
  obtain ⟨d, p, begun', rfl, place, _⟩ := tally.placed n time count counted
  obtain rfl : c = d := Option.some.inj (begun.symm.trans begun')
  -- The check is the first one of its own window if its count is one, and of no other window.
  have first_iff : ∀ v, (w.order v)[0]? = some n ↔ v = c.window ∧ p = 0 := by
    intro v
    constructor
    · intro first
      obtain ⟨d, _, begun', window, counted'⟩ := tally.listed v 0 n first
      obtain rfl : c = d := Option.some.inj (begun.symm.trans begun')
      rw [counted] at counted'
      cases counted'
      exact ⟨window.symm, rfl⟩
    · rintro ⟨rfl, rfl⟩
      exact place
  have untold : ∀ v, (w.order v)[0]? = some n → ¬ FirstTold w v := by
    rintro v first ⟨m, ruling', first', ruled⟩
    rw [first] at first'
    cases first'
    rw [open_yet] at ruled
    cases ruled
  have becomes : ∀ v, FirstTold { w with
      nodes
      verdicts := Function.update w.verdicts n (some (.shared ruling))
      flying
      sent := w.sent ++ ruling.commands.tail } v ↔ FirstTold w v ∨ v = c.window ∧ p = 0 := by
    intro v
    rw [← first_iff v]
    constructor
    · rintro ⟨m, ruling', first, ruled⟩
      by_cases own : m = n
      · subst own
        exact .inr first
      · exact .inl ⟨m, ruling', first, (Function.update_of_ne own _ _).symm.trans ruled⟩
    · rintro (⟨m, ruling', first, ruled⟩ | first)
      · exact ⟨m, ruling', first, update_free open_yet _ ruled⟩
      · exact ⟨n, ruling, first, Function.update_self ..⟩
  have sends : ∀ v : Window, (w.sent ++ ruling.commands.tail).countP (setsEnd v.key) =
      w.sent.countP (setsEnd v.key) + if v = c.window ∧ p = 0 then 1 else 0 := by
    intro v
    have keys : c.key = v.key ↔ v = c.window := by
      rw [c.key_eq]
      exact ⟨fun same => (key_injective same).symm, fun same => same ▸ rfl⟩
    rw [List.countP_append, more]
    by_cases zero : p = 0
    · simp [zero, setsEnd, keys]
    · have several : ¬ ((p + 1 : Nat) : Int) = 1 := by omega
      rw [if_neg several, if_neg fun own => zero own.2, List.countP_nil]
  refine { rates, asked := ?asked, decided := ?decided, once := ?once, never := ?never }
  case asked =>
    intro m verdict ruled
    by_cases own : m = n
    · exact ⟨c, own ▸ begun⟩
    · exact told.asked m verdict ((Function.update_of_ne own _ _).symm.trans ruled)
  case decided =>
    intro m ruling' ruled
    by_cases own : m = n
    · subst own
      cases (Function.update_self ..).symm.trans ruled
      exact ⟨c, time, p + 1, begun, counted, decision⟩
    · exact told.decided m ruling' ((Function.update_of_ne own _ _).symm.trans ruled)
  case once =>
    intro v first
    rw [sends]
    rcases (becomes v).1 first with before | now
    · have other : ¬ (v = c.window ∧ p = 0) := fun own => untold v ((first_iff v).2 own) before
      rw [told.once v before, if_neg other]
    · rw [told.never v (untold v ((first_iff v).2 now)), if_pos now]
  case never =>
    intro v untold_yet
    rw [becomes v, not_or] at untold_yet
    rw [sends, told.never v untold_yet.1, if_neg untold_yet.2]

/-- A check that is told no count changes nothing in that. -/
theorem Told.fails {n : Nat} {c : Check ι} {ruling : Controller.Ruling} {nodes : ι → Controller}
    (told : Told rate w) (begun : w.checks n = some c) (open_yet : w.verdicts n = none)
    (rates : ∀ i, (nodes i).CountsAt rate) (flying : List Cache.Command) :
    Told rate
      { w with
        nodes
        verdicts := Function.update w.verdicts n (some (.alone ruling))
        flying } := by
  have shared_iff : ∀ m ruling', Function.update w.verdicts n (some (.alone ruling)) m =
      some (.shared ruling') ↔ w.verdicts m = some (.shared ruling') := by
    intro m ruling'
    by_cases own : m = n
    · subst own
      simp [open_yet]
    · rw [Function.update_of_ne own]
  refine told.of_firstTold rates ?_ ?_ ?_ rfl
  · intro m verdict ruled
    by_cases own : m = n
    · exact ⟨c, own ▸ begun⟩
    · exact told.asked m verdict ((Function.update_of_ne own _ _).symm.trans ruled)
  · exact fun m ruling' ruled => told.decided m ruling' ((shared_iff m ruling').1 ruled)
  · intro v
    exact exists_congr fun m => exists_congr fun ruling' => and_congr_right fun _ => shared_iff m ruling'

/-! ### Steps and runs -/

/-- A step keeps the counters and the decisions in agreement with the checks. -/
theorem step_keeps (tally : Tally origin w) (told : Told rate w) (step : Step origin w w')
    (prompt : Prompt origin w') : Tally origin w' ∧ Told rate w' := by
  cases step with
  | passes d =>
    refine ⟨{ tally with read := ?read, placed := ?placed }, { told with }⟩
    case read =>
      intro n c made
      obtain ⟨shown, past⟩ := tally.read n c made
      exact ⟨shown, Nat.le_trans past (Nat.le_add_right _ _)⟩
    case placed =>
      intro n time count counted
      obtain ⟨c, p, made, place, listed, read, past⟩ := tally.placed n time count counted
      exact ⟨c, p, made, place, listed, read, Nat.le_trans past (Nat.le_add_right _ _)⟩
  | @begins n node tier free => exact ⟨tally.begins free node tier, told.begins free _⟩
  | @counts n c begun uncounted =>
    have soon := prompt n c w.now _ begun (Function.update_self ..)
    exact ⟨tally.counts begun uncounted soon, told.counts uncounted _ _⟩
  | @answers n c time count ctx answers ruling nodes begun counted open_yet answered done others =>
    obtain ⟨ruling', done', decision, commands⟩ :=
      Controller.check_of_count ctx (told.rates c.node) answered
    obtain ⟨rfl, same⟩ := Prod.mk.inj (Except.ok.inj (done.symm.trans done'))
    have more : ruling.commands.tail = if (count : Int) = 1 then [.expire c.key windowExpiry] else [] := by
      rw [commands]
      rfl
    have rates := rates_of_others told others (same.symm ▸ told.rates c.node)
    refine ⟨tally.sends ?_ _ _ _, told.answers tally begun counted open_yet decision more rates _⟩
    intro command listed
    rw [more] at listed
    split at listed
    · obtain ⟨d, p, begun', _, place, _⟩ := tally.placed n time count counted
      obtain rfl : c = d := Option.some.inj (begun.symm.trans begun')
      refine ⟨c.window, ?_, by rw [← c.key_eq]; exact List.mem_singleton.1 listed⟩
      intro none_counted
      rw [none_counted] at place
      cases place
    · cases listed
  | @fails n c ctx e answers ruling nodes begun open_yet failed done others =>
    obtain ⟨own, commands⟩ := Controller.check_of_failure (told.rates c.node) failed done
    have rates := rates_of_others told others own
    rw [commands, List.tail_cons, List.append_nil, List.append_nil]
    exact ⟨{ tally with }, told.fails begun open_yet rates _⟩
  | ends listed => exact ⟨tally.ends listed, { told with }⟩
  | loses listed =>
    refine ⟨{ tally with flying := ?flying }, { told with }⟩
    exact fun command kept => tally.flying command (List.mem_of_mem_erase kept)

/-- Whatever happens, the counters and the decisions agree with the checks, as long as clocks and delays
allow it. -/
theorem reached_keeps {nodes : ι → Controller} (alike : ∀ i, (nodes i).CountsAt rate)
    (reached : Reached origin (World.start nodes) w) (prompt : Prompt origin w) :
    Tally origin w ∧ Told rate w := by
  induction reached with
  | start => exact ⟨tally_start origin nodes, told_start alike⟩
  | step _ step ih =>
    obtain ⟨tally, told⟩ := ih (prompt.before step)
    exact step_keeps tally told step prompt

/-! ### The limit of a window -/

/-- Whether a check was admitted by the count that it was told. -/
def World.admits (w : World ι) (n : Nat) : Bool :=
  match w.verdicts n with
  | some (.shared ruling) => ruling.decision.allowed
  | _ => false

/-- A check that was told its count is admitted if its place in the order is among the first ones. -/
theorem admits_iff (tally : Tally origin w) (told : Told rate w) {v : Window} {p n : Nat}
    {ruling : Controller.Ruling} (listed : (w.order v)[p]? = some n)
    (ruled : w.verdicts n = some (.shared ruling)) :
    ruling.decision.allowed = true ↔ p < rate v.tier * 60 := by
  obtain ⟨c, time, begun, rfl, counted⟩ := tally.listed v p n listed
  obtain ⟨d, time', count, begun', counted', decision⟩ := told.decided n ruling ruled
  obtain rfl : c = d := Option.some.inj (begun.symm.trans begun')
  rw [counted] at counted'
  cases counted'
  rw [decision]
  simp only [Decision.ofCount, decide_eq_true_eq, Int.toNat_natCast, Check.window, Window.covering]
  exact Nat.succ_le_iff

/-- A check that was admitted has one of the first places in the order of its window. -/
theorem mem_take_of_admits (tally : Tally origin w) (told : Told rate w) {n : Nat} {c : Check ι}
    (begun : w.checks n = some c) (admitted : w.admits n = true) :
    n ∈ (w.order c.window).take (rate c.window.tier * 60) := by
  unfold World.admits at admitted
  split at admitted
  · next ruling ruled =>
    obtain ⟨c', time, count, begun', counted, _⟩ := told.decided n ruling ruled
    obtain ⟨d, p, begun'', rfl, place, _⟩ := tally.placed n time count counted
    obtain rfl : c = d := Option.some.inj (begun.symm.trans begun'')
    have early := (admits_iff tally told place ruled).1 admitted
    apply List.mem_of_getElem?
    rw [List.getElem?_take_of_lt early]
    exact place
  · cases admitted

/-- The elements at the first places are those that a test accepts, if it goes by the place. -/
theorem filter_eq_take {α : Type} {test : α → Bool} {l : List α} {k : Nat}
    (by_place : ∀ p x, l[p]? = some x → (test x = true ↔ p < k)) : l.filter test = l.take k := by
  induction l generalizing k with
  | nil => rw [List.take_nil, List.filter_nil]
  | cons x later ih =>
    have first := by_place 0 x rfl
    cases k with
    | zero =>
      have none_later := @ih 0 fun p y listed => by
        rw [by_place (p + 1) y listed]
        simp
      rw [List.filter_cons_of_neg (by simp [first]), none_later, List.take_zero, List.take_zero]
    | succ k =>
      have rest := @ih k fun p y listed => by
        rw [by_place (p + 1) y listed]
        exact Nat.succ_lt_succ_iff
      rw [List.filter_cons_of_pos (first.2 (Nat.succ_pos k)), rest, List.take_succ_cons]

end

/-- Any number of instances that count at the same rates in one cache, in any course of their checks and of
what becomes of the commands that they send, where the clocks and the delays allow it.

In each window, that is for each tier and minute, no more of the checks that were told their counts are
admitted than the limit of the window. More closely, a check that was told its count is admitted if it was
counted among the first ones, up to the limit, and is refused else. As soon as the check that was counted
first has been told so, one command has been sent to set the end of the counter, and before that none. So if
all that were counted have been told their counts, the admitted ones are just the first ones up to the limit,
and one command was sent to set the end, if any was counted. -/
theorem shared_window_limit {ι : Type} {origin : ι → Instant} {rate : Tier → Nat} {nodes : ι → Controller}
    (alike : ∀ i, (nodes i).CountsAt rate) {w : World ι} (reached : Reached origin (World.start nodes) w)
    (prompt : Prompt origin w) (v : Window) :
    (∀ ns : List Nat, ns.Nodup →
      (∀ n ∈ ns, w.admits n = true ∧ ∃ c, w.checks n = some c ∧ c.window = v) →
        ns.length ≤ rate v.tier * 60) ∧
    (∀ p n ruling, (w.order v)[p]? = some n → w.verdicts n = some (.shared ruling) →
      (ruling.decision.allowed = true ↔ p < rate v.tier * 60)) ∧
    ((FirstTold w v → w.sent.countP (setsEnd v.key) = 1) ∧
      (¬ FirstTold w v → w.sent.countP (setsEnd v.key) = 0)) ∧
    ((∀ n ∈ w.order v, ∃ ruling, w.verdicts n = some (.shared ruling)) →
      (w.order v).filter w.admits = (w.order v).take (rate v.tier * 60) ∧
        (w.order v ≠ [] → w.sent.countP (setsEnd v.key) = 1)) := by
  obtain ⟨tally, told⟩ := reached_keeps alike reached prompt
  refine ⟨?bounded, fun p n ruling => admits_iff tally told, ⟨told.once v, told.never v⟩, ?all_told⟩
  case bounded =>
    intro ns distinct admitted
    have among : ns ⊆ (w.order v).take (rate v.tier * 60) := by
      intro n listed
      obtain ⟨accepted, c, begun, rfl⟩ := admitted n listed
      exact mem_take_of_admits tally told begun accepted
    calc
      ns.length ≤ ((w.order v).take (rate v.tier * 60)).length :=
        (List.subperm_of_subset distinct among).length_le
      _ ≤ rate v.tier * 60 := List.length_take_le _ _
  case all_told =>
    intro all
    constructor
    · apply filter_eq_take
      intro p n listed
      obtain ⟨ruling, ruled⟩ := all n (List.mem_of_getElem? listed)
      rw [World.admits, ruled]
      exact admits_iff tally told listed ruled
    · intro some_counted
      obtain ⟨first, later, order⟩ := List.exists_cons_of_ne_nil some_counted
      obtain ⟨ruling, ruled⟩ := all first (by rw [order]; exact List.mem_cons_self)
      exact told.once v ⟨first, ruling, by rw [order]; rfl, ruled⟩

/-- Two instances that count together, and whose clocks differ by ten seconds. -/
private def pair (_ : Bool) : Controller := Controller.of {} true 0
private def apart (late : Bool) : Instant := .ofNanos (if late then 10000000000 else 0)

private theorem pair_counts (i : Bool) :
    (pair i).CountsAt fun tier => ((pair false).bucket tier).quota.rate := ⟨rfl, fun _ => rfl⟩

/-- The checks of the two, each by the clock of its own instance, are counted in one window. -/
private def checkOf (late : Bool) : Check Bool := ⟨late, .global, ⟨apart late, 0⟩⟩

private theorem window_checkOf (late : Bool) : (checkOf late).window = ⟨.global, 0⟩ := by
  cases late <;> decide

private theorem key_checkOf (late : Bool) : (checkOf late).key = Window.key ⟨.global, 0⟩ := by
  rw [Check.key_eq, window_checkOf]

/-- The second check finds the counter that the first one has begun. -/
private theorem second_count :
    ((((World.start pair).store.increment 0 (checkOf true).key).2).increment 0 (checkOf false).key).1 = 2 := by
  rw [key_checkOf, key_checkOf]
  simp [Store.increment, Store.live, World.start, Option.filter_some]

/-- Answers of a cache that tells a count. -/
private def telling (count : Int) : Cache.Answers :=
  { Cache.Answers.absent with increment := fun _ => (none, .ok count) }

/-- Both begin a check in the first minute. One is counted, and then the other; the second one is told so first. -/
private theorem pair_reaches : ∃ w : World Bool, Reached apart (World.start pair) w ∧ Prompt apart w ∧
    w.order ⟨.global, 0⟩ = [0, 1] ∧ ∀ n ∈ [0, 1], ∃ ruling, w.verdicts n = some (.shared ruling) := by
  obtain ⟨first, decided, _⟩ := @Controller.check_of_count .global ⟨apart true, 0⟩ (telling 1) (pair true) _
    (Controller.anonymous "") (pair_counts true) 1 rfl
  obtain ⟨second, decided', _⟩ := @Controller.check_of_count .global ⟨apart false, 0⟩ (telling 2) (pair false) _
    (Controller.anonymous "") (pair_counts false) 2 rfl
  have reached := ((((((@Reached.start _ apart (World.start pair)).step
    (.begins (n := 0) true .global rfl)).step
    (.begins (n := 1) false .global rfl)).step
    (.counts (n := 0) (c := checkOf true) rfl rfl)).step
    (.counts (n := 1) (c := checkOf false) rfl rfl)).step
    (.answers (n := 1) (c := checkOf false) rfl (congrArg (fun count => some (0, count)) second_count) rfl rfl
      decided' (fun i _ => (rfl : pair i = pair i)))).step
    (.answers (n := 0) (c := checkOf true) rfl rfl rfl rfl decided (fun i _ => (rfl : pair i = pair i)))
  refine ⟨_, reached, ?prompt, ?order, ?told⟩
  case prompt =>
    intro n c time count begun counted i j
    match n with
    | 0 | 1 =>
      cases begun
      cases counted
      cases i <;> cases j <;> decide
    | n + 2 => cases begun
  case order =>
    let counted : Window → List Nat := Function.update (fun _ => []) (checkOf true).window [0]
    change Function.update counted (checkOf false).window (counted (checkOf false).window ++ [1]) ⟨.global, 0⟩ = [0, 1]
    have one : counted ⟨.global, 0⟩ = [0] := by simp only [counted, window_checkOf, Function.update_self]
    rw [window_checkOf, Function.update_self, one]
    rfl
  case told =>
    intro n listed
    rcases List.mem_pair.1 listed with rfl | rfl
    · exact ⟨first, rfl⟩
    · exact ⟨second, rfl⟩

/-- Both are admitted, in the order in which they were counted, and the end of the counter was set once. -/
theorem shared_window_limit_pair :
    ∃ w : World Bool, Reached apart (World.start pair) w ∧ Prompt apart w ∧ w.order ⟨.global, 0⟩ = [0, 1] ∧
      (∀ n ∈ [0, 1], ∃ ruling, w.verdicts n = some (.shared ruling)) ∧
      (w.order ⟨.global, 0⟩).filter w.admits = [0, 1] ∧
      w.sent.countP (setsEnd (Window.key ⟨.global, 0⟩)) = 1 := by
  obtain ⟨w, reached, prompt, order, told⟩ := pair_reaches
  obtain ⟨_, _, _, all_told⟩ := shared_window_limit pair_counts reached prompt ⟨.global, 0⟩
  obtain ⟨first_ones, once⟩ := all_told (order ▸ told)
  refine ⟨w, reached, prompt, order, told, ?_, once ?_⟩
  · rw [first_ones, order]
    rfl
  · rw [order]
    exact List.cons_ne_nil _ _

end HostControl.Admission
