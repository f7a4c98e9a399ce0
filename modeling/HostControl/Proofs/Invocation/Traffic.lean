/-
Module: HostControl.Proofs.Invocation.Traffic
Purpose: Calls through one invoker, by any number of callers at once. A call that was let through goes on until
  it is settled, be it by its end or by its token, or until its caller drops it; a call that is dropped tells
  its circuit nothing. So the permits that are out are those of the calls that go on and of those dropped.
Main exports: Traffic, Traffic.Step, Traffic.Leads, permitsTo, Traffic.Follows, follows_of_leads, lastChange,
  openSince_lastChange
-/
import HostControl.Proofs.Invocation.Balance

namespace HostControl.Invocation

variable {α : Type}

/-! ### Calls that go on and calls that are dropped -/

/-- An invoker, the calls that it has let through and that go on, and those that their callers have dropped,
each with its permit. -/
structure Traffic (α : Type) where
  invoker : Invoker
  going : List (Call α × Permit) := []
  dropped : List (Call α × Permit) := []

/-- What happens to calls, and the turn that a circuit takes with it, if one does. -/
inductive Traffic.Step : Traffic α → List Turn → Traffic α → Prop where
  /-- A call is let through. -/
  | admits {t : Traffic α} (call : Call α) (now : Span) {permit : Permit} {events : List Audit.Event}
      {inv : Invoker} :
      t.invoker.enter call now = (.ok permit, events, inv) →
      Step t [⟨.acquire call.service, now⟩] { t with invoker := inv, going := (call, permit) :: t.going }
  /-- A call is refused, and has ended with that. -/
  | refuses {t : Traffic α} (call : Call α) (now : Span) {error : CallError} {events : List Audit.Event}
      {inv : Invoker} :
      t.invoker.enter call now = (.error error, events, inv) →
      Step t [⟨.acquire call.service, now⟩] { t with invoker := inv }
  /-- A call returns, or its token has fired, and it is settled by its account. -/
  | settles {t : Traffic α} {call : Call α} {permit : Permit} {rest : List (Call α × Permit)}
      (account : Account α) (now : Span) :
      t.going.Perm ((call, permit) :: rest) →
      Step t [⟨.record call.service permit account.ending.outcome, now⟩]
        { t with invoker := (t.invoker.settle call permit account now).2.2, going := rest }
  /-- The caller of a call drops it where it waits. -/
  | drops {t : Traffic α} {call : Call α} {permit : Permit} {rest : List (Call α × Permit)} :
      t.going.Perm ((call, permit) :: rest) →
      Step t [] { t with going := rest, dropped := (call, permit) :: t.dropped }

/-- What can come of a beginning, step by step, with the turns that the circuits take, the latest first. -/
inductive Traffic.Leads (start : Traffic α) : List Turn → Traffic α → Prop where
  | refl : Leads start [] start
  | step {past turns : List Turn} {t next : Traffic α} :
      Leads start past t → Step t turns next → Leads start (turns ++ past) next

/-- The permits of calls to a service. -/
def permitsTo (name : String) (calls : List (Call α × Permit)) : List Permit :=
  (calls.filter (·.1.service = name)).map (·.2)

section

variable {name : String} {call : Call α} {permit : Permit} {calls : List (Call α × Permit)}

theorem permitsTo_own (own : call.service = name) :
    permitsTo name ((call, permit) :: calls) = permit :: permitsTo name calls := by
  rw [permitsTo, List.filter_cons_of_pos (by simpa using own), List.map_cons, permitsTo]

theorem permitsTo_other (other : call.service ≠ name) :
    permitsTo name ((call, permit) :: calls) = permitsTo name calls := by
  rw [permitsTo, List.filter_cons_of_neg (by simpa using other), permitsTo]

theorem permitsTo_perm {others : List (Call α × Permit)} (same : calls.Perm others) :
    (permitsTo name calls).Perm (permitsTo name others) := (same.filter _).map _

theorem permitsTo_idle (idle : ∀ e ∈ calls, e.1.service ≠ name) : permitsTo name calls = [] := by
  rw [permitsTo, List.filter_eq_nil_iff.2 fun e member => by simpa using idle e member, List.map_nil]

end

/-! ### The turns that the circuits take -/

section

variable {inv next : Invoker} {call : Call α} {now : Span} {permit : Permit} {events : List Audit.Event}

/-- A call that is let through has been given its permit. -/
theorem acquire_of_admitted (entered : inv.enter call now = (.ok permit, events, next)) :
    (inv.circuits.acquire call.service now).1 = some permit ∧
      next.circuits = (inv.circuits.acquire call.service now).2.2 := by
  unfold Invoker.enter at entered
  cases given : (inv.circuits.acquire call.service now).1 with
  | none => simp [given] at entered
  | some own =>
    simp only [given, Prod.mk.injEq, Except.ok.injEq] at entered
    obtain ⟨rfl, _, rfl⟩ := entered
    exact ⟨rfl, rfl⟩

theorem acquire_of_refused {error : CallError} (entered : inv.enter call now = (.error error, events, next)) :
    (inv.circuits.acquire call.service now).1 = none ∧
      next.circuits = (inv.circuits.acquire call.service now).2.2 := by
  unfold Invoker.enter at entered
  cases given : (inv.circuits.acquire call.service now).1 with
  | none =>
    simp only [given, Prod.mk.injEq] at entered
    obtain ⟨_, _, rfl⟩ := entered
    exact ⟨rfl, rfl⟩
  | some own => simp [given] at entered

end

/-- The circuits take the turns of a step and do nothing else. -/
theorem Traffic.Step.circuits_eq {t next : Traffic α} {turns : List Turn} (step : Step t turns next) :
    next.invoker.circuits = turns.foldr (fun s cs => (s.take cs).circuits) t.invoker.circuits := by
  cases step with
  | admits call now entered => exact (acquire_of_admitted entered).2
  | refuses call now entered => exact (acquire_of_refused entered).2
  | settles account now going => rfl
  | drops going => rfl

/-- What a run of turns and the calls have to do with each other: the circuits have taken these turns, every
report is that of a call that went on, and the permits that are out belong to calls that go on or are dropped. -/
structure Traffic.Follows (rules : CircuitRules) (name : String) (turns : List Turn) (t : Traffic α) : Prop where
  circuits : t.invoker.circuits = Circuits.after rules turns
  honest : Honest rules name turns
  permits : (outstanding rules name turns).Perm (permitsTo name t.going ++ permitsTo name t.dropped)

section

variable {rules : CircuitRules} {name : String} {past turns : List Turn} {t next : Traffic α}

theorem outstanding_acquire (called : String) (now : Span) (past : List Turn) :
    outstanding rules name (⟨.acquire called, now⟩ :: past) =
      (if called = name then ((Circuits.after rules past).acquire called now).1.toList else []) ++
        outstanding rules name past := by
  by_cases own : called = name
  · simp only [outstanding, own, if_true]
    rfl
  · simp only [outstanding, own, if_false]
    rfl

theorem outstanding_record (called : String) (permit : Permit) (outcome : Outcome) (now : Span)
    (past : List Turn) :
    outstanding rules name (⟨.record called permit outcome, now⟩ :: past) =
      if called = name then (outstanding rules name past).erase permit else outstanding rules name past := rfl

theorem Traffic.Follows.step (follows : Follows rules name past t) (step : Step t turns next) :
    Follows rules name (turns ++ past) next := by
  have circuits : next.invoker.circuits = Circuits.after rules (turns ++ past) := by
    rw [step.circuits_eq, follows.circuits]
    cases step with
    | admits call now entered => rfl
    | refuses call now entered => rfl
    | settles account now going => rfl
    | drops going => rfl
  cases step with
  | @admits call now permit events inv entered =>
    refine ⟨circuits, ⟨follows.honest, nofun⟩, ?_⟩
    have given := (acquire_of_admitted entered).1
    rw [follows.circuits] at given
    rw [List.singleton_append, outstanding_acquire, given]
    by_cases own : call.service = name
    · rw [if_pos own, permitsTo_own own]
      exact follows.permits.cons permit
    · rw [if_neg own, permitsTo_other own]
      exact follows.permits
  | @refuses call now error events inv entered =>
    refine ⟨circuits, ⟨follows.honest, nofun⟩, ?_⟩
    have given := (acquire_of_refused entered).1
    rw [follows.circuits] at given
    rw [List.singleton_append, outstanding_acquire, given]
    split
    · exact follows.permits
    · exact follows.permits
  | @settles call permit rest account now going =>
    have out := follows.permits.trans ((permitsTo_perm going).append_right _)
    refine ⟨circuits, ⟨follows.honest, ?_⟩, ?_⟩
    · intro other outcome reports
      cases reports
      rw [permitsTo_own rfl] at out
      exact out.mem_iff.2 List.mem_cons_self
    · rw [List.singleton_append, outstanding_record]
      by_cases own : call.service = name
      · rw [permitsTo_own own] at out
        have left := out.erase permit
        rw [List.cons_append, List.erase_cons_head] at left
        rw [if_pos own]
        exact left
      · rw [permitsTo_other own] at out
        rw [if_neg own]
        exact out
  | @drops call permit rest going =>
    have out := follows.permits.trans ((permitsTo_perm going).append_right _)
    refine ⟨circuits, follows.honest, ?_⟩
    by_cases own : call.service = name
    · rw [permitsTo_own own] at out
      rw [permitsTo_own own]
      exact out.trans List.perm_middle.symm
    · rw [permitsTo_other own] at out
      rw [permitsTo_other own]
      exact out

/-- However the calls go, they follow from the turns of the circuits. -/
theorem Traffic.follows_of_leads {inv : Invoker} (fresh : inv.circuits = { rules })
    (leads : Leads { invoker := inv } turns t) (name : String) : Follows rules name turns t := by
  induction leads with
  | refl => exact ⟨fresh, trivial, .refl _⟩
  | step before step ih => exact ih.step step

end

/-! ### The latest change of state -/

/-- When the circuit of a service changed its state last in a run, or the beginning if it never did. -/
def lastChange (rules : CircuitRules) (name : String) : List Turn → Span
  | [] => 0
  | s :: past =>
      if ((Circuits.after rules (s :: past)).of name).state = ((Circuits.after rules past).of name).state then
        lastChange rules name past
      else s.now

section

variable {rules : CircuitRules} {name : String} {s : Turn} {past run : List Turn}

theorem lastChange_of_stays
    (stays : Circuit.Stays ((Circuits.after rules past).of name)
      ((Circuits.after rules (s :: past)).of name)) :
    lastChange rules name (s :: past) = lastChange rules name past := by
  rw [lastChange, if_pos stays.state]

theorem lastChange_of_moves
    (moves : Circuit.Moves s.now ((Circuits.after rules past).of name)
      ((Circuits.after rules (s :: past)).of name)) :
    lastChange rules name (s :: past) = s.now := by
  rw [lastChange, if_neg moves.edge.ne]

/-- An open circuit is open since the latest change of its state. -/
theorem openSince_lastChange (opened : ((Circuits.after rules run).of name).state = .opened) :
    Circuit.OpenSince (lastChange rules name run) ((Circuits.after rules run).of name) := by
  induction run with
  | nil => cases opened
  | cons s past ih =>
    rcases take_ends s (Circuits.after rules past) name with ⟨stays, _⟩ | ⟨_, moves, _⟩
    · rw [lastChange_of_stays stays]
      exact (ih (stays.state.symm.trans opened)).of_stays stays
    · rw [lastChange_of_moves moves]
      exact moves.openSince opened

end

end HostControl.Invocation
