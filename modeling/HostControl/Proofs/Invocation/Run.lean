/-
Module: HostControl.Proofs.Invocation.Run
Purpose: Runs of the circuits of an invoker: questions for permits and reports of outcomes, in any order,
  by any number of callers. A permit is known by the number of changes of state that its circuit had gone
  through when it was given; the generation that it carries is that number in 64 bits.
Main exports: Move, Turn, Turn.take, Circuits.of, take_ends, Circuits.after, changes, issued, Timely,
  generation_after, ledger_after
-/
import HostControl.Invocation.Circuits
import HostControl.Proofs.Invocation.Circuit

namespace HostControl.Invocation

/-! ### Turns -/

/-- What a caller does: it asks to call a service, or reports how a call to a service ended. -/
inductive Move where
  | acquire (name : String)
  | record (name : String) (permit : Permit) (outcome : Outcome)
deriving DecidableEq, Repr

/-- The service that a caller speaks of. -/
def Move.name : Move → String
  | .acquire name => name
  | .record name _ _ => name

/-- What a caller does, and when. -/
structure Turn where
  move : Move
  now : Span
deriving DecidableEq, Repr

/-- What comes of a turn: the permit, the change of state that it brought about, and the circuits after
it. -/
structure Effect where
  permit : Option Permit
  transition : Option Transition
  circuits : Circuits

/-- What a turn does to the circuits. -/
def Turn.take (s : Turn) (cs : Circuits) : Effect :=
  match s.move with
  | .acquire name =>
      { permit := (cs.acquire name s.now).1
        transition := (cs.acquire name s.now).2.1
        circuits := (cs.acquire name s.now).2.2 }
  | .record name permit outcome =>
      { permit := none
        transition := (cs.record name permit outcome s.now).2
        circuits := (cs.record name permit outcome s.now).1 }

namespace Circuits

variable {name : String} {now : Span} {cs : Circuits}

/-- The circuit of a service. One that was never called has a fresh circuit from the beginning. -/
def of (name : String) (cs : Circuits) : Circuit := cs.get name 0

theorem of_eq_of_find? {c : Circuit} (found : cs.byName.find? name = some c) : cs.of name = c := by
  rw [of, get, found, Option.getD_some]

/-- The circuit that is made on first use differs in its window only. -/
theorem stays_get (name : String) (now : Span) (cs : Circuits) :
    Circuit.Stays (cs.of name) (cs.get name now) := by
  unfold of get
  cases cs.byName.find? name with
  | none => exact ⟨rfl, rfl, rfl⟩
  | some c => exact ⟨rfl, rfl, rfl⟩

theorem of_set_self (name : String) (c : Circuit) (cs : Circuits) :
    of name { cs with byName := cs.byName.set name c } = c := by
  apply of_eq_of_find?
  exact Table.find?_set_self name c cs.byName

theorem of_acquire (name : String) (now : Span) (cs : Circuits) :
    (cs.acquire name now).2.2.of name = ((cs.get name now).acquire cs.rules now).2.2 :=
  of_set_self name _ cs

theorem record_of_unknown (unknown : cs.byName.find? name = none) (permit : Permit)
    (outcome : Outcome) : cs.record name permit outcome now = (cs, none) := by
  rw [record, unknown]

theorem record_of_known {c : Circuit} (known : cs.byName.find? name = some c) (permit : Permit)
    (outcome : Outcome) :
    cs.record name permit outcome now =
      ({ cs with byName := cs.byName.set name (c.record cs.rules permit outcome now).1 },
        (c.record cs.rules permit outcome now).2) := by
  rw [record, known]

end Circuits

/-- No turn changes the rules. -/
theorem rules_take (s : Turn) (cs : Circuits) : (s.take cs).circuits.rules = cs.rules := by
  obtain ⟨move, now⟩ := s
  cases move with
  | acquire name => rfl
  | record name permit outcome =>
      simp only [Turn.take]
      cases known : cs.byName.find? name with
      | none => rw [Circuits.record_of_unknown known]
      | some c => rw [Circuits.record_of_known known]

/-- A turn changes the circuit of its own service only. -/
theorem find?_take_of_ne {s : Turn} {name : String} (other : s.move.name ≠ name) (cs : Circuits) :
    (s.take cs).circuits.byName.find? name = cs.byName.find? name := by
  obtain ⟨move, now⟩ := s
  cases move with
  | acquire called => exact Table.find?_set_ne (Ne.symm other) _ _
  | record called permit outcome =>
      simp only [Turn.take]
      cases known : cs.byName.find? called with
      | none => rw [Circuits.record_of_unknown known]
      | some c =>
          rw [Circuits.record_of_known known]
          exact Table.find?_set_ne (Ne.symm other) _ _

/-- A turn keeps the circuit of a service where it is, or is about that service and moves its circuit
along an edge, which it reports. -/
theorem take_ends (s : Turn) (cs : Circuits) (name : String) :
    (Circuit.Stays (cs.of name) ((s.take cs).circuits.of name) ∧
      (s.move.name = name → (s.take cs).transition = none)) ∨
    (s.move.name = name ∧ Circuit.Moves s.now (cs.of name) ((s.take cs).circuits.of name) ∧
      (s.take cs).transition =
        some ⟨(cs.of name).state, ((s.take cs).circuits.of name).state⟩) := by
  by_cases own : s.move.name = name
  · obtain ⟨move, now⟩ := s
    subst own
    cases move with
    | acquire name =>
        have first := Circuits.stays_get name now cs
        simp only [Turn.take, Move.name, Circuits.of_acquire]
        rcases Circuit.acquire_ends cs.rules now (cs.get name now) with ⟨stays, none⟩ | ⟨moves, some⟩
        · exact .inl ⟨first.trans stays, fun _ => none⟩
        · refine .inr ⟨trivial, moves.of_stays first, ?_⟩
          rw [← first.state]
          exact some
    | record name permit outcome =>
        simp only [Turn.take, Move.name]
        cases known : cs.byName.find? name with
        | none =>
            rw [Circuits.record_of_unknown known]
            exact .inl ⟨⟨rfl, rfl, rfl⟩, fun _ => rfl⟩
        | some c =>
            rw [Circuits.record_of_known known, Circuits.of_set_self, Circuits.of_eq_of_find? known]
            rcases Circuit.record_ends cs.rules permit outcome now c with
              ⟨stays, none⟩ | ⟨_, _, moves, some⟩
            · exact .inl ⟨stays, fun _ => none⟩
            · exact .inr ⟨trivial, moves, some⟩
  · have same : (s.take cs).circuits.of name = cs.of name := by
      rw [Circuits.of, Circuits.of, Circuits.get, Circuits.get, find?_take_of_ne own]
    rw [same]
    exact .inl ⟨⟨rfl, rfl, rfl⟩, fun about => absurd about own⟩

/-! ### Runs -/

/-- The circuits after a run, whose latest turn stands first. -/
def Circuits.after (rules : CircuitRules) : List Turn → Circuits
  | [] => { rules }
  | s :: past => (s.take (after rules past)).circuits

/-- The clock at the end of a run. -/
def clock : List Turn → Span
  | [] => 0
  | s :: _ => s.now

/-- The clock never goes back in a run. -/
def Timely : List Turn → Prop
  | [] => True
  | s :: past => Timely past ∧ clock past ≤ s.now

/-- How often the circuit of a service has changed its state in a run. -/
def changes (rules : CircuitRules) (name : String) : List Turn → Nat
  | [] => 0
  | s :: past =>
      changes rules name past +
        if ((Circuits.after rules (s :: past)).of name).state =
          ((Circuits.after rules past).of name).state then 0 else 1

/-- The permits that a run has given for a service, each with the number of changes of state that the
circuit had gone through by then. -/
def issued (rules : CircuitRules) (name : String) : List Turn → List (Nat × Permit)
  | [] => []
  | s :: past =>
      (if s.move = .acquire name then
        ((s.take (Circuits.after rules past)).permit.map (changes rules name (s :: past), ·)).toList
      else []) ++ issued rules name past

section

variable {rules : CircuitRules} {name : String}

theorem rules_after (rules : CircuitRules) (run : List Turn) : (Circuits.after rules run).rules = rules := by
  induction run with
  | nil => rfl
  | cons s past ih => rw [Circuits.after, rules_take, ih]

/-- The clock has gone on since any turn of the run. -/
theorem Timely.le_clock {s : Turn} {later past : List Turn} (timely : Timely (later ++ s :: past)) :
    s.now ≤ clock (later ++ s :: past) := by
  induction later with
  | nil => exact Nat.le_refl _
  | cons next later ih => exact Nat.le_trans (ih timely.1) timely.2

theorem changes_le_cons (rules : CircuitRules) (name : String) (s : Turn) (past : List Turn) :
    changes rules name past ≤ changes rules name (s :: past) := Nat.le_add_right _ _

theorem changes_of_stays {s : Turn} {past : List Turn}
    (stays : Circuit.Stays ((Circuits.after rules past).of name)
      ((Circuits.after rules (s :: past)).of name)) :
    changes rules name (s :: past) = changes rules name past := by
  rw [changes, if_pos stays.state, Nat.add_zero]

theorem changes_of_moves {s : Turn} {past : List Turn}
    (moves : Circuit.Moves s.now ((Circuits.after rules past).of name)
      ((Circuits.after rules (s :: past)).of name)) :
    changes rules name (s :: past) = changes rules name past + 1 := by
  rw [changes, if_neg moves.edge.ne]

/-- The generation of a circuit is the number of its changes of state, in 64 bits. -/
theorem generation_after (rules : CircuitRules) (name : String) (run : List Turn) :
    ((Circuits.after rules run).of name).generation = changes rules name run % (Word.max64 + 1) := by
  induction run with
  | nil => rfl
  | cons s past ih =>
      rcases take_ends s (Circuits.after rules past) name with ⟨stays, _⟩ | ⟨_, moves, _⟩
      · rw [changes_of_stays stays, ← ih]
        exact stays.generation
      · rw [changes_of_moves moves, Circuits.after, moves.generation, ih, Word.following]
        exact Nat.mod_add_mod _ _ _

theorem mem_issued_cons {s : Turn} {past : List Turn} {k : Nat} {permit : Permit} :
    (k, permit) ∈ issued rules name (s :: past) ↔
      (s.move = .acquire name ∧ k = changes rules name (s :: past) ∧
        (s.take (Circuits.after rules past)).permit = some permit) ∨
      (k, permit) ∈ issued rules name past := by
  rw [issued, List.mem_append]
  refine or_congr_left ?_
  split
  · next asks =>
      simp only [asks, true_and, Option.mem_toList, Option.map_eq_some_iff, Prod.mk.injEq]
      constructor
      · rintro ⟨_, given, rfl, rfl⟩
        exact ⟨rfl, given⟩
      · rintro ⟨rfl, given⟩
        exact ⟨permit, given, rfl, rfl⟩
  · next other => simp [other]

/-- What holds of every permit that a run has given. It carries the generation of the circuit at that time,
and if the circuit is open now it has changed its state since then. -/
theorem ledger_after {run : List Turn} {k : Nat} {permit : Permit}
    (given : (k, permit) ∈ issued rules name run) :
    permit.generation = k % (Word.max64 + 1) ∧ k ≤ changes rules name run ∧
      (((Circuits.after rules run).of name).state = .opened → k < changes rules name run) := by
  induction run with
  | nil => cases given
  | cons s past ih =>
      rcases mem_issued_cons.1 given with ⟨asks, rfl, fresh⟩ | earlier
      · -- The permit is of the generation that it finds after the question, and that is not an open one.
        have current := generation_after rules name (s :: past)
        obtain ⟨move, now⟩ := s
        cases asks
        obtain ⟨same, closed⟩ := Circuit.generation_of_permit fresh
        rw [← Circuits.of_acquire] at same closed
        exact ⟨same.trans current, Nat.le_refl _, fun opened => absurd opened closed⟩
      · obtain ⟨same, before, behind⟩ := ih earlier
        refine ⟨same, Nat.le_trans before (changes_le_cons rules name s past), ?_⟩
        intro opened
        rcases take_ends s (Circuits.after rules past) name with ⟨stays, _⟩ | ⟨_, moves, _⟩
        · rw [changes_of_stays stays]
          exact behind (stays.state.symm.trans opened)
        · rw [changes_of_moves moves]
          exact Nat.lt_succ_of_le before

end

end HostControl.Invocation
