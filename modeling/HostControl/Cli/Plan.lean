/-
Module: HostControl.Cli.Plan
Purpose: What the program has to ask of the machine that it runs on, and plans made of such requests. A
  plan is a value: what it comes to depends on the answers alone, whoever gives them.
Main exports: Exit, Request, Plan, Plan.answeredBy, Plan.answeredBy_bind
-/
import HostControl.Control.Plane
import HostControl.Config.Load
import HostControl.Workload.Engine

namespace HostControl.Cli

/-- How the program ends. -/
inductive Exit where
  | success
  | failure
  | misuse
  /-- Something was asked for that has no result. -/
  | abort
deriving DecidableEq, Repr

/-- The number by which an end is known outside. -/
def Exit.code : Exit → Nat
  | .success => 0
  | .failure => 1
  | .misuse => 2
  | .abort => 101

/-- A request, with the type of its answer. -/
inductive Request : Type → Type where
  /-- The variables of the environment. -/
  | environment : Request Config.Environment
  /-- The text of the file that adds to the environment, if there is one. -/
  | environmentFile : Request (Option String)
  | clock : Request Clock
  /-- A new identifier. -/
  | identifier : Request String
  /-- What stands at a path. -/
  | look (path : String) : Request Config.Source
  /-- Whether there is anything at a path. -/
  | present (path : String) : Request Bool
  /-- A directory at a path: whether it is there, or could be made. -/
  | directory (path : String) : Request Bool
  /-- A text in the place of a file: what kept it from being put there, if anything did. -/
  | replace (path contents : String) : Request (Option Access.WriteFault)
  /-- A record, to be added to the file of the day in a directory. -/
  | keep (directory : String) (record : Audit.Record) : Request Unit
  | print (text : String) : Request Unit
  /-- A word to the operator, beside what is printed. -/
  | tell (text : String) : Request Unit
  /-- The shared cache at an address, if it is reached in time. -/
  | cache (url : String) (limit : Span) : Request (Option Cache.Answers)
  | primary (database : Config.Database) : Request (Answer (Except Health.ProbeError Health.Details))
  | engine (endpoint : Workload.Endpoint) : Request Workload.Runtime

/-- Requests one after another, each chosen by the answers before it, and what they come to. -/
inductive Plan (α : Type) where
  | done (value : α)
  | ask {β : Type} (request : Request β) (next : β → Plan α)

namespace Plan

/-- A plan that goes on with what another came to. -/
def bind {α β : Type} : Plan α → (α → Plan β) → Plan β
  | .done a, f => f a
  | .ask request next, f => .ask request fun answer => (next answer).bind f

instance : Monad Plan where
  pure := .done
  bind := bind

/-- A request is the plan that comes to its answer. -/
instance : MonadLift Request Plan where
  monadLift r := .ask r .done

/-- Goes through a plan with somebody who answers its requests. -/
def answeredBy {m : Type → Type} [Monad m] {α : Type} (answer : {β : Type} → Request β → m β) :
    Plan α → m α
  | .done a => pure a
  | .ask r next => do
    let a ← answer r
    (next a).answeredBy answer

/-- Going through two plans one after the other is going through both together. -/
theorem answeredBy_bind {m : Type → Type} [Monad m] [LawfulMonad m] {α β : Type}
    (answer : {γ : Type} → Request γ → m γ) (p : Plan α) (f : α → Plan β) :
    (p.bind f).answeredBy answer = p.answeredBy answer >>= fun a => (f a).answeredBy answer := by
  induction p with
  | done a => simp [bind, answeredBy]
  | ask request next ih => simp [bind, answeredBy, ih]

end Plan

end HostControl.Cli
