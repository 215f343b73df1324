import Workflow.Service.Call

/-!
# Programs that talk to the service

A program is a tree: it is done with a result, or it makes one call and goes on with the answer, or
it pauses. Nothing in it says how calls are answered. A service answers with its own state, and
running a program against it gives the result and the events in order.

* `Program`          the tree; `Program.bind` lets one program follow another;
* `Server`           a state and an answer to every call in every state;
* `Event`            a call with its answer, or a pause;
* `Program.run`      result, events and the state that is left.
-/

namespace Workflow.Session

open Service

inductive Program (α : Type) where
  | done (result : α)
  | call (request : Call) (next : request.Answer → Program α)
  | pause (milliseconds : Nat) (next : Program α)

namespace Program

variable {α β : Type}

/-- the second program starts with the result of the first -/
def bind : Program α → (α → Program β) → Program β
  | done x, f => f x
  | call c next, f => call c fun a => bind (next a) f
  | pause n next, f => pause n (bind next f)

def map (f : α → β) (p : Program α) : Program β := p.bind fun x => done (f x)

/-- one call and its answer -/
def ask (c : Call) : Program c.Answer := call c done

end Program

structure Server (σ : Type) where
  answer : (c : Call) → σ → c.Answer × σ

inductive Event where
  | called (request : Call) (answer : request.Answer)
  | paused (milliseconds : Nat)

/-- what a run of a program comes to -/
structure Run (σ α : Type) where
  result : α
  events : List Event
  state : σ

namespace Run

variable {σ α : Type}

/-- the calls in order -/
def calls (r : Run σ α) : List Call :=
  r.events.filterMap fun e => match e with
    | .called c _ => some c
    | .paused _ => none

/-- the milliseconds after which a pause ends in any case: thirty years of 365 days -/
def longestPause : Nat := 30 * 365 * 24 * 60 * 60 * 1000

/-- the time spent in pauses -/
def elapsed (r : Run σ α) : Nat :=
  r.events.foldr (fun e total => match e with
    | .called _ _ => total
    | .paused n => min n longestPause + total) 0

end Run

namespace Program

variable {σ α β : Type}

def run (server : Server σ) : Program α → σ → Run σ α
  | done x, s => ⟨x, [], s⟩
  | call c next, s =>
    let (a, s) := server.answer c s
    let r := run server (next a) s
    { r with events := .called c a :: r.events }
  | pause n next, s =>
    let r := run server next s
    { r with events := .paused n :: r.events }

/-- one program after another: events in order, and the state handed on -/
theorem run_bind (server : Server σ) (p : Program α) (f : α → Program β) (s : σ) :
    (p.bind f).run server s =
      let first := p.run server s
      let second := (f first.result).run server first.state
      ⟨second.result, first.events ++ second.events, second.state⟩ := by
  induction p generalizing s with
  | done x => rfl
  | call c next ih => simp only [bind, run, ih, List.cons_append]
  | pause n next ih => simp only [bind, run, ih, List.cons_append]

end Program

end Workflow.Session
