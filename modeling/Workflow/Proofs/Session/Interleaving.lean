import Mathlib.Data.List.Basic
import Mathlib.Data.List.Induction
import Mathlib.Logic.Function.Basic
import Workflow.Proofs.Session.Trace

/-!
# Sessions side by side

Any number of sessions share one service. A session begins an operation, goes through the program of
it and ends it; the service answers one call at a time. What has happened is a list of actions, each
with its session, in any order that lets every session go on as its program says.

* `Moves`                 one action of one session;
* `History`               what can have happened since no session had anything to do;
* `own`                   what one session has done;
* `History.follows`       what a session has done is what its program has yielded so far;
* `Server.after`          the state of the service, told from the calls alone;
* `History.split`         an action in the middle, and the world in which it was taken;
* `History.run_alone`     an operation that nobody interrupts goes as its program runs.
-/

namespace Workflow.Session

open Service

/-! ## one session -/

/-- what a session is in the middle of -/
structure Task where
  operation : Operation
  rest : Program (Result Outcome)

inductive Action where
  | began (op : Operation)
  | event (e : Event)
  | ended (op : Operation) (result : Result Outcome)

/-- an action takes a session from one task to another, if there is one -/
inductive Moves : Option Task → Action → Option Task → Prop where
  | began (op : Operation) : Moves none (.began op) (some ⟨op, op.program⟩)
  | called (op : Operation) {c : Call} (next : c.Answer → Program (Result Outcome)) (a : c.Answer) :
      Moves (some ⟨op, .call c next⟩) (.event (.called c a)) (some ⟨op, next a⟩)
  | paused (op : Operation) (n : Nat) (next : Program (Result Outcome)) :
      Moves (some ⟨op, .pause n next⟩) (.event (.paused n)) (some ⟨op, next⟩)
  | ended (op : Operation) (r : Result Outcome) :
      Moves (some ⟨op, .done r⟩) (.ended op r) none

/-- the last thing that was begun, and what came of it so far -/
def Task.Follows (t : Task) (as : List Action) : Prop :=
  ∃ earlier es, as = earlier ++ .began t.operation :: es.map .event ∧
    ∀ later r, t.rest.Yields later r → t.operation.program.Yields (es ++ later) r

theorem Task.follows_began (op : Operation) (as : List Action) :
    Task.Follows ⟨op, op.program⟩ (as ++ [.began op]) :=
  ⟨as, [], rfl, fun _ _ h => h⟩

theorem Task.Follows.event {op : Operation} {p q : Program (Result Outcome)} {as : List Action}
    (h : Task.Follows ⟨op, p⟩ as) {e : Event}
    (first : ∀ later r, q.Yields later r → p.Yields (e :: later) r) :
    Task.Follows ⟨op, q⟩ (as ++ [.event e]) := by
  obtain ⟨earlier, es, rfl, yields⟩ := h
  refine ⟨earlier, es ++ [e], ?_, ?_⟩
  · show (earlier ++ .began op :: es.map .event) ++ [.event e] = _
    rw [List.map_append, List.append_assoc]
    rfl
  · intro later r hq
    rw [List.append_assoc]
    exact yields (e :: later) r (first later r hq)

/-- a move keeps a session on the way that its program takes -/
theorem Moves.follows {t t' : Option Task} {a : Action} (moves : Moves t a t') {as : List Action}
    (h : ∀ u, t = some u → u.Follows as) : ∀ u, t' = some u → u.Follows (as ++ [a]) := by
  intro u hu
  cases moves with
  | began op =>
    cases hu
    exact Task.follows_began op as
  | called op next a =>
    cases hu
    exact (h _ rfl).event fun later r hnext => .call a hnext
  | paused op n next =>
    cases hu
    exact (h _ rfl).event fun later r hnext => .pause n hnext
  | ended op r => cases hu

/-! ## many sessions and one service -/

structure Happening (ι : Type) where
  session : ι
  action : Action

structure World (ι σ : Type) where
  service : σ
  task : ι → Option Task

variable {ι σ : Type}

/-- an answer is the one that the service gives -/
def Server.Gives (server : Server σ) (s : σ) : Action → Prop
  | .event (.called c a) => a = (server.answer c s).1
  | _ => True

/-- what an action makes of the service: only calls are noticed -/
def Server.next (server : Server σ) (s : σ) : Action → σ
  | .event (.called c _) => (server.answer c s).2
  | _ => s

/-- the state of the service after all this -/
def Server.after (server : Server σ) (s : σ) (hs : List (Happening ι)) : σ :=
  hs.foldl (fun s h => server.next s h.action) s

theorem Server.after_concat (server : Server σ) (s : σ) (hs : List (Happening ι))
    (h : Happening ι) :
    server.after s (hs ++ [h]) = server.next (server.after s hs) h.action := by
  rw [after, List.foldl_append]
  rfl

variable [DecidableEq ι]

/-- what can happen from a state of the service in which every session is idle -/
inductive History (server : Server σ) (s : σ) : List (Happening ι) → World ι σ → Prop where
  | start : History server s [] ⟨s, fun _ => none⟩
  | step {hs : List (Happening ι)} {w : World ι σ} (history : History server s hs w) {i : ι}
      {a : Action} {t t' : Option Task} (task : w.task i = t) (moves : Moves t a t')
      (gives : server.Gives w.service a) :
      History server s (hs ++ [⟨i, a⟩]) ⟨server.next w.service a, Function.update w.task i t'⟩

/-- what one session has done -/
def own (i : ι) (hs : List (Happening ι)) : List Action :=
  (hs.filter fun h => h.session = i).map Happening.action

theorem own_concat_self (i : ι) (hs : List (Happening ι)) (a : Action) :
    own i (hs ++ [⟨i, a⟩]) = own i hs ++ [a] := by
  rw [own, List.filter_append, List.map_append]
  simp [own]

theorem own_concat_other {i j : ι} (h : j ≠ i) (hs : List (Happening ι)) (a : Action) :
    own i (hs ++ [⟨j, a⟩]) = own i hs := by
  rw [own, List.filter_append, List.map_append]
  simp [own, h]

/-- the last action of a session, with what others did after it -/
theorem exists_of_own_concat {i : ι} {hs : List (Happening ι)} {as : List Action} {a : Action}
    (h : own i hs = as ++ [a]) : ∃ before after, hs = before ++ ⟨i, a⟩ :: after ∧
      own i before = as ∧ own i after = [] := by
  induction hs using List.reverseRecOn with
  | nil => exact absurd h.symm (List.append_ne_nil_of_right_ne_nil _ nofun)
  | append_singleton hs x ih =>
    obtain ⟨j, b⟩ := x
    by_cases same : j = i
    · subst same
      rw [own_concat_self] at h
      obtain ⟨rfl, rest⟩ := List.append_inj' h rfl
      obtain rfl := List.singleton_inj.mp rest
      exact ⟨hs, [], rfl, rfl, rfl⟩
    · rw [own_concat_other same] at h
      obtain ⟨before, after, rfl, hbefore, hafter⟩ := ih h
      refine ⟨before, after ++ [⟨j, b⟩], ?_, hbefore, ?_⟩
      · rw [List.append_assoc]
        rfl
      · rw [own_concat_other same, hafter]

theorem exists_of_own_concat₂ {i : ι} {hs : List (Happening ι)} {as : List Action} {a b : Action}
    (h : own i hs = as ++ [a] ++ [b]) : ∃ earlier between later,
      hs = earlier ++ ⟨i, a⟩ :: between ++ ⟨i, b⟩ :: later ∧
      own i earlier = as ∧ own i between = [] ∧ own i later = [] := by
  obtain ⟨rest, later, rfl, hrest, hlater⟩ := exists_of_own_concat h
  obtain ⟨earlier, between, rfl, hearlier, hbetween⟩ := exists_of_own_concat hrest
  exact ⟨earlier, between, later, rfl, hearlier, hbetween, hlater⟩

theorem mem_of_mem_own {i : ι} {hs : List (Happening ι)} {a : Action} (h : a ∈ own i hs) :
    ⟨i, a⟩ ∈ hs := by
  obtain ⟨x, hx, rfl⟩ := List.mem_map.mp h
  obtain ⟨mem, mine⟩ := List.mem_filter.mp hx
  obtain rfl := of_decide_eq_true mine
  exact mem

theorem ne_of_mem_of_own_eq_nil {i : ι} {hs : List (Happening ι)} (h : own i hs = [])
    {x : Happening ι} (hx : x ∈ hs) : x.session ≠ i := by
  intro same
  have : x.action ∈ own i hs := List.mem_map_of_mem (List.mem_filter.mpr ⟨hx, by simpa using same⟩)
  rw [h] at this
  cases this

namespace History

variable {server : Server σ} {s : σ} {hs : List (Happening ι)} {w : World ι σ}

theorem service_eq (h : History server s hs w) : w.service = server.after s hs := by
  induction h with
  | start => rfl
  | step history task moves gives ih => rw [Server.after_concat, ← ih]

/-- whatever the others do, a session is on the way that its program takes -/
theorem follows (h : History server s hs w) (i : ι) :
    ∀ t, w.task i = some t → t.Follows (own i hs) := by
  induction h with
  | start => exact fun _ => nofun
  | step history task moves gives ih =>
    -- the session that acts goes on; the task of any other is as it was, and so is what it has done
    rename_i hs w j a t t'
    by_cases same : j = i
    · subst same
      rw [own_concat_self]
      show ∀ u, Function.update w.task j t' j = some u → _
      rw [Function.update_self]
      exact moves.follows (task ▸ ih)
    · rw [own_concat_other same]
      show ∀ u, Function.update w.task j t' i = some u → _
      rw [Function.update_of_ne (Ne.symm same)]
      exact ih

/-- an action in the middle was taken in a world that came of what was before it -/
theorem split {before after : List (Happening ι)} {i : ι} {a : Action}
    (h : History server s hs w) (place : hs = before ++ ⟨i, a⟩ :: after) :
    ∃ v t t', History server s before v ∧ v.task i = t ∧ Moves t a t' ∧
      server.Gives v.service a := by
  induction h generalizing after with
  | start => exact absurd place.symm (List.append_ne_nil_of_right_ne_nil _ nofun)
  | step history task moves gives ih =>
    obtain rfl | ⟨after, x, rfl⟩ := after.eq_nil_or_concat'
    · obtain ⟨rfl, last⟩ := List.append_inj' place rfl
      cases last
      exact ⟨_, _, _, history, task, moves, gives⟩
    · rw [← List.cons_append, ← List.append_assoc] at place
      exact ih (List.append_inj' place rfl).1

/-- an operation that has ended is the last that its session began, with one of its results -/
theorem yields_of_ended (h : History server s hs w) {before after : List (Happening ι)} {i : ι}
    {op : Operation} {r : Result Outcome} (place : hs = before ++ ⟨i, .ended op r⟩ :: after) :
    ∃ earlier es, own i before = earlier ++ .began op :: es.map .event ∧
      op.program.Yields es r := by
  obtain ⟨v, t, t', history, task, moves, -⟩ := h.split place
  cases moves
  obtain ⟨earlier, es, same, yields⟩ := history.follows i _ task
  refine ⟨earlier, es, same, ?_⟩
  have whole := yields [] r (.done r)
  rwa [List.append_nil] at whole

theorem run_rest {i : ι} {op : Operation} {p : Program (Result Outcome)}
    (h : History server s hs w) (task : w.task i = some ⟨op, p⟩) :
    let r := p.run server w.service
    ∃ v, History server s (hs ++ r.events.map (⟨i, .event ·⟩) ++ [⟨i, .ended op r.result⟩]) v ∧
      v.service = r.state ∧ v.task i = none := by
  induction p generalizing hs w with
  | done x =>
    have ended := h.step task (.ended op x) trivial
    refine ⟨⟨w.service, Function.update w.task i none⟩, ?_, rfl, Function.update_self ..⟩
    -- no events are left
    rw [← List.append_nil hs] at ended
    exact ended
  | call c next ih =>
    have called := h.step task (.called op next (server.answer c w.service).1) rfl
    obtain ⟨v, history, service, idle⟩ := ih _ called (Function.update_self ..)
    refine ⟨v, ?_, service, idle⟩
    rw [List.append_assoc hs] at history
    exact history
  | pause n next ih =>
    have paused := h.step task (.paused op n next) trivial
    obtain ⟨v, history, service, idle⟩ := ih paused (Function.update_self ..)
    refine ⟨v, ?_, service, idle⟩
    rw [List.append_assoc hs] at history
    exact history

/-- a run of an operation is what happens if no other session comes in between -/
theorem run_alone (h : History server s hs w) {i : ι} (idle : w.task i = none) (op : Operation) :
    let r := op.program.run server w.service
    ∃ v, History server s
        (hs ++ ⟨i, .began op⟩ :: r.events.map (⟨i, .event ·⟩) ++ [⟨i, .ended op r.result⟩]) v ∧
      v.service = r.state ∧ v.task i = none := by
  have began := h.step idle (.began op) trivial
  obtain ⟨v, history, rest⟩ := began.run_rest (Function.update_self ..)
  refine ⟨v, ?_, rest⟩
  rw [List.append_assoc hs] at history
  exact history

end History

end Workflow.Session
