import Workflow.Session.Basic

/-!
# What a program can come to

A program fixes its calls and leaves their answers open, so it can end in many ways. Here every way
is a list of events with the result at its end, whoever answers; a run against a server is one of
them. What an operation can come to is stated once for each operation.

* `Program.Yields`            a program can end with a result after a list of events;
* `Program.yields_bind_iff`   one program after another: events in a row;
* `Program.yields_run`        the run of a program is one of the ways it can end;
* `yields_upsert_iff`, `yields_start_iff`   one call, or two of them;
* `Exchange`, `exchanges`     the calls among the events, with their answers.
-/

namespace Workflow.Session

open Service

namespace Program

variable {α β : Type}

/-- the program can end with this result after these events -/
inductive Yields : Program α → List Event → α → Prop where
  | done (x : α) : Yields (done x) [] x
  | call {c : Call} {next : c.Answer → Program α} (a : c.Answer) {es : List Event} {x : α}
      (h : Yields (next a) es x) : Yields (call c next) (.called c a :: es) x
  | pause (n : Nat) {next : Program α} {es : List Event} {x : α} (h : Yields next es x) :
      Yields (pause n next) (.paused n :: es) x

theorem yields_done_iff {x y : α} {es : List Event} : (done x).Yields es y ↔ es = [] ∧ y = x := by
  constructor
  · rintro ⟨⟩
    exact ⟨rfl, rfl⟩
  · rintro ⟨rfl, rfl⟩
    exact .done y

theorem yields_call_iff {c : Call} {next : c.Answer → Program α} {es : List Event} {x : α} :
    (call c next).Yields es x ↔ ∃ a rest, es = .called c a :: rest ∧ (next a).Yields rest x := by
  constructor
  · rintro ⟨⟩
    exact ⟨_, _, rfl, ‹_›⟩
  · rintro ⟨a, rest, rfl, h⟩
    exact .call a h

theorem yields_pause_iff {n : Nat} {next : Program α} {es : List Event} {x : α} :
    (pause n next).Yields es x ↔ ∃ rest, es = .paused n :: rest ∧ next.Yields rest x := by
  constructor
  · rintro ⟨⟩
    exact ⟨_, rfl, ‹_›⟩
  · rintro ⟨rest, rfl, h⟩
    exact .pause n h

/-- the events of one program after another are those of the first, then those of the second -/
theorem yields_bind_iff {p : Program α} {f : α → Program β} {es : List Event} {y : β} :
    (p.bind f).Yields es y ↔
      ∃ x first rest, p.Yields first x ∧ (f x).Yields rest y ∧ es = first ++ rest := by
  induction p generalizing es with
  | done x =>
    constructor
    · intro h
      exact ⟨x, [], es, .done x, h, rfl⟩
    · rintro ⟨_, _, rest, ⟨⟩, h, rfl⟩
      exact h
  | call c next ih =>
    rw [bind, yields_call_iff]
    constructor
    · rintro ⟨a, rest, rfl, h⟩
      obtain ⟨x, first, last, hfirst, hlast, rfl⟩ := (ih a).mp h
      exact ⟨x, _, last, .call a hfirst, hlast, rfl⟩
    · rintro ⟨x, _, last, hcall, hlast, rfl⟩
      obtain ⟨a, first, rfl, hfirst⟩ := yields_call_iff.mp hcall
      exact ⟨a, first ++ last, rfl, (ih a).mpr ⟨x, first, last, hfirst, hlast, rfl⟩⟩
  | pause n next ih =>
    rw [bind, yields_pause_iff]
    constructor
    · rintro ⟨rest, rfl, h⟩
      obtain ⟨x, first, last, hfirst, hlast, rfl⟩ := ih.mp h
      exact ⟨x, _, last, .pause n hfirst, hlast, rfl⟩
    · rintro ⟨x, _, last, hpause, hlast, rfl⟩
      obtain ⟨first, rfl, hfirst⟩ := yields_pause_iff.mp hpause
      exact ⟨first ++ last, rfl, ih.mpr ⟨x, first, last, hfirst, hlast, rfl⟩⟩

theorem yields_map_iff {f : α → β} {p : Program α} {es : List Event} {y : β} :
    (p.map f).Yields es y ↔ ∃ x, p.Yields es x ∧ y = f x := by
  rw [map, yields_bind_iff]
  constructor
  · rintro ⟨x, first, _, hfirst, hlast, rfl⟩
    obtain ⟨rfl, rfl⟩ := yields_done_iff.mp hlast
    rw [List.append_nil]
    exact ⟨x, hfirst, rfl⟩
  · rintro ⟨x, h, rfl⟩
    exact ⟨x, es, [], h, .done _, (List.append_nil es).symm⟩

/-- a run is one of the ways a program can end, whatever the server -/
theorem yields_run {σ : Type} (server : Server σ) (p : Program α) (s : σ) :
    p.Yields (p.run server s).events (p.run server s).result := by
  induction p generalizing s with
  | done x => exact .done x
  | call c next ih => exact .call _ (ih _ _)
  | pause n next ih => exact .pause n (ih s)

/-- whatever is left of a program, it can end -/
theorem exists_yields (p : Program α) : ∃ es x, p.Yields es x :=
  ⟨_, _, p.yields_run ⟨fun _ s => (.error ⟨"", ""⟩, s)⟩ ()⟩

end Program

/-! ## one call -/

/-- the answer to a call as the result of an operation -/
def reply {α : Type} : Except Refusal α → Result α
  | .ok x => .ok x
  | .error t => .error (.refused t)

theorem yields_request_iff {c : Call} {es : List Event} {r : Result c.Response} :
    (request c).Yields es r ↔ ∃ a, es = [.called c a] ∧ r = reply a := by
  rw [request, Program.yields_map_iff]
  constructor
  · rintro ⟨a, h, rfl⟩
    obtain ⟨b, rest, rfl, hdone⟩ := Program.yields_call_iff.mp h
    obtain ⟨rfl, rfl⟩ := Program.yields_done_iff.mp hdone
    refine ⟨a, rfl, ?_⟩
    cases a <;> rfl
  · rintro ⟨a, rfl, rfl⟩
    refine ⟨a, .call a (.done a), ?_⟩
    cases a <;> rfl

theorem yields_outcome_iff {α : Type} {f : α → Outcome} {p : Program (Result α)} {es : List Event}
    {r : Result Outcome} : (outcome f p).Yields es r ↔ ∃ x, p.Yields es x ∧ r = x.map f := by
  rw [outcome, Program.yields_map_iff]
  refine exists_congr fun x => and_congr_right fun _ => ?_
  cases x <;> rfl

/-! ## two calls -/

/-- an upsert creates, and updates if the name is taken -/
theorem yields_upsert_iff {p : Pipeline} {o : StoreOptions} {es : List Event}
    {r : Result PipelineReceipt} : (upsert p o).Yields es r ↔
      (∃ a : Except Refusal PipelineReceipt, (∀ t, a = .error t → t.isNameTaken = false) ∧
        es = [.called (.createPipeline (createRequest p o)) a] ∧ r = reply a) ∨
      ∃ (t : Refusal) (a : Except Refusal PipelineReceipt), t.isNameTaken = true ∧
        es = [.called (.createPipeline (createRequest p o)) (.error t),
          .called (.updatePipeline (updateRequest p o.role o.description?)) a] ∧ r = reply a := by
  rw [upsert, Program.yields_bind_iff]
  constructor
  · rintro ⟨x, first, rest, hcreate, hrest, rfl⟩
    obtain ⟨a, rfl, rfl⟩ := yields_request_iff.mp hcreate
    cases a with
    | ok receipt =>
      obtain ⟨rfl, rfl⟩ := Program.yields_done_iff.mp hrest
      exact .inl ⟨.ok receipt, nofun, rfl, rfl⟩
    | error t =>
      simp only [reply] at hrest
      split at hrest
      · rename_i taken
        obtain ⟨a, rfl, rfl⟩ := yields_request_iff.mp hrest
        exact .inr ⟨t, a, taken, rfl, rfl⟩
      · rename_i free
        obtain ⟨rfl, rfl⟩ := Program.yields_done_iff.mp hrest
        refine .inl ⟨.error t, ?_, rfl, rfl⟩
        rintro _ ⟨⟩
        simpa using free
  · rintro (⟨a, free, rfl, rfl⟩ | ⟨t, a, taken, rfl, rfl⟩)
    · refine ⟨reply a, _, [], yields_request_iff.mpr ⟨a, rfl, rfl⟩, ?_, rfl⟩
      cases a with
      | ok receipt => exact .done _
      | error t =>
        simp only [reply, free t rfl]
        exact .done _
    · refine ⟨.error (.refused t), _, _, yields_request_iff.mpr ⟨.error t, rfl, rfl⟩, ?_, rfl⟩
      simp only [taken]
      exact yields_request_iff.mpr ⟨a, rfl, rfl⟩

/-- what goes out when a run is started -/
def runRequest (p : Pipeline) (values? : Option (List (String × Json)))
    (description? : Option String) : RunRequest :=
  ⟨p.name, values?.map overridesOf, description?⟩

/-- a start describes, and starts if there is something to describe -/
theorem yields_start_iff {p : Pipeline} {values? : Option (List (String × Json))}
    {description? : Option String} {es : List Event} {r : Result RunHandle} :
    (start p values? description?).Yields es r ↔
      (∃ t : Refusal, es = [.called (.describePipeline p.name) (.error t)] ∧
        r = .error (.notStored p.name)) ∨
      ∃ (record : PipelineRecord) (a : Except Refusal RunReceipt),
        es = [.called (.describePipeline p.name) (.ok record),
          .called (.startRun (runRequest p values? description?)) a] ∧
          r = (reply a).map fun receipt => ⟨receipt.arn⟩ := by
  rw [start, Program.yields_bind_iff]
  constructor
  · rintro ⟨x, first, rest, hdescribe, hrest, rfl⟩
    obtain ⟨a, rfl, rfl⟩ := yields_request_iff.mp hdescribe
    cases a with
    | error t =>
      obtain ⟨rfl, rfl⟩ := Program.yields_done_iff.mp hrest
      exact .inl ⟨t, rfl, rfl⟩
    | ok record =>
      obtain ⟨x, hrun, rfl⟩ := Program.yields_map_iff.mp hrest
      obtain ⟨a, rfl, rfl⟩ := yields_request_iff.mp hrun
      refine .inr ⟨record, a, rfl, ?_⟩
      cases a <;> rfl
  · rintro (⟨t, rfl, rfl⟩ | ⟨record, a, rfl, rfl⟩)
    · exact ⟨_, _, [], yields_request_iff.mpr ⟨.error t, rfl, rfl⟩, .done _, rfl⟩
    · refine ⟨_, _, _, yields_request_iff.mpr ⟨.ok record, rfl, rfl⟩,
        Program.yields_map_iff.mpr ⟨_, yields_request_iff.mpr ⟨a, rfl, rfl⟩, ?_⟩, rfl⟩
      cases a <;> rfl

/-! ## calls and answers -/

structure Exchange where
  request : Call
  answer : request.Answer

def Event.exchange? : Event → Option Exchange
  | .called c a => some ⟨c, a⟩
  | .paused _ => none

/-- the calls with their answers, pauses left out -/
def exchanges (es : List Event) : List Exchange := es.filterMap Event.exchange?

theorem exchanges_append (es fs : List Event) :
    exchanges (es ++ fs) = exchanges es ++ exchanges fs :=
  List.filterMap_append

theorem Run.calls_eq {σ α : Type} (r : Run σ α) :
    r.calls = (exchanges r.events).map Exchange.request := by
  rw [Run.calls, exchanges, List.map_filterMap]
  congr 1
  funext e
  cases e <;> rfl

end Workflow.Session
