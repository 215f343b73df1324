import Workflow.Proofs.Session.Upsert

/-!
# What becomes of a call that fails

The service refuses a call, and the operation that has made the call ends with this refusal, code
and message as they were. It is so for every call of every operation but two: a create that finds
the name taken lets an upsert go on, and a describe that fails makes a start say that there is no
such pipeline, whatever the refusal was.

* `Program.PassesOn`          every refusal of a call is the result of the program;
* `passesOn_poll`             a wait passes on what a poll is refused with;
* `GoesOn`, `LooksUp`         the two exceptions;
* `failures_reach_caller`     what every operation makes of a refusal;
* `start_hides_throttling`    a start that reports a pipeline as missing which it did not look for.
-/

namespace Workflow.Session

open Service

/-! ## programs that pass on what they are refused with -/

namespace Program

variable {α : Type}

/-- if a call is refused, the refusal is the result -/
def PassesOn (p : Program (Result α)) : Prop :=
  ∀ es r, p.Yields es r → ∀ x ∈ exchanges es, ∀ t, x.answer = .error t → r = .error (.refused t)

theorem passesOn_request (c : Call) : (request c).PassesOn := by
  intro es r yields x hx t ht
  obtain ⟨a, rfl, rfl⟩ := yields_request_iff.mp yields
  obtain rfl := List.mem_singleton.mp hx
  have refused : a = .error t := ht
  rw [refused, reply]

theorem PassesOn.outcome {p : Program (Result α)} (h : p.PassesOn) (f : α → Outcome) :
    (outcome f p).PassesOn := by
  intro es r yields x hx t ht
  obtain ⟨y, hy, rfl⟩ := yields_outcome_iff.mp yields
  rw [h es y hy x hx t ht]
  rfl

end Program

theorem passesOn_poll (h : RunHandle) (o : WaitOptions) (left : Nat) : (poll h o left).PassesOn := by
  induction left with
  | zero =>
    intro es r yields x hx
    obtain ⟨rfl, -⟩ := Program.yields_done_iff.mp yields
    cases hx
  | succ left ih =>
    intro es r yields x hx t ht
    rw [poll_succ] at yields
    obtain ⟨(a : Except Refusal RunRecord), rest, rfl, next⟩ := Program.yields_call_iff.mp yields
    have cases_of : x = h.polled a ∨ x ∈ exchanges rest := List.mem_cons.mp hx
    cases decided : decided? h a with
    | some result =>
      -- the wait is over, so this poll is the one that failed
      simp only [decided] at next
      obtain ⟨rfl, rfl⟩ := Program.yields_done_iff.mp next
      obtain rfl := cases_of.resolve_right List.not_mem_nil
      have refused : a = .error t := ht
      rw [refused] at decided
      exact (Option.some.inj decided).symm
    | none =>
      simp only [decided] at next
      have later : x ∈ exchanges rest := by
        refine cases_of.resolve_left ?_
        rintro rfl
        exact decided?_eq_none_iff.mp decided (decisive_of_failed ⟨t, ht⟩)
      split at next
      · exact ih rest r next x later t ht
      · obtain ⟨es, rfl, last⟩ := Program.yields_pause_iff.mp next
        exact ih es r last x later t ht

/-! ## operations -/

/-- an upsert that is told at its create that the name is taken goes on -/
def GoesOn : Operation → Call → Refusal → Prop
  | .upsert _ _, .createPipeline _, t => t.SaysTaken
  | _, _, _ => False

/-- a start looks for its pipeline -/
def LooksUp : Operation → Call → Prop
  | .start _ _ _, .describePipeline _ => True
  | _, _ => False

variable {es : List Event} {r : Result Outcome} {x : Exchange} {t : Refusal}

theorem refused_of_upsert {p : Pipeline} {o : StoreOptions}
    (yields : (Operation.upsert p o).program.Yields es r) (hx : x ∈ exchanges es)
    (ht : x.answer = .error t) :
    (¬ GoesOn (.upsert p o) x.request t → r = .error (.refused t)) ∧
    (GoesOn (.upsert p o) x.request t → ∃ b : Except Refusal PipelineReceipt,
      exchanges es = [x, ⟨.updatePipeline (createRequest p o).bare, b⟩] ∧
        r = (reply b).map .stored) := by
  obtain ⟨y, hy, rfl⟩ := yields_outcome_iff.mp yields
  obtain ⟨a, free, rfl, rfl⟩ | ⟨u, b, taken, rfl, rfl⟩ := yields_upsert_iff.mp hy
  · obtain rfl := List.mem_singleton.mp hx
    have refused : a = .error t := ht
    refine ⟨fun _ => by rw [refused, reply]; rfl, ?_⟩
    intro taken
    have same := free t refused
    rw [Refusal.isNameTaken_iff.mpr taken] at same
    cases same
  · obtain rfl | second := List.mem_cons.mp hx
    · have refused : u = t := Except.error.inj ht
      refine ⟨?_, fun _ => ⟨b, rfl, rfl⟩⟩
      intro other
      exact absurd (Refusal.isNameTaken_iff.mp (refused ▸ taken)) other
    · obtain rfl := List.mem_singleton.mp second
      have refused : b = .error t := ht
      refine ⟨fun _ => by rw [refused, reply]; rfl, False.elim⟩

theorem refused_of_start {p : Pipeline} {values? : Option (List (String × Json))}
    {description? : Option String}
    (yields : (Operation.start p values? description?).program.Yields es r)
    (hx : x ∈ exchanges es) (ht : x.answer = .error t) :
    (¬ LooksUp (.start p values? description?) x.request → r = .error (.refused t)) ∧
    (LooksUp (.start p values? description?) x.request →
      exchanges es = [x] ∧ r = .error (.notStored p.name)) := by
  obtain ⟨y, hy, rfl⟩ := yields_outcome_iff.mp yields
  obtain ⟨u, rfl, rfl⟩ | ⟨record, a, rfl, rfl⟩ := yields_start_iff.mp hy
  · obtain rfl := List.mem_singleton.mp hx
    exact ⟨fun other => absurd trivial other, fun _ => ⟨rfl, rfl⟩⟩
  · obtain rfl | second := List.mem_cons.mp hx
    · cases ht
    · obtain rfl := List.mem_singleton.mp second
      have refused : a = .error t := ht
      exact ⟨fun _ => by rw [refused, reply]; rfl, False.elim⟩

/-- neither an upsert nor a start: no answer to a call is looked into -/
def Operation.Direct : Operation → Prop
  | upsert _ _ | start _ _ _ => False
  | _ => True

theorem Operation.Direct.passesOn {op : Operation} (direct : op.Direct) :
    op.program.PassesOn := by
  cases op with
  | upsert | start => exact direct.elim
  | wait h o => exact (passesOn_poll h o o.attempts).outcome _
  | _ => exact (Program.passesOn_request _).outcome _

/-- **What becomes of a refusal.** Whichever call of whichever operation is refused, the operation
ends with this refusal. But an upsert that is told at its create that the name is taken ends as the
update does that follows; and a start whose describe is refused makes no other call and ends with
the pipeline reported as not stored, whatever the refusal was. -/
theorem failures_reach_caller {σ : Type} {server : Server σ} {op : Operation} {s : σ}
    {run : Run σ (Result Outcome)} (hrun : run = op.program.run server s) {x : Exchange}
    (hx : x ∈ exchanges run.events) {t : Refusal} (ht : x.answer = .error t) :
    (¬ GoesOn op x.request t → ¬ LooksUp op x.request → run.result = .error (.refused t)) ∧
    (GoesOn op x.request t → ∃ (p : Pipeline) (o : StoreOptions)
      (b : Except Refusal PipelineReceipt), op = .upsert p o ∧
        exchanges run.events = [x, ⟨.updatePipeline (createRequest p o).bare, b⟩] ∧
        run.result = (reply b).map .stored) ∧
    (LooksUp op x.request → ∃ p values? description?, op = .start p values? description? ∧
      exchanges run.events = [x] ∧ run.result = .error (.notStored p.name)) := by
  have yields : op.program.Yields run.events run.result := hrun ▸ op.program.yields_run server s
  cases op with
  | upsert p o =>
    obtain ⟨passed, followed⟩ := refused_of_upsert yields hx ht
    refine ⟨fun other _ => passed other, ?_, False.elim⟩
    intro taken
    obtain ⟨b, calls, result⟩ := followed taken
    exact ⟨p, o, b, rfl, calls, result⟩
  | start p values? description? =>
    obtain ⟨passed, missing⟩ := refused_of_start yields hx ht
    exact ⟨fun _ other => passed other, False.elim, fun looks => ⟨p, _, _, rfl, missing looks⟩⟩
  | _ =>
    have passes := Operation.Direct.passesOn (by trivial) _ _ yields x hx t ht
    exact ⟨fun _ _ => passes, False.elim, False.elim⟩

def throttled : Refusal := ⟨"ThrottlingException", "Rate exceeded"⟩

/-- a run that goes on, and then no further account of it -/
def throttledAtSecond (i : Nat) : Except Refusal RunRecord :=
  if i = 0 then .ok ⟨"r", .executing, none, none, none, none, none⟩ else .error throttled

theorem failures_reach_caller_secondPoll :
    ((Operation.wait ⟨"r"⟩ ⟨5, 3⟩).program.run (.telling throttledAtSecond) 0).result =
      .error (.refused ⟨"ThrottlingException", "Rate exceeded"⟩) :=
  (failures_reach_caller rfl (x := ⟨.describeRun "r", .error throttled⟩) (.tail _ (.head _))
    rfl).1 id id

/-- a service that is too busy for any call -/
def Server.throttling : Server Unit where
  answer _ _ := (.error throttled, ())

/-- A start reports a pipeline as not stored when the service has only been too busy to say, so not
every refusal reaches the caller, those of a taken name and of a missing pipeline apart. -/
theorem start_hides_throttling : ¬ ∀ (op : Operation) (x : Exchange) (t : Refusal),
    x ∈ exchanges (op.program.run .throttling ()).events → x.answer = .error t →
      (op.program.run .throttling ()).result = .error (.refused t) ∨ GoesOn op x.request t ∨
        LooksUp op x.request ∧ t.code = "ResourceNotFound" := by
  intro h
  obtain same | ⟨⟨⟩⟩ | ⟨-, code⟩ := h (.start stepless none none)
    ⟨.describePipeline "p", .error throttled⟩ throttled (.head _) rfl
  · cases same
  · exact absurd code (by decide)

end Workflow.Session
