import Workflow.Proofs.Session.Discipline

/-!
# An upsert is a create, or else an update

An upsert creates. If the service says that the name is taken it updates, with the request that an
update by itself would send; whatever else comes back goes to the caller as it is. To say that a
name is taken is a code and some words anywhere in the message.

* `Refusal.SaysTaken`                a name is taken, in the words of the service;
* `PipelineRequest.bare`             a request without experiment and tags;
* `run_upsert`                       an upsert as a create and, if need be, an update;
* `upsert_creates_else_updates`      its calls, its result and what the calls carry.
-/

namespace Workflow.Service

namespace Refusal

theorem occursIn_iff {part cs : List Char} : occursIn part cs = true ↔ part <:+: cs := by
  induction cs with
  | nil => rw [occursIn, List.isEmpty_iff, List.infix_nil]
  | cons c cs ih =>
    rw [occursIn, Bool.or_eq_true, ih, List.isPrefixOf_iff_prefix, List.infix_cons_iff]

/-- the code of an invalid request, and in the message that the name is in use -/
def SaysTaken (t : Refusal) : Prop :=
  t.code = "ValidationException" ∧
    ∃ before after, t.message = before ++ "Pipeline names must be unique within" ++ after

theorem infix_toList_iff {part s : String} :
    part.toList <:+: s.toList ↔ ∃ before after, s = before ++ part ++ after := by
  constructor
  · rintro ⟨before, after, h⟩
    refine ⟨.ofList before, .ofList after, ?_⟩
    apply String.toList_injective
    rw [String.toList_append, String.toList_append, String.toList_ofList, String.toList_ofList, h]
  · rintro ⟨before, after, rfl⟩
    refine ⟨before.toList, after.toList, ?_⟩
    rw [String.toList_append, String.toList_append]

theorem isNameTaken_iff {t : Refusal} : t.isNameTaken = true ↔ t.SaysTaken := by
  rw [isNameTaken, Bool.and_eq_true, beq_iff_eq, occursIn_iff, infix_toList_iff]
  rfl

end Refusal

namespace PipelineRequest

/-- without experiment and tags -/
def bare (r : PipelineRequest) : PipelineRequest := { r with experiment? := none, tags? := none }

/-- on the wire two keys are left out, and all else is there in its order -/
theorem toJson_bare (r : PipelineRequest) : ∃ fields, r.toJson = .object fields ∧
    r.bare.toJson = .object (fields.filter fun f => f.1 ∉ ["ExperimentName", "Tags"]) := by
  obtain ⟨name, definition, role, description?, experiment?, tags?⟩ := r
  refine ⟨_, rfl, ?_⟩
  cases description? <;> cases experiment? <;> cases tags? <;> rfl

end PipelineRequest

end Workflow.Service

namespace Workflow.Session

open Service

variable {σ : Type}

theorem run_request {server : Server σ} {c : Call} {s t : σ} {a : c.Answer}
    (h : server.answer c s = (a, t)) : (request c).run server s = ⟨reply a, [.called c a], t⟩ := by
  have asked : (Program.ask c).run server s = ⟨a, [.called c a], t⟩ := by
    rw [Program.ask, Program.run, h]
    rfl
  rw [request, Program.run_map, asked]
  cases a <;> rfl

/-- an upsert is a create, and an update after it if the name is taken -/
theorem run_upsert (server : Server σ) (p : Pipeline) (o : StoreOptions) (s : σ) :
    (upsert p o).run server s =
      let first := (create p o).run server s
      match first.result with
      | .error (.refused t) =>
        if t.isNameTaken then
          let second := (update p o.role o.description?).run server first.state
          ⟨second.result, first.events ++ second.events, second.state⟩
        else first
      | _ => first := by
  rw [upsert, Program.run_bind]
  generalize (create p o).run server s = first
  obtain ⟨result, events, state⟩ := first
  have nothing_more (r : Result PipelineReceipt) :
      (⟨r, events ++ [], state⟩ : Run σ (Result PipelineReceipt)) = ⟨r, events, state⟩ := by
    rw [List.append_nil]
  cases result with
  | ok receipt => exact nothing_more _
  | error e =>
    cases e with
    | refused t =>
      by_cases taken : t.isNameTaken = true
      · simp only [if_pos taken]
      · simp only [if_neg taken]
        exact nothing_more _
    | _ => exact nothing_more _

/-- **An upsert is a create, or else an update.** What the service answers to the create is the
result, unless it says that the name is taken; then the answer to the update is. Both calls carry
the pipeline, its definition, the role and the description, and the update nothing else: it is the
call that an update by itself makes. -/
theorem upsert_creates_else_updates (p : Pipeline) (o : StoreOptions) {r : PipelineRequest}
    (hr : r = createRequest p o) {server : Server σ} {s t t' : σ}
    {a b : Except Refusal PipelineReceipt} (ha : server.answer (.createPipeline r) s = (a, t))
    (hb : server.answer (.updatePipeline r.bare) t = (b, t')) :
    (∀ refusal, a = .error refusal → refusal.SaysTaken →
      ((upsert p o).run server s).events =
          [.called (.createPipeline r) a, .called (.updatePipeline r.bare) b] ∧
        ((upsert p o).run server s).result = reply b) ∧
    ((∀ refusal, a = .error refusal → ¬ refusal.SaysTaken) →
      ((upsert p o).run server s).events = [.called (.createPipeline r) a] ∧
        ((upsert p o).run server s).result = reply a) ∧
    r = ⟨p.name, p.definition, o.role, o.description?, o.experiment?, o.tags?⟩ ∧
    r.bare = ⟨p.name, p.definition, o.role, o.description?, none, none⟩ ∧
    (∃ fields, r.toJson = .object fields ∧
      r.bare.toJson = .object (fields.filter fun f => f.1 ∉ ["ExperimentName", "Tags"])) ∧
    ((update p o.role o.description?).run server t).events =
      [.called (.updatePipeline r.bare) b] := by
  subst hr
  have created : (create p o).run server s = ⟨reply a, [.called (.createPipeline _) a], t⟩ :=
    run_request ha
  have updated : (update p o.role o.description?).run server t =
      ⟨reply b, [.called (.updatePipeline _) b], t'⟩ := run_request hb
  refine ⟨?_, ?_, rfl, rfl, PipelineRequest.toJson_bare _, congrArg Run.events updated⟩
  · rintro refusal rfl taken
    rw [run_upsert, created]
    simp only [reply, if_pos (Refusal.isNameTaken_iff.mpr taken), updated]
    exact ⟨rfl, trivial⟩
  · intro other
    rw [run_upsert, created]
    cases a with
    | ok receipt => exact ⟨rfl, rfl⟩
    | error refusal =>
      have free : ¬ refusal.isNameTaken = true := fun taken =>
        other refusal rfl (Refusal.isNameTaken_iff.mp taken)
      simp only [reply, if_neg free]
      exact ⟨trivial, trivial⟩

/-- a service with one answer to a create and one to an update -/
def Server.answering (a b : Except Refusal PipelineReceipt) : Server Unit where
  answer
    | .createPipeline _, _ => (a, ())
    | .updatePipeline _, _ => (b, ())
    | _, _ => (.error ⟨"UnknownOperation", ""⟩, ())

theorem Server.answering_create (a b : Except Refusal PipelineReceipt) (r : PipelineRequest) :
    (answering a b).answer (.createPipeline r) () = (a, ()) := rfl

theorem Server.answering_update (a b : Except Refusal PipelineReceipt) (r : PipelineRequest) :
    (answering a b).answer (.updatePipeline r) () = (b, ()) := rfl

def stepless : Pipeline := ⟨"p", [], [], []⟩

def fullOptions : StoreOptions := ⟨"role", some "nightly", some "e", some [⟨"team", "ml"⟩]⟩

/-- a name that is taken, said in the middle of a message -/
def takenInTheMiddle : Refusal :=
  ⟨"ValidationException", "p: Pipeline names must be unique within an account"⟩

/-- the same words under another code -/
def takenByLimit : Refusal :=
  ⟨"ResourceLimitExceeded", "Pipeline names must be unique within an account"⟩

theorem upsert_creates_else_updates_refusedTwice :
    let refused := (upsert stepless fullOptions).run
      (.answering (.error takenInTheMiddle) (.error takenByLimit)) ()
    let other := (upsert stepless fullOptions).run (.answering (.error takenByLimit) (.ok ⟨"p"⟩)) ()
    refused.result = .error (.refused takenByLimit) ∧
      refused.events = [.called (.createPipeline (createRequest stepless fullOptions))
          (.error takenInTheMiddle),
        .called (.updatePipeline (updateRequest stepless "role" (some "nightly")))
          (.error takenByLimit)] ∧
      other.result = .error (.refused takenByLimit) ∧
      other.events = [.called (.createPipeline (createRequest stepless fullOptions))
        (.error takenByLimit)] := by
  have taken : takenInTheMiddle.SaysTaken := ⟨rfl, "p: ", " an account", rfl⟩
  have free : ¬ takenByLimit.SaysTaken := fun h => absurd h.1 (by decide)
  have refused := (upsert_creates_else_updates stepless fullOptions rfl
    (Server.answering_create (.error takenInTheMiddle) (.error takenByLimit) _)
    (Server.answering_update _ _ _)).1 _ rfl taken
  have other := (upsert_creates_else_updates stepless fullOptions rfl
    (Server.answering_create (.error takenByLimit) (.ok ⟨"p"⟩) _)
    (Server.answering_update _ _ _)).2.1 fun t ht => Except.error.inj ht ▸ free
  exact ⟨refused.2, refused.1, other.2, other.1⟩

end Workflow.Session
