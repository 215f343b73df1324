import Mathlib.Data.List.Forall2
import Workflow.Proofs.Session.Polling

/-!
# The calls of a session

Operations are carried out one after another against a service that may answer anything. The calls
of each form a block: one call, or two for an upsert and a start, or the polls of a wait. Blocks
have few forms, and what is true of a call in its block stays true in the log of the session.

* `Block`                what an operation may send, with the answers that let it go on;
* `block_of_yields`      every way an operation can end makes such a block;
* `Block.cases_at`       a place in a block: a first call, or a second one and what went before it;
* `Block.*`              what a block says of its calls: their number, what goes before a start and
                         an update, the run they are about, and no second try;
* `inOrder`, `perform`   a session as one program, and operation by operation;
* `journal`              the log of a session with the operation behind each call;
* `journal_eq_append`    a place in the log is a place in a block;
* `session_discipline`   what is true of every log.
-/

namespace Workflow.Service

/-- the run that a call is about -/
def Call.run? : Call → Option String
  | stopRun arn | describeRun arn | listSteps arn => some arn
  | _ => none

end Workflow.Service

namespace Workflow.Session

open Service

/-! ## calls -/

def Exchange.Failed (x : Exchange) : Prop := ∃ t, x.answer = .error t

/-- a poll that gets this answer -/
def RunHandle.polled (h : RunHandle) (a : Except Refusal RunRecord) : Exchange :=
  ⟨.describeRun h.arn, a⟩

namespace Operation

/-- the first call of an operation -/
def opens : Operation → Call
  | create p o | upsert p o => .createPipeline (createRequest p o)
  | update p role description? => .updatePipeline (updateRequest p role description?)
  | describe p | start p _ _ => .describePipeline p.name
  | delete p => .deletePipeline p.name
  | stop h => .stopRun h.arn
  | describeRun h | wait h _ => .describeRun h.arn
  | listSteps h => .listSteps h.arn

/-- the first call is the only one -/
def Single : Operation → Prop
  | upsert _ _ | start _ _ _ | wait _ _ => False
  | _ => True

def handle? : Operation → Option RunHandle
  | stop h | describeRun h | listSteps h | wait h _ => some h
  | _ => none

/-- how many calls an operation may make -/
def MayMake : Operation → Nat → Prop
  | upsert _ _, n | start _ _ _, n => n = 1 ∨ n = 2
  | wait _ o, n => n ≤ o.attempts
  | _, n => n = 1

end Operation

/-! ## the calls of one operation -/

/-- what an operation sends, with the answers -/
inductive Block : Operation → List Exchange → Prop where
  | single {op : Operation} (h : op.Single) (a : op.opens.Answer) : Block op [⟨op.opens, a⟩]
  /-- an upsert that finds the name free, or fails in another way -/
  | created (p : Pipeline) (o : StoreOptions) (a : Except Refusal PipelineReceipt)
      (free : ∀ t, a = .error t → t.isNameTaken = false) :
      Block (.upsert p o) [⟨.createPipeline (createRequest p o), a⟩]
  | updated (p : Pipeline) (o : StoreOptions) (a : Except Refusal PipelineReceipt) {t : Refusal}
      (taken : t.isNameTaken = true) :
      Block (.upsert p o) [⟨.createPipeline (createRequest p o), .error t⟩,
        ⟨.updatePipeline (updateRequest p o.role o.description?), a⟩]
  | notStored (p : Pipeline) (values? : Option (List (String × Json)))
      (description? : Option String) (t : Refusal) :
      Block (.start p values? description?) [⟨.describePipeline p.name, .error t⟩]
  | started (p : Pipeline) (values? : Option (List (String × Json)))
      (description? : Option String) (record : PipelineRecord) (a : Except Refusal RunReceipt) :
      Block (.start p values? description?) [⟨.describePipeline p.name, .ok record⟩,
        ⟨.startRun (runRequest p values? description?), a⟩]
  /-- an answer that has another one after it decides nothing -/
  | polled (h : RunHandle) (o : WaitOptions) (answers : List (Except Refusal RunRecord))
      (few : answers.length ≤ o.attempts)
      (pending : answers.Pairwise fun a _ => ¬ Decisive a) :
      Block (.wait h o) (answers.map h.polled)

theorem decisive_of_failed {h : RunHandle} {a : Except Refusal RunRecord}
    (failed : (h.polled a).Failed) : Decisive a := by
  obtain ⟨t, ht⟩ := failed
  have same : a = .error t := ht
  rw [same]
  exact trivial

theorem exchanges_of_request {c : Call} {f : c.Response → Outcome} {es : List Event}
    {r : Result Outcome} (h : (outcome f (request c)).Yields es r) :
    ∃ a, exchanges es = [⟨c, a⟩] := by
  obtain ⟨x, hx, -⟩ := yields_outcome_iff.mp h
  obtain ⟨a, rfl, -⟩ := yields_request_iff.mp hx
  exact ⟨a, rfl⟩

/-- the polls of a wait: at most one for each attempt, and none after an answer that decides -/
theorem exchanges_of_poll {h : RunHandle} {o : WaitOptions} {left : Nat} {es : List Event}
    {r : Result RunRecord} (yields : (poll h o left).Yields es r) :
    ∃ answers : List (Except Refusal RunRecord), answers.length ≤ left ∧
      answers.Pairwise (fun a _ => ¬ Decisive a) ∧ exchanges es = answers.map h.polled := by
  induction left generalizing es with
  | zero =>
    obtain ⟨rfl, -⟩ := Program.yields_done_iff.mp yields
    exact ⟨[], Nat.le_refl 0, .nil, rfl⟩
  | succ left ih =>
    rw [poll_succ] at yields
    obtain ⟨(a : Except Refusal RunRecord), rest, rfl, next⟩ := Program.yields_call_iff.mp yields
    cases decided : decided? h a with
    | some result =>
      simp only [decided] at next
      obtain ⟨rfl, -⟩ := Program.yields_done_iff.mp next
      exact ⟨[a], Nat.le_add_left 1 left, List.pairwise_singleton _ a, rfl⟩
    | none =>
      -- another poll, after a pause that sends nothing, or the attempts are used up
      simp only [decided] at next
      have others : ∃ answers : List (Except Refusal RunRecord), answers.length ≤ left ∧
          answers.Pairwise (fun a _ => ¬ Decisive a) ∧ exchanges rest = answers.map h.polled := by
        split at next
        · exact ih next
        · obtain ⟨later, rfl, last⟩ := Program.yields_pause_iff.mp next
          have polls := ih last
          exact polls
      obtain ⟨answers, few, pending, same⟩ := others
      refine ⟨a :: answers, Nat.succ_le_succ few, ?_, ?_⟩
      · exact List.pairwise_cons.mpr ⟨fun _ _ => decided?_eq_none_iff.mp decided, pending⟩
      · show h.polled a :: exchanges rest = _
        rw [same]
        rfl

theorem Block.of_single {op : Operation} {block : List Exchange} (h : op.Single)
    (same : ∃ a, block = [⟨op.opens, a⟩]) : Block op block := by
  obtain ⟨a, rfl⟩ := same
  exact .single h a

/-- every way an operation can end makes a block -/
theorem block_of_yields {op : Operation} {es : List Event} {r : Result Outcome}
    (yields : op.program.Yields es r) : Block op (exchanges es) := by
  cases op with
  | upsert p o =>
    obtain ⟨x, hx, -⟩ := yields_outcome_iff.mp yields
    obtain ⟨a, free, rfl, -⟩ | ⟨t, a, taken, rfl, -⟩ := yields_upsert_iff.mp hx
    · exact .created p o a free
    · exact .updated p o a taken
  | start p values? description? =>
    obtain ⟨x, hx, -⟩ := yields_outcome_iff.mp yields
    obtain ⟨t, rfl, -⟩ | ⟨record, a, rfl, -⟩ := yields_start_iff.mp hx
    · exact .notStored p values? description? t
    · exact .started p values? description? record a
  | wait h o =>
    obtain ⟨x, hx, -⟩ := yields_outcome_iff.mp yields
    obtain ⟨answers, few, pending, same⟩ := exchanges_of_poll hx
    rw [same]
    exact .polled h o answers few pending
  | _ => exact .of_single trivial (exchanges_of_request yields)

/-- a handle is given out by a start alone, with what the service answered -/
theorem started_of_yields {op : Operation} {es : List Event} {h : RunHandle}
    (yields : op.program.Yields es (.ok (.started h))) :
    ∃ (r : RunRequest) (receipt : RunReceipt),
      ⟨.startRun r, .ok receipt⟩ ∈ exchanges es ∧ receipt.arn = h.arn := by
  cases op with
  | start p values? description? =>
    obtain ⟨x, hx, same⟩ := yields_outcome_iff.mp yields
    obtain ⟨t, rfl, rfl⟩ | ⟨record, a, rfl, rfl⟩ := yields_start_iff.mp hx
    · cases same
    · cases a with
      | error t => cases same
      | ok receipt =>
        cases same
        exact ⟨_, receipt, .tail _ (.head _), rfl⟩
  | _ =>
    obtain ⟨x, -, same⟩ := yields_outcome_iff.mp yields
    cases x <;> cases same

theorem append_eq_pair {before after : List Exchange} {x y z : Exchange}
    (h : before ++ x :: after = [y, z]) : before = [] ∧ x = y ∨ before = [y] ∧ x = z := by
  rcases before with _ | ⟨w, _ | ⟨v, before⟩⟩
  · cases h
    exact .inl ⟨rfl, rfl⟩
  · cases h
    exact .inr ⟨rfl, rfl⟩
  · simp at h

namespace Block

variable {op : Operation} {block before after : List Exchange} {x : Exchange}

theorem mayMake (h : Block op block) : op.MayMake block.length := by
  cases h with
  | single h a =>
    cases op with
    | upsert | start | wait => exact h.elim
    | _ => rfl
  | created | notStored => exact .inl rfl
  | updated | started => exact .inr rfl
  | polled h o answers few _ =>
    show (answers.map _).length ≤ o.attempts
    rwa [List.length_map]

/-- no call is made again after it failed -/
theorem no_second_try (h : Block op block) :
    block.Pairwise fun x y => x.Failed → y.request ≠ x.request := by
  cases h with
  | single | created | notStored => exact List.pairwise_singleton _ _
  | updated | started => exact List.pairwise_pair.mpr fun _ => nofun
  | polled h o answers _ pending =>
    refine List.pairwise_map.mpr (pending.imp ?_)
    exact fun undecided failed => absurd (decisive_of_failed failed) undecided

/-- a call is the first one made again, or the second one of an upsert or a start -/
theorem cases_at (h : Block op (before ++ x :: after)) :
    x.request = op.opens ∨
    (∃ p o t, op = .upsert p o ∧ Refusal.isNameTaken t = true ∧
      before = [⟨.createPipeline (createRequest p o), .error t⟩] ∧
      x.request = .updatePipeline (updateRequest p o.role o.description?)) ∨
    ∃ p values? description? record, op = .start p values? description? ∧
      before = [⟨.describePipeline p.name, .ok record⟩] ∧
      x.request = .startRun (runRequest p values? description?) := by
  generalize hblock : before ++ x :: after = block at h
  have mem : x ∈ block := hblock ▸ List.mem_append_right before (.head after)
  cases h with
  | single | created | notStored =>
    obtain rfl := List.mem_singleton.mp mem
    exact .inl rfl
  | updated p o a taken =>
    obtain ⟨rfl, rfl⟩ | ⟨rfl, rfl⟩ := append_eq_pair hblock
    · exact .inl rfl
    · exact .inr (.inl ⟨p, o, _, rfl, taken, rfl, rfl⟩)
  | started p values? description? record a =>
    obtain ⟨rfl, rfl⟩ | ⟨rfl, rfl⟩ := append_eq_pair hblock
    · exact .inl rfl
    · exact .inr (.inr ⟨p, values?, description?, record, rfl, rfl, rfl⟩)
  | polled =>
    obtain ⟨a, -, rfl⟩ := List.mem_map.mp mem
    exact .inl rfl

/-- a start goes out right after the pipeline was described -/
theorem start_after_describe (h : Block op (before ++ x :: after)) {r : RunRequest}
    (hx : x.request = .startRun r) : ∃ record : PipelineRecord,
      before = [⟨.describePipeline r.pipeline, .ok record⟩] := by
  obtain first | ⟨p, o, t, -, -, -, second⟩ | ⟨p, values?, d, record, -, rfl, second⟩ := h.cases_at
  · rw [first] at hx
    cases op <;> cases hx
  · rw [second] at hx
    cases hx
  · rw [second] at hx
    cases hx
    exact ⟨record, rfl⟩

/-- an update that nobody asked for goes out right after a create found the name taken -/
theorem update_after_create (h : Block op (before ++ x :: after)) {u : PipelineRequest}
    (hx : x.request = .updatePipeline u) (implicit : ∀ p role d, op ≠ .update p role d) :
    ∃ (c : PipelineRequest) (t : Refusal), before = [⟨.createPipeline c, .error t⟩] ∧
      t.isNameTaken = true ∧ c.name = u.name ∧ c.definition = u.definition := by
  obtain first | ⟨p, o, t, -, taken, rfl, second⟩ | ⟨p, values?, d, record, -, -, second⟩ :=
    h.cases_at
  · rw [first] at hx
    cases op with
    | update p role d => exact absurd rfl (implicit p role d)
    | _ => cases hx
  · rw [second] at hx
    cases hx
    exact ⟨createRequest p o, t, rfl, taken, rfl, rfl⟩
  · rw [second] at hx
    cases hx

/-- calls about a run are about the run of the handle -/
theorem exists_handle (h : Block op (before ++ x :: after)) {arn : String}
    (about : x.request.run? = some arn) : ∃ handle, op.handle? = some handle ∧ handle.arn = arn := by
  obtain first | ⟨p, o, t, -, -, -, second⟩ | ⟨p, values?, d, record, -, -, second⟩ := h.cases_at
  · rw [first] at about
    cases op <;> cases about
    all_goals exact ⟨_, rfl, rfl⟩
  · rw [second] at about
    cases about
  · rw [second] at about
    cases about

end Block

/-! ## operations one after another -/

/-- a session as one program, which gives the results in order -/
def inOrder : List Operation → Program (List (Result Outcome))
  | [] => .done []
  | op :: ops => op.program.bind fun r => (inOrder ops).map (r :: ·)

variable {σ : Type}

/-- the same operation by operation, each in the state that the one before has left -/
def perform (server : Server σ) : List Operation → σ → List (Run σ (Result Outcome))
  | [], _ => []
  | op :: ops, s =>
    let r := op.program.run server s
    r :: perform server ops r.state

/-- the log, block by block, with the operation behind each call -/
def journal (server : Server σ) (ops : List Operation) (s : σ) : List (Operation × Exchange) :=
  (List.zipWith (fun op r => (exchanges r.events).map (op, ·)) ops (perform server ops s)).flatten

theorem Program.run_map {α β : Type} (server : Server σ) (f : α → β) (p : Program α) (s : σ) :
    (p.map f).run server s =
      let r := p.run server s
      ⟨f r.result, r.events, r.state⟩ := by
  rw [map, run_bind]
  simp only [run, List.append_nil]

theorem run_inOrder (server : Server σ) (ops : List Operation) (s : σ) :
    ((inOrder ops).run server s).events = ((perform server ops s).map Run.events).flatten ∧
      ((inOrder ops).run server s).result = (perform server ops s).map Run.result := by
  induction ops generalizing s with
  | nil => exact ⟨rfl, rfl⟩
  | cons op ops ih =>
    obtain ⟨events, results⟩ := ih (op.program.run server s).state
    simp only [inOrder, Program.run_bind, Program.run_map]
    exact ⟨congrArg _ events, congrArg _ results⟩

/-- each block is made by its operation, in the state in which its turn comes -/
theorem forall₂_perform (server : Server σ) (ops : List Operation) (s : σ) :
    List.Forall₂ (fun op r => ∃ t, r = op.program.run server t) ops (perform server ops s) := by
  induction ops generalizing s with
  | nil => exact .nil
  | cons op ops ih => exact .cons ⟨s, rfl⟩ (ih _)

theorem block_run (server : Server σ) (op : Operation) (s : σ) :
    Block op (exchanges (op.program.run server s).events) :=
  block_of_yields (op.program.yields_run server s)

theorem journal_cons (server : Server σ) (op : Operation) (ops : List Operation) (s : σ) :
    journal server (op :: ops) s =
      let r := op.program.run server s
      (exchanges r.events).map (op, ·) ++ journal server ops r.state := rfl

theorem journal_exchanges (server : Server σ) (ops : List Operation) (s : σ) :
    (journal server ops s).map Prod.snd = exchanges ((inOrder ops).run server s).events := by
  rw [(run_inOrder server ops s).1]
  induction ops generalizing s with
  | nil => rfl
  | cons op ops ih =>
    rw [journal_cons, perform, List.map_cons, List.flatten_cons, exchanges_append, List.map_append,
      ih, List.map_map]
    show (exchanges _).map id ++ _ = _
    rw [List.map_id]

theorem mem_journal {server : Server σ} {ops : List Operation} {s : σ} {r : Run σ (Result Outcome)}
    (hr : r ∈ perform server ops s) : ∃ op t, r = op.program.run server t ∧
      ∀ x ∈ exchanges r.events, (op, x) ∈ journal server ops s := by
  induction ops generalizing s with
  | nil => cases hr
  | cons op ops ih =>
    rw [journal_cons]
    obtain rfl | later := List.mem_cons.mp hr
    · exact ⟨op, s, rfl, fun x hx => List.mem_append_left _ (List.mem_map_of_mem hx)⟩
    · obtain ⟨op', t, same, mem⟩ := ih later
      exact ⟨op', t, same, fun x hx => List.mem_append_right _ (mem x hx)⟩

/-- a place in the log is a place in the block of an operation, after the blocks before it -/
theorem journal_eq_append {server : Server σ} {ops : List Operation} {s : σ}
    {before after : List (Operation × Exchange)} {op : Operation} {x : Exchange}
    (h : journal server ops s = before ++ (op, x) :: after) :
    ∃ earlier later front back t, ops = earlier ++ op :: later ∧
      before = journal server earlier s ++ front.map (op, ·) ∧
      exchanges (op.program.run server t).events = front ++ x :: back := by
  induction ops generalizing s before with
  | nil => exact absurd h.symm (List.append_ne_nil_of_right_ne_nil _ nofun)
  | cons first ops ih =>
    rw [journal_cons] at h
    have later (as : List (Operation × Exchange))
        (hbefore : before = (exchanges (first.program.run server s).events).map (first, ·) ++ as)
        (hrest : journal server ops (first.program.run server s).state = as ++ (op, x) :: after) :
        ∃ earlier later front back t, first :: ops = earlier ++ op :: later ∧
          before = journal server earlier s ++ front.map (op, ·) ∧
          exchanges (op.program.run server t).events = front ++ x :: back := by
      obtain ⟨earlier, later, front, back, t, rfl, rfl, same⟩ := ih hrest
      refine ⟨first :: earlier, later, front, back, t, rfl, ?_, same⟩
      rw [hbefore, journal_cons, List.append_assoc]
    -- the place is in the log of the later operations or in the first block
    obtain ⟨as, hbefore, hrest⟩ | ⟨bs, hblock, hafter⟩ := List.append_eq_append_iff.mp h
    · exact later as hbefore hrest
    · cases bs with
      | nil =>
        rw [List.append_nil] at hblock
        exact later [] (by rw [hblock, List.append_nil]) hafter.symm
      | cons y bs =>
        obtain ⟨front, back, split, rfl, hback⟩ := List.map_eq_append_iff.mp hblock
        obtain ⟨x', back, rfl, hx, -⟩ := List.map_eq_cons_iff.mp hback
        obtain ⟨rfl, -⟩ := List.cons.inj hafter
        cases hx
        exact ⟨[], ops, front, back, s, rfl, rfl, split⟩

/-! ## what is true of every log -/

/-- a run is dealt with only by handles that earlier starts have given out -/
def Obtained (server : Server σ) (ops : List Operation) (s : σ) : Prop :=
  ∀ earlier op later, ops = earlier ++ op :: later → ∀ h, op.handle? = some h →
    ∃ r ∈ perform server earlier s, r.result = .ok (.started h)

/-- a handle that was given out was answered to a start, and the log shows it -/
theorem exists_start_of_result {server : Server σ} {ops : List Operation} {s : σ}
    {r : Run σ (Result Outcome)} {h : RunHandle} (hr : r ∈ perform server ops s)
    (result : r.result = .ok (.started h)) : ∃ (op : Operation) (q : RunRequest)
      (receipt : RunReceipt), (op, ⟨.startRun q, .ok receipt⟩) ∈ journal server ops s ∧
        receipt.arn = h.arn := by
  obtain ⟨op, t, rfl, mem⟩ := mem_journal hr
  obtain ⟨q, receipt, answered, same⟩ :=
    started_of_yields (result ▸ op.program.yields_run server t)
  exact ⟨op, q, receipt, mem _ answered, same⟩

/-- **The discipline of a session.** Its log is made of one block for each operation, in order: one
call, or one or two for an upsert and a start, or as many as attempts for a wait, and none of them
again after it failed. Wherever a call stands in the log: before a start the pipeline was just
described; before an update that is not one by itself a create of the same pipeline was just
answered by a name that is taken; a call about a run names a run that the service answered to an
earlier start. -/
theorem session_discipline {server : Server σ} {ops : List Operation} {s : σ}
    (obtained : Obtained server ops s) {log : List Exchange}
    (hlog : log = exchanges ((inOrder ops).run server s).events) :
    log = ((perform server ops s).map fun r => exchanges r.events).flatten ∧
    log = (journal server ops s).map Prod.snd ∧
    List.Forall₂ (fun op r => op.MayMake r.calls.length ∧
      (exchanges r.events).Pairwise fun x y => x.Failed → y.request ≠ x.request)
      ops (perform server ops s) ∧
    ∀ before op x after, journal server ops s = before ++ (op, x) :: after →
      (∀ r, x.request = .startRun r → ∃ earlier record,
        before = earlier ++ [(op, ⟨.describePipeline r.pipeline, .ok record⟩)]) ∧
      (∀ u, x.request = .updatePipeline u → (∀ p role d, op ≠ .update p role d) →
        ∃ earlier c t, before = earlier ++ [(op, ⟨.createPipeline c, .error t⟩)] ∧
          t.isNameTaken = true ∧ c.name = u.name ∧ c.definition = u.definition) ∧
      (∀ arn, x.request.run? = some arn → ∃ op' q receipt,
        (op', ⟨.startRun q, .ok receipt⟩) ∈ before ∧ RunReceipt.arn receipt = arn) := by
  subst hlog
  refine ⟨?_, (journal_exchanges server ops s).symm, ?_, ?_⟩
  · rw [(run_inOrder server ops s).1, exchanges, List.filterMap_flatten, List.map_map]
    rfl
  · refine (forall₂_perform server ops s).imp ?_
    rintro op r ⟨t, rfl⟩
    have block := block_run server op t
    refine ⟨?_, block.no_second_try⟩
    rw [Run.calls_eq, List.length_map]
    exact block.mayMake
  · intro before op x after h
    obtain ⟨earlier, later, front, back, t, rfl, rfl, same⟩ := journal_eq_append h
    have block : Block op (front ++ x :: back) := same ▸ block_run server op t
    refine ⟨?_, ?_, ?_⟩
    · intro r hx
      obtain ⟨record, rfl⟩ := block.start_after_describe hx
      exact ⟨_, record, rfl⟩
    · intro u hx implicit
      obtain ⟨c, t, rfl, taken, name, definition⟩ := block.update_after_create hx implicit
      exact ⟨_, c, t, rfl, taken, name, definition⟩
    · -- the call is about the run of a handle, and the handle is a result of what was before
      intro arn about
      obtain ⟨handle, hop, rfl⟩ := block.exists_handle about
      obtain ⟨r, hr, result⟩ := obtained earlier op later rfl handle hop
      obtain ⟨op', q, receipt, mem, arn⟩ := exists_start_of_result hr result
      exact ⟨op', q, receipt, List.mem_append_left _ mem, arn⟩

/-- a service that has a pipeline of every name and starts runs, but gives no account of them -/
def Server.holding : Server Unit where
  answer
    | .createPipeline _, _ => (.error ⟨Refusal.validationCode, Refusal.takenMessage⟩, ())
    | .updatePipeline r, _ => (.ok ⟨r.name⟩, ())
    | .describePipeline name, _ => (.ok ⟨name, name, none, none, none, none, none, none⟩, ())
    | .startRun r, _ => (.ok ⟨r.pipeline⟩, ())
    | .stopRun arn, _ => (.ok ⟨arn⟩, ())
    | _, _ => (.error ⟨"AccessDenied", ""⟩, ())

/-- a pipeline without steps, stored, started, waited for and stopped -/
def firstRun : List Operation :=
  [.upsert ⟨"p", [], [], []⟩ ⟨"role", none, none, none⟩, .start ⟨"p", [], [], []⟩ none none,
    .wait ⟨"p"⟩ ⟨5, 2⟩, .stop ⟨"p"⟩]

theorem obtained_firstRun : Obtained .holding firstRun () := by
  have started (ops : List Operation) : ∃ r ∈ perform .holding (firstRun.take 2 ++ ops) (),
      r.result = .ok (.started ⟨"p"⟩) :=
    ⟨_, .tail _ (.head _), rfl⟩
  rintro (_ | ⟨_, _ | ⟨_, _ | ⟨_, _ | ⟨_, earlier⟩⟩⟩⟩) op later h handle hop
  · cases h
    cases hop
  · cases h
    cases hop
  · cases h
    cases hop
    exact started []
  · cases h
    cases hop
    exact started [.wait ⟨"p"⟩ ⟨5, 2⟩]
  · simp [firstRun] at h

theorem session_discipline_firstRun :
    (exchanges ((inOrder firstRun).run .holding ()).events).map Exchange.request =
      [.createPipeline (createRequest ⟨"p", [], [], []⟩ ⟨"role", none, none, none⟩),
        .updatePipeline (updateRequest ⟨"p", [], [], []⟩ "role" none), .describePipeline "p",
        .startRun ⟨"p", none, none⟩, .describeRun "p", .stopRun "p"] ∧
    ∃ op q receipt, (op, ⟨.startRun q, .ok receipt⟩) ∈ (journal .holding firstRun ()).take 5 ∧
      RunReceipt.arn receipt = "p" :=
  ⟨rfl, ((session_discipline obtained_firstRun rfl).2.2.2 ((journal .holding firstRun ()).take 5)
    (.stop ⟨"p"⟩) ⟨.stopRun "p", .ok ⟨"p"⟩⟩ [] rfl).2.2 "p" rfl⟩

end Workflow.Session
