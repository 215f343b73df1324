import Workflow.Proofs.Session.Discipline
import Workflow.Proofs.Session.Interleaving

/-!
# Sessions that store pipelines under the same names

The service keeps one request for each name. Sessions create, update and delete, their calls in any
order. What is stored can be told from the calls that succeeded, so an upsert, which sees the name
taken and then finds nothing to update, must have missed a delete.

* `KeepsStore`                  what is relied on: each call finds the name free or in use, and does
                                what it says or nothing;
* `Action.change?`, `replay`    what is stored, told from the calls that succeeded;
* `KeepsStore.stored_service`   it is what the service has stored, whatever the order of the calls;
* `replay_cases`                an entry nobody has touched, or the last change of it;
* `upserts_lose_nothing`        upserts fail only by a delete, and the last write is kept.
-/

namespace Workflow.Service

/-- the name under which a call creates, updates or deletes -/
def Call.entry? : Call → Option String
  | createPipeline r | updatePipeline r => some r.name
  | deletePipeline n => some n
  | _ => none

end Workflow.Service

namespace Workflow.Session

open Service

/-! ## a service with a store -/

abbrev Store := String → Option PipelineRequest

variable {σ : Type}

/-- the call succeeds and this is stored then -/
def Server.Does (server : Server σ) (stored : σ → Store) (c : Call) (s : σ) (m : Store) : Prop :=
  (∃ x, (server.answer c s).1 = .ok x) ∧ stored (server.answer c s).2 = m

/-- the call fails in this way and nothing changes -/
def Server.Refuses (server : Server σ) (stored : σ → Store) (c : Call) (s : σ)
    (why : Refusal → Prop) : Prop :=
  (∃ t, (server.answer c s).1 = .error t ∧ why t) ∧ stored (server.answer c s).2 = stored s

/-- the service creates what is not there, updates and deletes what is there, each in one go -/
structure KeepsStore (server : Server σ) (stored : σ → Store) : Prop where
  create_free {s : σ} {r : PipelineRequest} (h : stored s r.name = none) :
    server.Does stored (.createPipeline r) s (Function.update (stored s) r.name (some r))
  create_used {s : σ} {r : PipelineRequest} (h : stored s r.name ≠ none) :
    server.Refuses stored (.createPipeline r) s fun t => t.isNameTaken = true
  update_used {s : σ} {r : PipelineRequest} (h : stored s r.name ≠ none) :
    server.Does stored (.updatePipeline r) s (Function.update (stored s) r.name (some r))
  update_free {s : σ} {r : PipelineRequest} (h : stored s r.name = none) :
    server.Refuses stored (.updatePipeline r) s fun _ => True
  delete_used {s : σ} {n : String} (h : stored s n ≠ none) :
    server.Does stored (.deletePipeline n) s (Function.update (stored s) n none)
  delete_free {s : σ} {n : String} (h : stored s n = none) :
    server.Refuses stored (.deletePipeline n) s fun _ => True

/-! ## changes -/

abbrev Action.create (r : PipelineRequest) (a : Except Refusal PipelineReceipt) : Action :=
  .event (.called (.createPipeline r) a)

abbrev Action.update (r : PipelineRequest) (a : Except Refusal PipelineReceipt) : Action :=
  .event (.called (.updatePipeline r) a)

abbrev Action.delete (n : String) (a : Except Refusal PipelineReceipt) : Action :=
  .event (.called (.deletePipeline n) a)

/-- the entry that a call has changed, with what is there now: calls that failed change nothing -/
def Action.change? : Action → Option (String × Option PipelineRequest)
  | .event (.called (.createPipeline r) (.ok _)) => some (r.name, some r)
  | .event (.called (.updatePipeline r) (.ok _)) => some (r.name, some r)
  | .event (.called (.deletePipeline n) (.ok _)) => some (n, none)
  | _ => none

namespace Action

/-- a create, an update or a delete under this name that succeeded -/
def Changes (a : Action) (n : String) : Prop := ∃ entry, a.change? = some (n, entry)

def applyTo (a : Action) (m : Store) : Store :=
  match a.change? with
  | some (n, entry) => Function.update m n entry
  | none => m

theorem applyTo_of_change {a : Action} {n : String} {entry : Option PipelineRequest}
    (h : a.change? = some (n, entry)) (m : Store) : a.applyTo m = Function.update m n entry := by
  rw [applyTo, h]

theorem applyTo_of_not_changes {a : Action} {n : String} (h : ¬ a.Changes n) (m : Store) :
    a.applyTo m n = m n := by
  cases change : a.change? with
  | none => rw [applyTo, change]
  | some c =>
    have other : n ≠ c.1 := fun same => h ⟨c.2, same ▸ change⟩
    rw [applyTo_of_change change, Function.update_of_ne other]

theorem change?_failed {c : Call} (t : Refusal) :
    (event (.called c (.error t))).change? = none := by
  cases c <;> rfl

/-- a call changes nothing but the entry that it is about -/
theorem not_changes_of_entry?_ne {c : Call} {a : c.Answer} {n : String} (h : c.entry? ≠ some n) :
    ¬ (event (.called c a)).Changes n := by
  rintro ⟨entry, change⟩
  cases a with
  | error t =>
    rw [change?_failed] at change
    cases change
  | ok x => cases c <;> cases change <;> exact h rfl

/-- only a delete leaves no entry -/
theorem eq_of_change?_none {a : Action} {n : String} (h : a.change? = some (n, none)) :
    ∃ x, a = .delete n (.ok x) := by
  rw [change?.eq_def] at h
  split at h
  · cases h
  · cases h
  · cases h
    exact ⟨_, rfl⟩
  · cases h

/-- an entry is what a create or an update has carried -/
theorem eq_of_change?_some {a : Action} {n : String} {q : PipelineRequest}
    (h : a.change? = some (n, some q)) :
    q.name = n ∧ ∃ x, a = .create q (.ok x) ∨ a = .update q (.ok x) := by
  rw [change?.eq_def] at h
  split at h
  · cases h
    exact ⟨rfl, _, .inl rfl⟩
  · cases h
    exact ⟨rfl, _, .inr rfl⟩
  · cases h
  · cases h

end Action

/-! ## what is stored, told from the calls -/

variable {ι : Type}

def replay (m : Store) (hs : List (Happening ι)) : Store :=
  hs.foldl (fun m h => h.action.applyTo m) m

theorem replay_concat (m : Store) (hs : List (Happening ι)) (h : Happening ι) :
    replay m (hs ++ [h]) = h.action.applyTo (replay m hs) := by
  rw [replay, List.foldl_append]
  rfl

theorem replay_append_cons (m : Store) (hs ks : List (Happening ι)) (h : Happening ι) :
    replay m (hs ++ h :: ks) = replay (h.action.applyTo (replay m hs)) ks := by
  rw [replay, List.foldl_append]
  rfl

/-- an entry is as it was, or as the last change has left it -/
theorem replay_cases (m : Store) (hs : List (Happening ι)) (n : String) :
    ((∀ h ∈ hs, ¬ h.action.Changes n) ∧ replay m hs n = m n) ∨
    ∃ before h after entry, hs = before ++ h :: after ∧ h.action.change? = some (n, entry) ∧
      (∀ k ∈ after, ¬ k.action.Changes n) ∧ replay m hs n = entry := by
  -- from the end: the last action changes the entry, or it can be left out
  induction hs using List.reverseRecOn with
  | nil => exact .inl ⟨List.forall_mem_nil _, rfl⟩
  | append_singleton hs x ih =>
    rw [replay_concat]
    by_cases changes : x.action.Changes n
    · obtain ⟨entry, change⟩ := changes
      refine .inr ⟨hs, x, [], entry, rfl, change, List.forall_mem_nil _, ?_⟩
      rw [Action.applyTo_of_change change, Function.update_self]
    · rw [Action.applyTo_of_not_changes changes]
      obtain ⟨untouched, same⟩ | ⟨before, h, after, entry, rfl, change, last, same⟩ := ih
      · refine .inl ⟨?_, same⟩
        exact List.forall_mem_append.mpr ⟨untouched, List.forall_mem_singleton.mpr changes⟩
      · refine .inr ⟨before, h, after ++ [x], entry, ?_, change, ?_, same⟩
        · rw [List.append_assoc]
          rfl
        · exact List.forall_mem_append.mpr ⟨last, List.forall_mem_singleton.mpr changes⟩

/-- what was there and is no more was deleted -/
theorem exists_delete {m : Store} {hs : List (Happening ι)} {n : String} (was : m n ≠ none)
    (gone : replay m hs n = none) : ∃ h ∈ hs, ∃ x, h.action = .delete n (.ok x) := by
  obtain ⟨-, same⟩ | ⟨before, h, after, entry, rfl, change, -, same⟩ := replay_cases m hs n
  · exact absurd (same.symm.trans gone) was
  · obtain rfl : entry = none := same.symm.trans gone
    exact ⟨h, List.mem_append_right before (.head after), Action.eq_of_change?_none change⟩

/-! ## the calls of sessions that store -/

/-- the operation only creates, updates or deletes -/
def Operation.Writes : Operation → Prop
  | create _ _ | update _ _ _ | upsert _ _ | delete _ => True
  | _ => False

theorem Block.entry?_ne_none {op : Operation} {before after : List Exchange} {x : Exchange}
    (h : Block op (before ++ x :: after)) (writes : op.Writes) : x.request.entry? ≠ none := by
  obtain first | ⟨p, o, t, -, -, -, second⟩ | ⟨p, values?, d, record, rfl, -⟩ := h.cases_at
  · rw [first]
    cases op <;> first | exact Option.some_ne_none _ | exact writes.elim
  · rw [second]
    exact Option.some_ne_none _
  · exact writes.elim

/-! ## the store of the service -/

section

variable {server : Server σ} {stored : σ → Store}

/-- what a call does to the store can be told from its answer -/
theorem KeepsStore.stored_answer (keeps : KeepsStore server stored) {s : σ} {c : Call}
    {a : c.Answer} (gives : a = (server.answer c s).1) (entry : c.entry? ≠ none) :
    stored (server.answer c s).2 = (Action.event (.called c a)).applyTo (stored s) := by
  cases c with
  | createPipeline r =>
    by_cases h : stored s r.name = none
    · obtain ⟨⟨x, hx⟩, store⟩ := keeps.create_free h
      obtain rfl := gives.trans hx
      exact store
    · obtain ⟨⟨t, ht, -⟩, store⟩ := keeps.create_used h
      obtain rfl := gives.trans ht
      exact store
  | updatePipeline r =>
    by_cases h : stored s r.name = none
    · obtain ⟨⟨t, ht, -⟩, store⟩ := keeps.update_free h
      obtain rfl := gives.trans ht
      exact store
    · obtain ⟨⟨x, hx⟩, store⟩ := keeps.update_used h
      obtain rfl := gives.trans hx
      exact store
  | deletePipeline n =>
    by_cases h : stored s n = none
    · obtain ⟨⟨t, ht, -⟩, store⟩ := keeps.delete_free h
      obtain rfl := gives.trans ht
      exact store
    · obtain ⟨⟨x, hx⟩, store⟩ := keeps.delete_used h
      obtain rfl := gives.trans hx
      exact store
  | _ => exact absurd rfl entry

/-- a create that fails has found the name in use, and is told so -/
theorem KeepsStore.used_of_create_failed (keeps : KeepsStore server stored) {s : σ}
    {r : PipelineRequest} {t : Refusal} (gives : .error t = (server.answer (.createPipeline r) s).1) :
    stored s r.name ≠ none ∧ t.isNameTaken = true := by
  by_cases h : stored s r.name = none
  · obtain ⟨⟨x, hx⟩, -⟩ := keeps.create_free h
    cases gives.trans hx
  · obtain ⟨⟨u, hu, taken⟩, -⟩ := keeps.create_used h
    cases gives.trans hu
    exact ⟨h, taken⟩

/-- an update that fails has found the name free -/
theorem KeepsStore.free_of_update_failed (keeps : KeepsStore server stored) {s : σ}
    {r : PipelineRequest} {t : Refusal} (gives : .error t = (server.answer (.updatePipeline r) s).1) :
    stored s r.name = none := by
  by_contra h
  obtain ⟨⟨x, hx⟩, -⟩ := keeps.update_used h
  cases gives.trans hx

variable [DecidableEq ι] {s : σ} {hs : List (Happening ι)} {w : World ι σ}

/-- sessions that store make no call but creates, updates and deletes -/
theorem History.entry?_ne_none (h : History server s hs w)
    (writes : ∀ i op, ⟨i, .began op⟩ ∈ hs → op.Writes) {i : ι} {t t' : Option Task} {c : Call}
    {a : c.Answer} (task : w.task i = t) (moves : Moves t (.event (.called c a)) t') :
    c.entry? ≠ none := by
  cases moves with
  | called op next a =>
    obtain ⟨earlier, es, same, yields⟩ := h.follows i _ task
    obtain ⟨later, r, hnext⟩ := (next a).exists_yields
    have block := block_of_yields (yields _ r (.call a hnext))
    have began : ⟨i, .began op⟩ ∈ hs :=
      mem_of_mem_own (same ▸ List.mem_append_right earlier (.head _))
    rw [exchanges_append] at block
    exact block.entry?_ne_none (writes i op began)

/-- **What is stored** can be told from the calls that succeeded, in whatever order they came. -/
theorem KeepsStore.stored_service (keeps : KeepsStore server stored) (h : History server s hs w)
    (writes : ∀ i op, ⟨i, .began op⟩ ∈ hs → op.Writes) :
    stored w.service = replay (stored s) hs := by
  induction h with
  | start => rfl
  | step history task moves gives ih =>
    have before := fun i op began => writes i op (List.mem_append_left _ began)
    rw [replay_concat, ← ih before]
    cases moves with
    | called op next a =>
      exact keeps.stored_answer gives (history.entry?_ne_none before task (.called op next a))
    | _ => rfl

/-- a call in the middle, with the store before it and after it -/
theorem KeepsStore.stored_step (keeps : KeepsStore server stored) (h : History server s hs w)
    (writes : ∀ i op, ⟨i, .began op⟩ ∈ hs → op.Writes) {before after : List (Happening ι)} {i : ι}
    {a : Action} (place : hs = before ++ ⟨i, a⟩ :: after) :
    stored (server.after s before) = replay (stored s) before ∧
      server.Gives (server.after s before) a ∧
      stored (server.after s (before ++ [⟨i, a⟩])) =
        a.applyTo (stored (server.after s before)) := by
  obtain ⟨v, t, t', history, task, moves, gives⟩ := h.split place
  have earlier : ∀ j op, ⟨j, .began op⟩ ∈ before → op.Writes := fun j op began =>
    writes j op (place ▸ List.mem_append_left _ began)
  have next := history.step task moves gives
  have upTo : ∀ j op, ⟨j, .began op⟩ ∈ before ++ [⟨i, a⟩] → op.Writes := by
    intro j op began
    refine writes j op (place ▸ ?_)
    rw [← List.singleton_append, ← List.append_assoc]
    exact List.mem_append_left _ began
  have store := keeps.stored_service history earlier
  have store' := keeps.stored_service next upTo
  rw [replay_concat, ← store, next.service_eq] at store'
  rw [history.service_eq] at store store' gives
  exact ⟨store, gives, store'⟩

/-- an upsert that failed was two calls: a create that found the name in use, and an update that did
not find it any more -/
theorem exists_calls_of_upsert_failed (keeps : KeepsStore server stored)
    (h : History server s hs w) {before after : List (Happening ι)} {i : ι} {p : Pipeline}
    {o : StoreOptions} {e : SessionError}
    (place : hs = before ++ ⟨i, .ended (.upsert p o) (.error e)⟩ :: after) :
    ∃ earlier between later t u,
      before = earlier ++ ⟨i, .create (createRequest p o) (.error t)⟩ :: between ++
        ⟨i, .update (updateRequest p o.role o.description?) (.error u)⟩ :: later ∧
      (∃ as, own i earlier = as ++ [.began (.upsert p o)]) ∧ own i between = [] ∧ own i later = [] ∧
      e = .refused u := by
  obtain ⟨as, es, same, yields⟩ := h.yields_of_ended place
  obtain ⟨v, _, _, history, -⟩ := h.split place
  obtain ⟨x, hx, hxe⟩ := yields_outcome_iff.mp yields
  obtain ⟨a, free, rfl, rfl⟩ | ⟨t, a, taken, rfl, rfl⟩ := yields_upsert_iff.mp hx
  · -- one call: it has failed because the name is in use, but then there is a second call
    cases a with
    | ok y => cases hxe
    | error t =>
      have calls : own i before = as ++ [.began (.upsert p o)] ++
          [.create (createRequest p o) (.error t)] := by
        rw [same, List.append_assoc]
        rfl
      obtain ⟨earlier, later, rfl, -, -⟩ := exists_of_own_concat calls
      obtain ⟨_, _, _, -, -, -, gives⟩ := history.split rfl
      have taken := (keeps.used_of_create_failed gives).2
      rw [free t rfl] at taken
      cases taken
  · cases a with
    | ok y => cases hxe
    | error u =>
      cases hxe
      have calls : own i before = as ++ [.began (.upsert p o)] ++
          [.create (createRequest p o) (.error t)] ++
          [.update (updateRequest p o.role o.description?) (.error u)] := by
        rw [same, List.append_assoc, List.append_assoc]
        rfl
      obtain ⟨earlier, between, later, rfl, mine, hbetween, hlater⟩ := exists_of_own_concat₂ calls
      exact ⟨earlier, between, later, t, u, rfl, ⟨as, mine⟩, hbetween, hlater, rfl⟩

/-- **Upserts lose nothing but to a delete.** An upsert that fails has found the name in use, and
between its two calls another session has deleted under that name; neither call has changed what is
stored. No call changes an entry but the one it is about. What is stored under a name is what was
there from the start, untouched, or what the last create or update under it has carried. -/
theorem upserts_lose_nothing (keeps : KeepsStore server stored) (h : History server s hs w)
    (writes : ∀ i op, ⟨i, .began op⟩ ∈ hs → op.Writes) :
    w.service = server.after s hs ∧
    (∀ before after i p o e, hs = before ++ ⟨i, .ended (.upsert p o) (.error e)⟩ :: after →
      ∃ earlier between later t u,
        before = earlier ++ ⟨i, .create (createRequest p o) (.error t)⟩ :: between ++
          ⟨i, .update (updateRequest p o.role o.description?) (.error u)⟩ :: later ∧
        (∃ as, own i earlier = as ++ [.began (.upsert p o)]) ∧
        own i between = [] ∧ own i later = [] ∧ e = .refused u ∧
        t.isNameTaken = true ∧ stored (server.after s earlier) p.name ≠ none ∧
        (∃ d ∈ between, d.session ≠ i ∧ ∃ x, d.action = .delete p.name (.ok x)) ∧
        stored (server.after s (earlier ++ [⟨i, .create (createRequest p o) (.error t)⟩])) =
          stored (server.after s earlier) ∧
        stored (server.after s (earlier ++ ⟨i, .create (createRequest p o) (.error t)⟩ :: between ++
            [⟨i, .update (updateRequest p o.role o.description?) (.error u)⟩])) =
          stored (server.after s
            (earlier ++ ⟨i, .create (createRequest p o) (.error t)⟩ :: between))) ∧
    (∀ before after i c a, hs = before ++ ⟨i, .event (.called c a)⟩ :: after →
      ∀ n, c.entry? ≠ some n →
        stored (server.after s (before ++ [⟨i, .event (.called c a)⟩])) n =
          stored (server.after s before) n) ∧
    (∀ n q, stored w.service n = some q →
      (∀ k ∈ hs, ¬ k.action.Changes n) ∧ stored s n = some q ∨
      ∃ before k after x, hs = before ++ k :: after ∧
        (k.action = .create q (.ok x) ∨ k.action = .update q (.ok x)) ∧ q.name = n ∧
        ∀ j ∈ after, ¬ j.action.Changes n) := by
  refine ⟨h.service_eq, ?_, ?_, ?_⟩
  · intro before after i p o e place
    obtain ⟨earlier, between, later, t, u, rfl, began, hbetween, hlater, he⟩ :=
      exists_calls_of_upsert_failed keeps h place
    have createPlace : hs = earlier ++ ⟨i, .create (createRequest p o) (.error t)⟩ ::
        (between ++ ⟨i, .update (updateRequest p o.role o.description?) (.error u)⟩ :: later ++
          ⟨i, .ended (.upsert p o) (.error e)⟩ :: after) := by
      rw [place]
      simp
    have updatePlace : hs = (earlier ++ ⟨i, .create (createRequest p o) (.error t)⟩ :: between) ++
        ⟨i, .update (updateRequest p o.role o.description?) (.error u)⟩ ::
          (later ++ ⟨i, .ended (.upsert p o) (.error e)⟩ :: after) := by
      rw [place]
      simp
    obtain ⟨storeC, givesC, nextC⟩ := keeps.stored_step h writes createPlace
    obtain ⟨storeU, givesU, nextU⟩ := keeps.stored_step h writes updatePlace
    obtain ⟨used, taken⟩ := keeps.used_of_create_failed givesC
    -- in use at the first call and free at the second: it was deleted, and not by this session
    have gone := keeps.free_of_update_failed givesU
    rw [storeU, replay_append_cons, ← storeC] at gone
    obtain ⟨d, hd, x, deleted⟩ := exists_delete used gone
    exact ⟨earlier, between, later, t, u, rfl, began, hbetween, hlater, he, taken, used,
      ⟨d, hd, ne_of_mem_of_own_eq_nil hbetween hd, x, deleted⟩, nextC, nextU⟩
  · intro before after i c a place n other
    rw [(keeps.stored_step h writes place).2.2]
    exact Action.applyTo_of_not_changes (Action.not_changes_of_entry?_ne other) _
  · intro n q present
    rw [keeps.stored_service h writes] at present
    obtain ⟨untouched, same⟩ | ⟨before, k, after, entry, place, change, last, same⟩ :=
      replay_cases (stored s) hs n
    · exact .inl ⟨untouched, same.symm.trans present⟩
    · obtain rfl : entry = some q := same.symm.trans present
      obtain ⟨name, x, written⟩ := Action.eq_of_change?_some change
      exact .inr ⟨before, k, after, x, place, written, name, last⟩

end

/-! ## an upsert against a delete -/

/-- an entry is set if this is possible, and otherwise there is a refusal -/
def Store.set (m : Store) (n : String) (entry : Option PipelineRequest) (possible : Bool)
    (t : Refusal) : Except Refusal PipelineReceipt × Store :=
  if possible then (.ok ⟨n⟩, Function.update m n entry) else (.error t, m)

/-- a service that is nothing but its store -/
def Server.storing : Server Store where
  answer
    | .createPipeline r, m => Store.set m r.name (some r) (m r.name).isNone
      ⟨Refusal.validationCode, Refusal.takenMessage⟩
    | .updatePipeline r, m => Store.set m r.name (some r) (m r.name).isSome ⟨"ResourceNotFound", ""⟩
    | .deletePipeline n, m => Store.set m n none (m n).isSome ⟨"ResourceNotFound", ""⟩
    | _, m => (.error ⟨"UnknownOperation", ""⟩, m)

theorem Store.set_possible (m : Store) (n : String) (entry : Option PipelineRequest)
    {possible : Bool} (t : Refusal) (h : possible = true) :
    (∃ x, (Store.set m n entry possible t).1 = .ok x) ∧
      (Store.set m n entry possible t).2 = Function.update m n entry := by
  rw [Store.set, if_pos h]
  exact ⟨⟨_, rfl⟩, rfl⟩

theorem Store.set_impossible (m : Store) (n : String) (entry : Option PipelineRequest)
    {possible : Bool} {t : Refusal} {why : Refusal → Prop} (ht : why t) (h : possible = false) :
    (∃ t', (Store.set m n entry possible t).1 = .error t' ∧ why t') ∧
      (Store.set m n entry possible t).2 = m := by
  subst h
  exact ⟨⟨t, rfl, ht⟩, rfl⟩

theorem keepsStore_storing : KeepsStore .storing id where
  create_free h := Store.set_possible _ _ _ _ (Option.isNone_iff_eq_none.mpr h)
  create_used h := Store.set_impossible _ _ _ (by decide) (Option.isNone_eq_false_iff.mpr
    (Option.isSome_iff_ne_none.mpr h))
  update_used h := Store.set_possible _ _ _ _ (Option.isSome_iff_ne_none.mpr h)
  update_free h := Store.set_impossible _ _ _ trivial (Option.isSome_eq_false_iff.mpr
    (Option.isNone_iff_eq_none.mpr h))
  delete_used h := Store.set_possible _ _ _ _ (Option.isSome_iff_ne_none.mpr h)
  delete_free h := Store.set_impossible _ _ _ trivial (Option.isSome_eq_false_iff.mpr
    (Option.isNone_iff_eq_none.mpr h))

def sharedPipeline : Pipeline := ⟨"p", [], [], []⟩

def sharedOptions : StoreOptions := ⟨"role", none, none, none⟩

def race : List (Happening Bool) :=
  [⟨false, .began (.upsert sharedPipeline sharedOptions)⟩,
    ⟨true, .began (.delete sharedPipeline)⟩,
    ⟨false, .create (createRequest sharedPipeline sharedOptions)
      (.error ⟨Refusal.validationCode, Refusal.takenMessage⟩)⟩,
    ⟨true, .delete "p" (.ok ⟨"p"⟩)⟩,
    ⟨false, .update (updateRequest sharedPipeline "role" none) (.error ⟨"ResourceNotFound", ""⟩)⟩,
    ⟨false, .ended (.upsert sharedPipeline sharedOptions)
      (.error (.refused ⟨"ResourceNotFound", ""⟩))⟩,
    ⟨true, .ended (.delete sharedPipeline) (.ok (.stored ⟨"p"⟩))⟩]

def oneStored : Store := fun n =>
  if n = "p" then some (createRequest sharedPipeline sharedOptions) else none

theorem history_race : ∃ w, History .storing oneStored race w := by
  have h0 : History Server.storing oneStored ([] : List (Happening Bool)) _ := .start
  have h1 := h0.step (i := false) rfl (.began (.upsert sharedPipeline sharedOptions)) trivial
  have h2 := h1.step (i := true) rfl (.began (.delete sharedPipeline)) trivial
  have h3 := h2.step (i := false) rfl (.called _ _ _) rfl
  have h4 := h3.step (i := true) rfl (.called _ _ _) rfl
  have h5 := h4.step (i := false) rfl (.called _ _ _) rfl
  have h6 := h5.step (i := false) rfl (.ended _ _) trivial
  have h7 := h6.step (i := true) rfl (.ended _ _) trivial
  exact ⟨_, h7⟩

theorem writes_race : ∀ i op, ⟨i, .began op⟩ ∈ race → op.Writes := by
  intro i op h
  simp only [race, List.mem_cons, Happening.mk.injEq, reduceCtorEq, Action.began.injEq, and_false,
    List.not_mem_nil, or_false] at h
  obtain ⟨-, rfl⟩ | ⟨-, rfl⟩ := h <;> trivial

theorem upserts_lose_nothing_race : ∃ w, History .storing oneStored race w ∧
    ∃ earlier between later t u,
      race.take 5 = earlier ++ ⟨false, .create (createRequest sharedPipeline sharedOptions)
          (.error t)⟩ :: between ++
        ⟨false, .update (updateRequest sharedPipeline "role" none) (.error u)⟩ :: later ∧
      ∃ d ∈ between, d.session ≠ false ∧ ∃ x, d.action = .delete "p" (.ok x) := by
  obtain ⟨w, h⟩ := history_race
  obtain ⟨earlier, between, later, t, u, same, -, -, -, -, -, -, deleted, -⟩ :=
    (upserts_lose_nothing keepsStore_storing h writes_race).2.1 (race.take 5) _ false sharedPipeline
      sharedOptions _ rfl
  exact ⟨w, h, earlier, between, later, t, u, same, deleted⟩

end Workflow.Session
