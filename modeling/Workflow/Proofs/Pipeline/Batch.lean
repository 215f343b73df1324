import Workflow.Proofs.Pipeline.Declaration

/-!
# Parameters all at once and one by one

A pipeline takes a list of parameters in place of those it has, or one parameter after another. In
a list the names are looked through for one that occurred before; a single parameter is looked up
among those that are there. Both ways come to the same: started without parameters, they end with
the same pipeline or stop at the same parameter, the first whose name occurs earlier in the list.

* `Pipeline.addParameters`              one after another, up to the first that is refused;
* `Pipeline.repeatedName?_eq_some_iff`  which name is found repeated;
* `Pipeline.addParameters_eq`           the parameters there are count as names seen before;
* `Pipeline.batch_is_one_by_one`        the two ways, and when they are refused.
-/

namespace Workflow.Pipeline

/-- the parameters added one after another, up to the first that is refused -/
def addParameters (p : Pipeline) (qs : List Parameter) : Except DefinitionError Pipeline :=
  qs.foldlM addParameter p

/-! ## repeated names -/

/-- which names have been seen counts, not in what order -/
theorem repeatedName?_congr {seen seen' : List String} (h : ∀ n, n ∈ seen ↔ n ∈ seen')
    (ns : List String) : repeatedName? seen ns = repeatedName? seen' ns := by
  induction ns generalizing seen seen' with
  | nil => rfl
  | cons n ns ih =>
    have longer : ∀ m, m ∈ n :: seen ↔ m ∈ n :: seen' := by
      intro m
      rw [List.mem_cons, List.mem_cons, h]
    rw [repeatedName?, repeatedName?, ih longer]
    simp only [h]

/-- the names before it are distinct and new, and it is none of the new ones -/
theorem repeatedName?_eq_some_iff {seen ns : List String} {n : String} :
    repeatedName? seen ns = some n ↔ ∃ before after, ns = before ++ n :: after ∧ before.Nodup ∧
      (∀ m ∈ before, m ∉ seen) ∧ (n ∈ seen ∨ n ∈ before) := by
  induction ns generalizing seen with
  | nil => simp [repeatedName?]
  | cons m ns ih =>
    rw [repeatedName?]
    by_cases hm : m ∈ seen
    · rw [if_pos hm, Option.some_inj]
      constructor
      · rintro rfl
        exact ⟨[], ns, rfl, List.nodup_nil, fun _ h => absurd h List.not_mem_nil, .inl hm⟩
      · rintro ⟨_ | ⟨k, before⟩, after, split, -, fresh, -⟩
        · exact (List.cons.inj split).1
        · obtain ⟨rfl, -⟩ := List.cons.inj split
          exact absurd hm (fresh m List.mem_cons_self)
    · rw [if_neg hm, ih]
      constructor
      · rintro ⟨before, after, rfl, distinct, fresh, found⟩
        have new : m ∉ before := fun h => fresh m h List.mem_cons_self
        refine ⟨m :: before, after, rfl, List.nodup_cons.mpr ⟨new, distinct⟩, ?_, ?_⟩
        · rw [List.forall_mem_cons]
          exact ⟨hm, fun k hk hseen => fresh k hk (List.mem_cons_of_mem m hseen)⟩
        · rw [List.mem_cons] at found ⊢
          tauto
      · rintro ⟨_ | ⟨k, before⟩, after, split, distinct, fresh, found⟩
        · obtain ⟨rfl, -⟩ := List.cons.inj split
          exact absurd (found.resolve_right List.not_mem_nil) hm
        · obtain ⟨rfl, rfl⟩ := List.cons.inj split
          obtain ⟨new, distinct⟩ := List.nodup_cons.mp distinct
          refine ⟨before, after, rfl, distinct, ?_, ?_⟩
          · intro k hk hseen
            rcases List.mem_cons.mp hseen with rfl | hseen
            · exact new hk
            · exact fresh k (List.mem_cons_of_mem m hk) hseen
          · rw [List.mem_cons] at found ⊢
            tauto

/-! ## one after another -/

theorem addParameters_cons (p : Pipeline) (q : Parameter) (qs : List Parameter) :
    p.addParameters (q :: qs) = (p.addParameter q).bind fun r => r.addParameters qs := by
  rw [addParameters, List.foldlM_cons]
  rfl

/-- the parameters that are there count as names seen before -/
theorem addParameters_eq (p : Pipeline) (qs : List Parameter) : p.addParameters qs =
    match repeatedName? (p.parameters.map Parameter.name) (qs.map Parameter.name) with
    | some n => .error (.duplicateParameter n)
    | none => .ok { p with parameters := p.parameters ++ qs } := by
  induction qs generalizing p with
  | nil =>
    rw [List.append_nil]
    rfl
  | cons q qs ih =>
    rw [addParameters_cons, addParameter_eq, List.map_cons, repeatedName?]
    by_cases taken : q.name ∈ p.parameters.map Parameter.name
    · rw [if_pos taken, if_pos taken]
      rfl
    · have seen : ∀ n, n ∈ (p.parameters ++ [q]).map Parameter.name ↔
          n ∈ q.name :: p.parameters.map Parameter.name := by
        intro n
        rw [List.map_append, List.mem_append, List.mem_cons, List.map_singleton,
          List.mem_singleton, or_comm]
      rw [if_neg taken, if_neg taken, Except.bind, ih, repeatedName?_congr seen,
        List.append_assoc, List.singleton_append]

theorem withParameters_eq_ok_iff {p r : Pipeline} {qs : List Parameter} :
    p.withParameters qs = .ok r ↔
      (qs.map Parameter.name).Nodup ∧ r = { p with parameters := qs } := by
  rw [withParameters, ← repeatedName?_nil_eq_none_iff]
  cases repeatedName? [] (qs.map Parameter.name) with
  | none => simp [eq_comm]
  | some n => simp

theorem withParameters_eq_error_iff {p : Pipeline} {qs : List Parameter} {e : DefinitionError} :
    p.withParameters qs = .error e ↔ ∃ before q after, qs = before ++ q :: after ∧
      (before.map Parameter.name).Nodup ∧ q.name ∈ before.map Parameter.name ∧
      e = .duplicateParameter q.name := by
  have refused : p.withParameters qs = .error e ↔
      ∃ n, repeatedName? [] (qs.map Parameter.name) = some n ∧ e = .duplicateParameter n := by
    rw [withParameters]
    cases repeatedName? [] (qs.map Parameter.name) <;> simp [eq_comm]
  rw [refused]
  simp only [repeatedName?_eq_some_iff, List.not_mem_nil, false_or, not_false_eq_true, implies_true,
    true_and]
  constructor
  · rintro ⟨n, ⟨before, after, split, distinct, found⟩, rfl⟩
    obtain ⟨first, rest, rfl, rfl, hrest⟩ := List.map_eq_append_iff.mp split
    obtain ⟨q, last, rfl, rfl, rfl⟩ := List.map_eq_cons_iff.mp hrest
    exact ⟨first, q, last, rfl, distinct, found, rfl⟩
  · rintro ⟨before, q, after, rfl, distinct, found, rfl⟩
    have split : (before ++ q :: after).map Parameter.name =
        before.map Parameter.name ++ q.name :: after.map Parameter.name := List.map_append
    exact ⟨q.name, ⟨_, _, split, distinct, found⟩, rfl⟩

/-- **Parameters all at once are parameters one by one.** A list of parameters in place of those of
a pipeline comes to what its parameters come to one after another if there were none at first,
whatever there was. It is taken exactly if the names are distinct, and then it is all that the
pipeline has; otherwise the first parameter whose name occurs earlier in the list is refused. -/
theorem batch_is_one_by_one (p : Pipeline) (qs : List Parameter) :
    p.withParameters qs = addParameters { p with parameters := [] } qs ∧
    (∀ r, p.withParameters qs = .ok r ↔
      (qs.map Parameter.name).Nodup ∧ r = { p with parameters := qs }) ∧
    ∀ e, p.withParameters qs = .error e ↔ ∃ before q after, qs = before ++ q :: after ∧
      (before.map Parameter.name).Nodup ∧ q.name ∈ before.map Parameter.name ∧
      e = .duplicateParameter q.name := by
  refine ⟨?_, fun r => withParameters_eq_ok_iff, fun e => withParameters_eq_error_iff⟩
  rw [addParameters_eq, withParameters]
  rfl

end Workflow.Pipeline
