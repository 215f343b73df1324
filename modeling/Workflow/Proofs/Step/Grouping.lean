import Mathlib.Logic.Relation
import Workflow.Pipeline.Basic

/-!
# Grouping is not seen

Entries can be regrouped in many ways: groups are opened, made and renamed, at the top or inside
other groups. None of this is seen in the steps of the entries, and so neither in their request
forms nor in the definition of a pipeline. Regrouping is also all that is not seen: from a list of
entries it leads to every list with the same steps.

* `Entry.Regroup`                      a list of entries regrouped at one place;
* `Entry.Regroup.stepsOf_eq`           one regrouping leaves the steps as they are;
* `Entry.reflTransGen_regroup_iff`     lists have the same steps exactly if one regroups to the other;
* `Pipeline.definition_withEntries`    a definition depends on the steps of the entries only.
-/

namespace Workflow

open Relation (ReflTransGen)

namespace Entry

/-- a list of entries and the list after a change of the grouping at one place -/
inductive Regroup : List Entry → List Entry → Prop where
  /-- a group gives way to its entries -/
  | unwrap (n : Option String) (es : List Entry) : Regroup [group n es] es
  /-- entries are put into a new group -/
  | wrap (n : Option String) (es : List Entry) : Regroup es [group n es]
  | rename (n m : Option String) (es : List Entry) : Regroup [group n es] [group m es]
  /-- all groups are opened, at every depth -/
  | flatten (es : List Entry) : Regroup es ((stepsOf es).map step)
  /-- the change is inside a group -/
  | inside (n : Option String) {es fs : List Entry} (h : Regroup es fs) :
      Regroup [group n es] [group n fs]
  /-- the change is in a part of the list -/
  | among (before after : List Entry) {es fs : List Entry} (h : Regroup es fs) :
      Regroup (before ++ es ++ after) (before ++ fs ++ after)

theorem stepsOf_group (n : Option String) (es : List Entry) : stepsOf [group n es] = stepsOf es := by
  show stepsOf es ++ [] = stepsOf es
  rw [List.append_nil]

theorem Regroup.stepsOf_eq {es fs : List Entry} (h : Regroup es fs) : stepsOf fs = stepsOf es := by
  induction h with
  | unwrap n es => rw [stepsOf_group]
  | wrap n es => rw [stepsOf_group]
  | rename n m es => rw [stepsOf_group, stepsOf_group]
  | flatten es => rw [stepsOf_map_step]
  | inside n h ih => rw [stepsOf_group, stepsOf_group, ih]
  | among before after h ih =>
    rw [stepsOf_append, stepsOf_append, stepsOf_append, stepsOf_append, ih]

theorem stepsOf_eq_of_regroups {es fs : List Entry} (h : ReflTransGen Regroup es fs) :
    stepsOf fs = stepsOf es := by
  induction h with
  | refl => rfl
  | tail _ hlast ih => rw [hlast.stepsOf_eq, ih]

/-! ## every grouping is reached -/

theorem regroups_among (before after : List Entry) {es fs : List Entry}
    (h : ReflTransGen Regroup es fs) :
    ReflTransGen Regroup (before ++ es ++ after) (before ++ fs ++ after) :=
  h.lift (fun gs => before ++ gs ++ after) fun _ _ => .among before after

mutual

theorem regroups_steps (e : Entry) : ReflTransGen Regroup ((steps e).map step) [e] := by
  cases e with
  | step s => exact .refl
  | group n es => exact (regroups_stepsOf es).tail (.wrap n es)

/-- the groups are made again from the inside, the first entry before the rest -/
theorem regroups_stepsOf (es : List Entry) : ReflTransGen Regroup ((stepsOf es).map step) es := by
  cases es with
  | nil => exact .refl
  | cons e es =>
    have first := regroups_among [] ((stepsOf es).map step) (regroups_steps e)
    have rest := regroups_among [e] [] (regroups_stepsOf es)
    rw [List.append_nil, List.append_nil] at rest
    rw [stepsOf, List.map_append]
    exact first.trans rest

end

/-- **Entries have the same steps exactly if one list can be regrouped to the other.** -/
theorem reflTransGen_regroup_iff {es fs : List Entry} :
    ReflTransGen Regroup es fs ↔ stepsOf fs = stepsOf es := by
  refine ⟨stepsOf_eq_of_regroups, ?_⟩
  intro h
  have opened : ReflTransGen Regroup es ((stepsOf fs).map step) := by
    rw [h]
    exact .single (.flatten es)
  exact opened.trans (regroups_stepsOf fs)

end Entry

namespace Pipeline

open Entry

/-- the definition depends on the steps of the entries only -/
theorem definition_withEntries (p : Pipeline) {es fs : List Entry} (h : stepsOf fs = stepsOf es) :
    (p.withEntries fs).definition = (p.withEntries es).definition := by
  have listed : (p.withEntries fs).stepList = (p.withEntries es).stepList := by
    show Document.list (fragmentsOf fs) = Document.list (fragmentsOf es)
    rw [fragmentsOf_eq, fragmentsOf_eq, h]
  show (p.documentWith (p.withEntries fs).stepList.expand).wire =
    (p.documentWith (p.withEntries es).stepList.expand).wire
  rw [listed]

/-- **The request forms of entries are those of their steps in order, and grouping is not seen**: a
list of entries can be regrouped, anywhere and any number of times, to exactly the lists with the
same steps, and then request forms and definitions are the same. -/
theorem grouping_unseen (es : List Entry) :
    fragmentsOf es = (stepsOf es).map Step.toDocument ∧
      ∀ fs, (ReflTransGen Regroup es fs ↔ stepsOf fs = stepsOf es) ∧
        (ReflTransGen Regroup es fs → fragmentsOf fs = fragmentsOf es ∧
          ∀ p : Pipeline, (p.withEntries fs).definition = (p.withEntries es).definition) := by
  refine ⟨fragmentsOf_eq es, fun fs => ⟨reflTransGen_regroup_iff, ?_⟩⟩
  intro h
  have same := stepsOf_eq_of_regroups h
  refine ⟨?_, fun p => p.definition_withEntries same⟩
  rw [fragmentsOf_eq, fragmentsOf_eq, same]

/-- a step in two groups beside an empty group, and a step in none -/
def nested : List Entry :=
  [group none [group (some "a") [step ⟨"s", .training, .object []⟩], group none []],
    step ⟨"t", .transform, .null⟩]

/-- the same with the first step in no group, and the second in one with the empty group -/
def regrouped : List Entry :=
  [step ⟨"s", .training, .object []⟩,
    group (some "b") [group none [], step ⟨"t", .transform, .null⟩]]

theorem grouping_unseen_nested : ReflTransGen Regroup nested regrouped ∧
    fragmentsOf regrouped = fragmentsOf nested := by
  -- the outer group is opened, then the inner one, and a new group takes in what follows
  have outer : Regroup nested _ := .among [] [step ⟨"t", .transform, .null⟩] (.unwrap none
    [group (some "a") [step ⟨"s", .training, .object []⟩], group none []])
  have inner : Regroup _ _ := .among [] [group none [], step ⟨"t", .transform, .null⟩]
    (.unwrap (some "a") [step ⟨"s", .training, .object []⟩])
  have taken : Regroup _ regrouped := .among [step ⟨"s", .training, .object []⟩] []
    (.wrap (some "b") [group none [], step ⟨"t", .transform, .null⟩])
  have regroups : ReflTransGen Regroup nested regrouped :=
    ((ReflTransGen.single outer).tail inner).tail taken
  exact ⟨regroups, (((grouping_unseen nested).2 regrouped).2 regroups).1⟩

end Pipeline

end Workflow
