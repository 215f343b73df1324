import Workflow.Proofs.Document.Equality
import Workflow.Proofs.Document.NormalForm

/-!
# Which items stand for the others

Of items that are equal a set keeps the one that comes first, and the others are gone. Which one it
is matters, because equal items may be written differently. What has been seen of a list decides
what is kept of the list after it, so it does not matter if the front of a list has been made
distinct before; and since equal items have equal expansions, it does not matter either if items
are left out before they are expanded.

* `Document.distinct_distinct_append`       a list with its front made distinct before;
* `Document.filter_distinct`                the only item equal to a given one is the first in the
                                            list;
* `Document.distinct_map_expand_distinct`   items left out before and after they are expanded;
* `Document.set_keeps_first_of_equal`       what a set keeps.
-/

namespace Workflow.Document

/-! ## lists one after the other -/

/-- what is kept of the front has been seen when it comes to the rest -/
theorem distinctAfter_append (seen xs ys : List Document) :
    distinctAfter seen (xs ++ ys) =
      distinctAfter seen xs ++ distinctAfter ((distinctAfter seen xs).reverse ++ seen) ys := by
  induction xs generalizing seen with
  | nil => rfl
  | cons x xs ih =>
    rw [List.cons_append, distinctAfter, distinctAfter]
    by_cases hx : (seen.any fun y => y.same x) = true
    · rw [if_pos hx, if_pos hx]
      exact ih seen
    · rw [if_neg hx, if_neg hx, ih, List.reverse_cons, List.append_assoc]
      rfl

theorem distinct_distinct_append (xs ys : List Document) :
    distinct (distinct xs ++ ys) = distinct (xs ++ ys) := by
  have hfront : distinctAfter [] (distinctAfter [] xs) = distinctAfter [] xs :=
    SequenceKind.keep_keep .set xs
  show distinctAfter [] (distinctAfter [] xs ++ ys) = distinctAfter [] (xs ++ ys)
  rw [distinctAfter_append, hfront, distinctAfter_append [] xs ys]

/-! ## the first of equal items -/

/-- as long as nothing equal to the document has been seen, the first item that is equal is kept,
and no other -/
theorem filter_distinctAfter {x : Document} (hx : x.keyedThroughout = true)
    {seen xs : List Document} (hseen : ∀ z ∈ seen, z.keyedThroughout = true ∧ z.same x = false)
    (hxs : ∀ y ∈ xs, y.keyedThroughout = true) :
    (distinctAfter seen xs).filter (fun y => y.same x) =
      (xs.find? fun y => y.same x).toList := by
  induction xs generalizing seen with
  | nil => rfl
  | cons y ys ih =>
    have hy := hxs y List.mem_cons_self
    have hys : ∀ z ∈ ys, z.keyedThroughout = true := fun z hz => hxs z (List.mem_cons_of_mem y hz)
    rw [distinctAfter]
    by_cases hdropped : (seen.any fun z => z.same y) = true
    · -- it equals one that has been seen, and that one does not equal the document
      obtain ⟨z, hz, hzy⟩ := List.any_eq_true.mp hdropped
      have hyx : y.same x = false := by
        by_contra hyx
        have hzx := same_trans (hseen z hz).1 hy hx hzy (eq_true_of_ne_false hyx)
        rw [(hseen z hz).2] at hzx
        cases hzx
      rw [if_pos hdropped, List.find?_cons, hyx]
      exact ih hseen hys
    · rw [if_neg hdropped, List.filter_cons, List.find?_cons]
      cases hyx : y.same x with
      | true =>
        -- the items kept after it do not equal it, so neither do they equal the document
        have hafter : (distinctAfter (y :: seen) ys).filter (fun z => z.same x) = [] := by
          rw [List.filter_eq_nil_iff]
          intro z hz hzx
          have hzkeyed := hys z ((distinctAfter_sublist (y :: seen) ys).subset hz)
          have hyz := same_trans hy hx hzkeyed hyx (same_symm hzkeyed hx hzx)
          rw [(distinctAfter_apart (y :: seen) ys).1 z hz y List.mem_cons_self] at hyz
          cases hyz
        rw [hafter]
        rfl
      | false =>
        apply ih _ hys
        intro z hz
        rcases List.mem_cons.mp hz with rfl | hz
        · exact ⟨hy, hyx⟩
        · exact hseen z hz

theorem filter_distinct {x : Document} {xs : List Document} (hx : x.keyedThroughout = true)
    (hxs : ∀ y ∈ xs, y.keyedThroughout = true) :
    (distinct xs).filter (fun y => y.same x) = (xs.find? fun y => y.same x).toList :=
  filter_distinctAfter hx nofun hxs

/-! ## before and after expansion -/

/-- Both lists are gone through in step. An item that is left out on the left before it is expanded
equals one that was seen, and the expansion of that one is covered on the right. -/
theorem distinctAfter_map_expand {seen seen' xs : List Document}
    (hseen : ∀ y ∈ seen, y.keyedThroughout = true ∧ ∃ z ∈ seen', z.same y.expand = true)
    (hseen' : ∀ z ∈ seen', z.keyedThroughout = true)
    (hxs : ∀ x ∈ xs, x.keyedThroughout = true) :
    distinctAfter seen' ((distinctAfter seen xs).map expand) =
      distinctAfter seen' (xs.map expand) := by
  induction xs generalizing seen seen' with
  | nil => rfl
  | cons x xs ih =>
    have hx := hxs x List.mem_cons_self
    have hxe := keyedThroughout_expand hx
    have hrest : ∀ y ∈ xs, y.keyedThroughout = true := fun y hy =>
      hxs y (List.mem_cons_of_mem x hy)
    rw [List.map_cons, distinctAfter, distinctAfter]
    by_cases hdropped : (seen.any fun y => y.same x) = true
    · obtain ⟨y, hy, hyx⟩ := List.any_eq_true.mp hdropped
      obtain ⟨hykeyed, z, hz, hzy⟩ := hseen y hy
      have hzx := same_trans (hseen' z hz) (keyedThroughout_expand hykeyed) hxe hzy
        (same_expand hykeyed hx hyx)
      rw [if_pos hdropped, if_pos (List.any_eq_true.mpr ⟨z, hz, hzx⟩)]
      exact ih hseen hseen' hrest
    · rw [if_neg hdropped, List.map_cons, distinctAfter]
      by_cases hcovered : (seen'.any fun z => z.same x.expand) = true
      · rw [if_pos hcovered, if_pos hcovered]
        apply ih _ hseen' hrest
        intro y hy
        rcases List.mem_cons.mp hy with rfl | hy
        · exact ⟨hx, List.any_eq_true.mp hcovered⟩
        · exact hseen y hy
      · rw [if_neg hcovered, if_neg hcovered]
        congr 1
        apply ih _ _ hrest
        · intro y hy
          rcases List.mem_cons.mp hy with rfl | hy
          · exact ⟨hx, _, List.mem_cons_self, same_self hxe⟩
          · obtain ⟨hykeyed, z, hz, hzy⟩ := hseen y hy
            exact ⟨hykeyed, z, List.mem_cons_of_mem _ hz, hzy⟩
        · intro z hz
          rcases List.mem_cons.mp hz with rfl | hz
          · exact hxe
          · exact hseen' z hz

theorem distinct_map_expand_distinct {xs : List Document}
    (hxs : ∀ x ∈ xs, x.keyedThroughout = true) :
    distinct ((distinct xs).map expand) = distinct (xs.map expand) :=
  distinctAfter_map_expand nofun nofun hxs

theorem expand_set {xs : List Document} (hxs : ∀ x ∈ xs, x.keyedThroughout = true) :
    (set xs).expand = set (xs.map expand) := by
  rw [set, expand_sequence, set]
  exact congrArg (sequence .set) (distinct_map_expand_distinct hxs)

/-- **A set keeps of equal items the first.** What it keeps stands in the list in this order, no two
of it are equal, and items that come later are kept or not as they would be after the whole list. If
no key is twice in an item, every item of the list equals exactly one that is kept, the first in the
list that it equals; and the set is expanded to the set of the expanded list. -/
theorem set_keeps_first_of_equal (xs ys : List Document) : ∃ items, set xs = sequence .set items ∧
    items.Sublist xs ∧ (items.Pairwise fun x y => x.same y = false) ∧
      set (xs ++ ys) = set (items ++ ys) ∧
      ((∀ x ∈ xs, x.keyedThroughout = true) →
        (∀ x ∈ xs, ∃ y, xs.find? (fun y => y.same x) = some y ∧
          items.filter (fun y => y.same x) = [y]) ∧
        (set xs).expand = set (xs.map expand)) := by
  refine ⟨distinct xs, rfl, distinct_sublist xs, pairwise_distinct xs, ?_, ?_⟩
  · rw [set, set, distinct_distinct_append]
  · intro hxs
    refine ⟨?_, expand_set hxs⟩
    intro x hx
    have hfound : (xs.find? fun y => y.same x).isSome = true :=
      List.find?_isSome.mpr ⟨x, hx, same_self (hxs x hx)⟩
    obtain ⟨y, hy⟩ := Option.isSome_iff_exists.mp hfound
    refine ⟨y, hy, ?_⟩
    rw [filter_distinct (hxs x hx) hxs, hy]
    rfl

/-- fields in one order or the other, with a zero of either sign -/
def weight (negative : Bool) : Document :=
  let zero := ("Weight", number (.float (.zero negative)))
  let name := ("Name", string "x")
  object (if negative then [name, zero] else [zero, name])

/-- two items that are equal, and two that become equal -/
def weights : List Document :=
  [string "x", weight true, parameter ⟨"p", .float, some (.number (.float (.zero true)))⟩,
    weight false, expression (getExpression "Parameters.p")]

theorem set_keeps_first_of_equal_weights : ∃ items, set weights = sequence .set items ∧
    items.length = 4 ∧ items.filter (fun y => y.same (weight false)) = [weight true] ∧
      (set weights).expand = set (weights.map expand) := by
  obtain ⟨items, hitems, -, -, -, hkeyed⟩ := set_keeps_first_of_equal weights []
  obtain ⟨hfirst, hexpand⟩ := hkeyed (by decide)
  obtain ⟨y, hy, hfilter⟩ := hfirst (weight false) (by simp [weights])
  obtain rfl : weight true = y := Option.some_inj.mp hy
  obtain ⟨-, rfl⟩ := Document.sequence.inj hitems
  exact ⟨_, rfl, rfl, hfilter, hexpand⟩

end Workflow.Document
