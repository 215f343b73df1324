import Workflow.Document.Expand

/-!
# What a set keeps

A set keeps of equal items the first, so it always keeps its first item, and it keeps all items
exactly if no two of them are equal. Expansion treats the three kinds of sequences alike but for
this.

* `Document.distinct_eq_self_iff`    all items are kept if and only if no two are equal;
* `SequenceKind.keep`                the items a sequence of a kind keeps;
* `Document.expand_sequence`         expansion of a sequence of any kind.
-/

namespace Workflow

namespace Document

theorem distinctAfter_eq_self_iff {seen xs : List Document} : distinctAfter seen xs = xs ↔
    (∀ x ∈ xs, ∀ y ∈ seen, y.same x = false) ∧ xs.Pairwise fun x y => x.same y = false := by
  induction xs generalizing seen with
  | nil => simp [distinctAfter]
  | cons x xs ih =>
    rw [distinctAfter]
    by_cases hx : (seen.any fun y => y.same x) = true
    · rw [if_pos hx]
      constructor
      · intro h
        -- an item is missing, so the list is shorter
        have hlength := (distinctAfter_sublist seen xs).length_le
        rw [h, List.length_cons] at hlength
        omega
      · intro h
        obtain ⟨y, hy, hyx⟩ := List.any_eq_true.mp hx
        have hne := h.1 x List.mem_cons_self y hy
        rw [hyx] at hne
        cases hne
    · rw [if_neg hx, List.cons.injEq, ih, List.pairwise_cons]
      have hseen : ∀ y ∈ seen, y.same x = false := by
        intro y hy
        rw [← Bool.not_eq_true]
        intro h
        exact hx (List.any_eq_true.mpr ⟨y, hy, h⟩)
      constructor
      · rintro ⟨-, hafter, hxs⟩
        refine ⟨?_, fun y hy => hafter y hy x List.mem_cons_self, hxs⟩
        intro y hy z hz
        rcases List.mem_cons.mp hy with rfl | hy
        · exact hseen z hz
        · exact hafter y hy z (List.mem_cons_of_mem _ hz)
      · rintro ⟨hbefore, hfirst, hxs⟩
        refine ⟨rfl, ?_, hxs⟩
        intro y hy z hz
        rcases List.mem_cons.mp hz with rfl | hz
        · exact hfirst y hy
        · exact hbefore y (List.mem_cons_of_mem _ hy) z hz

theorem distinct_eq_self_iff {xs : List Document} :
    distinct xs = xs ↔ xs.Pairwise fun x y => x.same y = false := by
  rw [distinct, distinctAfter_eq_self_iff]
  exact ⟨fun h => h.2, fun h => ⟨nofun, h⟩⟩

end Document

namespace SequenceKind

open Document

def keep : SequenceKind → List Document → List Document
  | set, xs => distinct xs
  | _, xs => xs

theorem keep_sublist (k : SequenceKind) (xs : List Document) : (k.keep xs).Sublist xs := by
  cases k with
  | set => exact distinct_sublist xs
  | _ => exact List.Sublist.refl xs

theorem keep_eq_nil_iff (k : SequenceKind) (xs : List Document) : k.keep xs = [] ↔ xs = [] := by
  cases k with
  | set =>
    cases xs with
    | nil => exact Iff.rfl
    | cons x xs => exact ⟨nofun, nofun⟩
  | _ => exact Iff.rfl

theorem keep_eq_self_iff (k : SequenceKind) (xs : List Document) :
    k.keep xs = xs ↔ (k = set → xs.Pairwise fun x y => x.same y = false) := by
  cases k with
  | set => exact distinct_eq_self_iff.trans ⟨fun h _ => h, fun h => h rfl⟩
  | _ => exact ⟨fun _ => nofun, fun _ => rfl⟩

end SequenceKind

namespace Document

theorem expand_sequence (k : SequenceKind) (xs : List Document) :
    (sequence k xs).expand = sequence k (k.keep (xs.map expand)) := by
  rw [← expandItems_eq]
  cases k <;> rfl

theorem expand_object (fs : List (String × Document)) :
    (object fs).expand = object (fs.map fun f => (f.1, f.2.expand)) := by
  rw [← expandFields_eq]
  rfl

end Document

end Workflow
