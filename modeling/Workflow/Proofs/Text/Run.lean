import Workflow.Text.Blank

/-!
# Runs of characters

A run of characters of one class ends where another character follows, or at the end of the text. So
where it ends can be seen from the text, whatever follows.

* `Text.run_append`                a run is cut off from what follows it;
* `Text.skipSpace_append`          so is white space in front of a text;
* `Text.exists_append_skipSpace`   every text is white space and what is left without it.
-/

namespace Workflow.Text

theorem run_append {p : Char → Bool} {run rest : List Char} (hrun : ∀ c ∈ run, p c = true)
    (hrest : ∀ c ∈ rest.head?, p c = false) :
    (run ++ rest).takeWhile p = run ∧ (run ++ rest).dropWhile p = rest := by
  rw [List.takeWhile_append_of_pos hrun, List.dropWhile_append_of_pos hrun]
  cases rest with
  | nil => exact ⟨List.append_nil run, rfl⟩
  | cons c rest =>
    have hc : ¬ p c = true := Bool.not_eq_true _ ▸ hrest c rfl
    rw [List.takeWhile_cons_of_neg hc, List.dropWhile_cons_of_neg hc, List.append_nil]
    exact ⟨rfl, rfl⟩

theorem skipSpace_append {before cs : List Char} (hbefore : ∀ c ∈ before, isSpace c = true)
    (hcs : ∀ c ∈ cs.head?, isSpace c = false) : skipSpace (before ++ cs) = cs :=
  (run_append hbefore hcs).2

/-- a text is white space and the text without it -/
theorem exists_append_skipSpace (cs : List Char) :
    ∃ before, (∀ c ∈ before, isSpace c = true) ∧ cs = before ++ skipSpace cs := by
  refine ⟨cs.takeWhile isSpace, ?_, List.takeWhile_append_dropWhile.symm⟩
  intro c hc
  exact List.all_eq_true.mp List.all_takeWhile c hc

end Workflow.Text
