import Workflow.Config.Placeholder
import Workflow.Proofs.Text.Run

/-!
# The grammar of placeholders

Recognition takes exactly the texts of the grammar and gives the root and the path that are written
there: white space is allowed inside the braces only, and the path has neither white space nor a
brace, so that it ends where the text after it begins.

* `Placeholder.Spells`            the text is that placeholder;
* `Placeholder.ofText?_iff`       recognition is the grammar;
* `Placeholder.target_toJson`     what a placeholder stands for has its root and path on the wire.
-/

namespace Workflow

open Text (isSpace skipSpace skipSpace_append exists_append_skipSpace)

namespace Placeholder

/-- the text is two braces, white space, root, point and path, white space, and two braces -/
def Spells (p : Placeholder) (s : String) : Prop :=
  ∃ before after : List Char, (∀ c ∈ before, isSpace c = true) ∧ (∀ c ∈ after, isSpace c = true) ∧
    p.path ≠ "" ∧ (∀ c ∈ p.path.toList, isPathChar c = true) ∧
    s.toList = ['\x7b', '\x7b'] ++ (before ++ (p.root.name.toList ++ ['.'] ++
      (p.path.toList ++ (after ++ ['\x7d', '\x7d']))))

theorem after?_eq_some_iff {before cs rest : List Char} :
    after? before cs = some rest ↔ cs = before ++ rest := by
  induction before generalizing cs with
  | nil =>
    rw [after?, Option.some_inj]
    rfl
  | cons b before ih =>
    cases cs with
    | nil => simp [after?]
    | cons c cs =>
      rw [after?, List.cons_append, List.cons.injEq]
      by_cases h : b = c
      · rw [if_pos h, ih]
        exact ⟨fun e => ⟨h.symm, e⟩, fun e => e.2⟩
      · rw [if_neg h]
        exact ⟨nofun, fun e => absurd e.1.symm h⟩

theorem root?_eq_some_iff {cs rest : List Char} {r : Root} :
    root? cs = some (r, rest) ↔ cs = r.name.toList ++ ['.'] ++ rest := by
  constructor
  · intro h
    obtain ⟨q, -, hq⟩ := List.exists_of_findSome?_eq_some h
    obtain ⟨rest', hrest, e⟩ := Option.map_eq_some_iff.mp hq
    obtain ⟨rfl, rfl⟩ := Prod.mk.inj e
    exact after?_eq_some_iff.mp hrest
  · rintro rfl
    cases r <;> rfl

/-! ## recognition -/

theorem isPathChar_of_isSpace {c : Char} (h : isSpace c = true) : isPathChar c = false := by
  rw [isPathChar, h]
  rfl

theorem name_head (r : Root) (rest : List Char) :
    ∀ c ∈ (r.name.toList ++ ['.'] ++ rest).head?, isSpace c = false := by
  intro c hc
  cases r <;> exact Option.some_inj.mp hc ▸ rfl

/-- white space and a brace do not continue a path -/
theorem head_after {after : List Char} (h : ∀ c ∈ after, isSpace c = true) :
    ∀ c ∈ (after ++ ['\x7d', '\x7d']).head?, isPathChar c = false := by
  intro c hc
  cases after with
  | nil => exact Option.some_inj.mp hc ▸ rfl
  | cons a after =>
    obtain rfl : a = c := Option.some_inj.mp hc
    exact isPathChar_of_isSpace (h a List.mem_cons_self)

/-- **Recognition takes exactly the texts of the grammar.** -/
theorem ofText?_iff {p : Placeholder} {s : String} : ofText? s = some p ↔ p.Spells s := by
  constructor
  · intro h
    simp only [ofText?, ofChars?, Option.bind_eq_bind, Option.bind_eq_some_iff] at h
    obtain ⟨cs, hopen, ⟨root, rest⟩, hroot, h⟩ := h
    split at h
    · rename_i hp
      obtain ⟨hne, hclose⟩ := hp
      obtain rfl := Option.some_inj.mp h
      obtain ⟨before, hbefore, ecs⟩ := exists_append_skipSpace cs
      obtain ⟨after, hafter, erest⟩ := exists_append_skipSpace (rest.dropWhile isPathChar)
      refine ⟨before, after, hbefore, hafter, ?_, ?_, ?_⟩
      · intro e
        exact hne (String.ofList_injective (e.trans String.ofList_nil.symm))
      · intro c hc
        rw [String.toList_ofList] at hc
        exact List.all_eq_true.mp List.all_takeWhile c hc
      · rw [after?_eq_some_iff.mp hopen, ecs, root?_eq_some_iff.mp hroot, String.toList_ofList,
          ← hclose, ← erest, List.takeWhile_append_dropWhile]
    · exact absurd h (by simp)
  · rintro ⟨before, after, hbefore, hafter, hne, hpath, hs⟩
    obtain ⟨htake, hdrop⟩ := Text.run_append hpath (head_after hafter)
    have hne' : p.path.toList ≠ [] := by
      intro e
      exact hne (String.toList_inj.mp (e.trans String.toList_empty.symm))
    rw [ofText?, hs, ofChars?, after?_eq_some_iff.mpr rfl]
    simp only [Option.bind_eq_bind, Option.bind_some]
    rw [skipSpace_append hbefore (name_head _ _), root?_eq_some_iff.mpr rfl, Option.bind_some]
    simp only [htake, hdrop]
    rw [skipSpace_append hafter (by simp [isSpace]), if_pos ⟨hne', rfl⟩, String.ofList_toList]

/-- **What a placeholder stands for has its root and path on the wire.** -/
theorem target_toJson {declared : List Parameter} {p : Placeholder} {d : Deferred}
    (h : p.target declared = .ok d) : d.toJson = getExpression (p.root.name ++ "." ++ p.path) := by
  obtain ⟨root, path⟩ := p
  cases root with
  | parameters =>
    simp only [target] at h
    split at h
    · rename_i q hq
      obtain rfl := Except.ok.inj h
      obtain rfl : q.name = path := by simpa using List.find?_some hq
      rfl
    · cases h
  | steps =>
    obtain rfl := Except.ok.inj h
    rfl
  | execution =>
    simp only [target] at h
    split at h
    · rename_i v hv
      obtain rfl := Except.ok.inj h
      obtain rfl := RunVariable.ofName?_eq_some_iff.mp hv
      rfl
    · cases h

end Placeholder

end Workflow
