import Mathlib.Data.List.Basic
import Mathlib.Tactic.ByContra
import Workflow.Proofs.Config.Placeholder
import Workflow.Proofs.Text.Pattern

/-!
# Which strings are references

A string is taken for a reference exactly if it is a placeholder from its first to its last
character, with the root and the path that can be read off it in one manner only. It is the same to
match the string with a pattern, trying one way after the other: there is one match at most, so
nothing depends on the order. Braces stand at the two ends of a placeholder and nowhere else, so no
placeholder is part of a longer one, and a string with anything around a placeholder stays a string.

* `Placeholder.pattern`              a placeholder as a pattern, with groups for root and path;
* `Placeholder.captures?_pattern`    what the groups capture;
* `Placeholder.eq_of_spells_inside`  no placeholder is part of a longer one;
* `Placeholder.root_of_spells`       what stands before the first point is the root;
* `Placeholder.recognized_exactly`   which strings are references, and what becomes of the others.
-/

namespace Workflow

open Text (isSpace skipSpace skipSpace_append Pattern)

namespace Placeholder

/-! ## the pattern -/

/-- from the first to the last character of the text -/
def pattern : Pattern :=
  .sequence [.word ['\x7b', '\x7b'], .many isSpace,
    .group (.alt (.word "Parameters".toList)
      (.alt (.word "Steps".toList) (.word "Execution".toList))),
    .word ['.'], .group (.seq (.char isPathChar) (.many isPathChar)), .many isSpace,
    .word ['\x7d', '\x7d']]

theorem matches_roots_iff {cs : List Char} {gs : List (List Char)} :
    (Pattern.alt (.word "Parameters".toList)
      (.alt (.word "Steps".toList) (.word "Execution".toList))).Matches cs gs ↔
      (∃ r : Root, cs = r.name.toList) ∧ gs = [] := by
  constructor
  · rintro (h | h | h)
    · exact (Pattern.matches_word_iff.mp h).imp_left fun e => ⟨.parameters, e⟩
    · exact (Pattern.matches_word_iff.mp h).imp_left fun e => ⟨.steps, e⟩
    · exact (Pattern.matches_word_iff.mp h).imp_left fun e => ⟨.execution, e⟩
  · rintro ⟨⟨r, rfl⟩, rfl⟩
    cases r with
    | parameters => exact .inl (Pattern.matches_word_iff.mpr ⟨rfl, rfl⟩)
    | steps => exact .inr (.inl (Pattern.matches_word_iff.mpr ⟨rfl, rfl⟩))
    | execution => exact .inr (.inr (Pattern.matches_word_iff.mpr ⟨rfl, rfl⟩))

/-- the matches of the pattern are the placeholders that the text spells -/
theorem matches_pattern_iff {s : String} {gs : List (List Char)} :
    pattern.Matches s.toList gs ↔
      ∃ p : Placeholder, p.Spells s ∧ [p.root.name.toList, p.path.toList] = gs := by
  constructor
  · intro h
    obtain ⟨_, _, _, _, hopen, h, hs, rfl⟩ := h
    obtain ⟨before, _, _, _, ⟨hbefore, rfl⟩, h, rfl, rfl⟩ := h
    obtain ⟨_, _, _, _, ⟨_, hroot, rfl⟩, h, rfl, rfl⟩ := h
    obtain ⟨_, _, _, _, hpoint, h, rfl, rfl⟩ := h
    obtain ⟨path, _, _, _, ⟨_, hpathMatch, rfl⟩, h, rfl, rfl⟩ := h
    obtain ⟨after, _, _, _, ⟨hafter, rfl⟩, h, rfl, rfl⟩ := h
    obtain ⟨_, _, _, _, hclose, ⟨rfl, rfl⟩, rfl, rfl⟩ := h
    obtain ⟨rfl, rfl⟩ := Pattern.matches_word_iff.mp hopen
    obtain ⟨⟨root, rfl⟩, rfl⟩ := matches_roots_iff.mp hroot
    obtain ⟨rfl, rfl⟩ := Pattern.matches_word_iff.mp hpoint
    obtain ⟨hne, hpath, rfl⟩ := Pattern.matches_char_many_iff.mp hpathMatch
    obtain ⟨rfl, rfl⟩ := Pattern.matches_word_iff.mp hclose
    have hpathList : (String.ofList path).toList = path := String.toList_ofList
    refine ⟨⟨root, String.ofList path⟩, ⟨before, after, hbefore, hafter, ?_, ?_, ?_⟩, ?_⟩
    · intro e
      exact hne (String.ofList_injective (e.trans String.ofList_nil.symm))
    · rw [hpathList]
      exact hpath
    · rw [hpathList, hs, List.append_nil, List.append_assoc]
    · rw [hpathList]
      rfl
  · rintro ⟨p, ⟨before, after, hbefore, hafter, hne, hpath, hs⟩, rfl⟩
    have hne' : p.path.toList ≠ [] := by
      intro e
      exact hne (String.toList_inj.mp (e.trans String.toList_empty.symm))
    rw [hs, List.append_assoc p.root.name.toList]
    refine ⟨_, _, _, _, Pattern.matches_word_iff.mpr ⟨rfl, rfl⟩, ?_, rfl, rfl⟩
    refine ⟨before, [], _, _, ⟨hbefore, rfl⟩, ?_, rfl, rfl⟩
    refine ⟨_, _, _, _, ⟨_, matches_roots_iff.mpr ⟨⟨p.root, rfl⟩, rfl⟩, rfl⟩, ?_, rfl, rfl⟩
    refine ⟨_, _, _, _, Pattern.matches_word_iff.mpr ⟨rfl, rfl⟩, ?_, rfl, rfl⟩
    have hpathMatch := Pattern.matches_char_many_iff.mpr ⟨hne', hpath, rfl⟩
    refine ⟨_, _, _, _, ⟨_, hpathMatch, rfl⟩, ?_, rfl, rfl⟩
    refine ⟨after, [], _, _, ⟨hafter, rfl⟩, ?_, rfl, rfl⟩
    exact ⟨_, _, _, _, Pattern.matches_word_iff.mpr ⟨rfl, rfl⟩, ⟨rfl, rfl⟩,
      (List.append_nil _).symm, rfl⟩

/-- **The groups of the pattern capture root and path** of the placeholder that is recognized. -/
theorem captures?_pattern (s : String) : pattern.captures? s.toList =
    (ofText? s).map fun p => [p.root.name.toList, p.path.toList] := by
  apply Pattern.captures?_eq
  intro gs
  rw [matches_pattern_iff, Option.map_eq_some_iff]
  simp only [ofText?_iff]

/-! ## braces -/

section
variable {p q : Placeholder} {s t : String} (h : p.Spells s)
include h

/-- between the braces at the two ends there is none -/
theorem Spells.count_eq {c : Char} (hspace : isSpace c = false) (hchar : isPathChar c = false) :
    s.toList.count c = ['\x7b', '\x7b'].count c +
      ((p.root.name.toList ++ ['.']).count c + ['\x7d', '\x7d'].count c) := by
  obtain ⟨before, after, hbefore, hafter, -, hpath, hs⟩ := h
  have nothing {cs : List Char} {f : Char → Bool} (hcs : ∀ d ∈ cs, f d = true)
      (hc : f c = false) : cs.count c = 0 := by
    apply List.count_eq_zero_of_not_mem
    intro hmem
    cases hc.symm.trans (hcs c hmem)
  simp only [hs, List.count_append]
  rw [nothing hbefore hspace, nothing hpath hchar, nothing hafter hspace, Nat.zero_add,
    Nat.zero_add, Nat.zero_add]

theorem Spells.count_open : s.toList.count '\x7b' = 2 := by
  rw [h.count_eq rfl rfl]
  cases p.root <;> rfl

theorem Spells.count_close : s.toList.count '\x7d' = 2 := by
  rw [h.count_eq rfl rfl]
  cases p.root <;> rfl

theorem Spells.head : ∃ rest, s.toList = '\x7b' :: rest := by
  obtain ⟨_, _, _, _, _, _, hs⟩ := h
  exact ⟨_, hs⟩

theorem Spells.last : ∃ front, s.toList = front ++ ['\x7d'] := by
  obtain ⟨before, after, _, _, _, _, hs⟩ := h
  refine ⟨['\x7b', '\x7b'] ++ (before ++ (p.root.name.toList ++ ['.'] ++
    (p.path.toList ++ (after ++ ['\x7d'])))), ?_⟩
  rw [hs]
  simp only [List.append_assoc]
  rfl

/-- **No placeholder is part of a longer one**: with text before it there would be a third brace at
the beginning, with text after it at the end. -/
theorem eq_of_spells_inside {before after : String} (hlonger : q.Spells (before ++ s ++ after)) :
    before = "" ∧ after = "" := by
  have hlist : (before ++ s ++ after).toList = before.toList ++ s.toList ++ after.toList := by
    rw [String.toList_append, String.toList_append]
  have hopen := hlonger.count_open
  have hclose := hlonger.count_close
  rw [hlist, List.count_append, List.count_append] at hopen hclose
  rw [h.count_open] at hopen
  rw [h.count_close] at hclose
  have hbefore : '\x7b' ∉ before.toList := List.count_eq_zero.mp (by omega)
  have hafter : '\x7d' ∉ after.toList := List.count_eq_zero.mp (by omega)
  constructor
  · obtain ⟨rest, hrest⟩ := hlonger.head
    rw [hlist, List.append_assoc] at hrest
    cases hcs : before.toList with
    | nil => exact String.toList_eq_nil_iff.mp hcs
    | cons c cs =>
      rw [hcs] at hrest hbefore
      obtain rfl := (List.cons.inj hrest).1
      exact absurd List.mem_cons_self hbefore
  · obtain ⟨front, hfront⟩ := hlonger.last
    rw [hlist] at hfront
    rcases List.eq_nil_or_concat' after.toList with hcs | ⟨cs, c, hcs⟩
    · exact String.toList_eq_nil_iff.mp hcs
    · rw [hcs, ← List.append_assoc] at hfront
      obtain ⟨-, hc⟩ := List.append_inj' hfront rfl
      obtain rfl := List.singleton_inj.mp hc
      exact absurd (hcs ▸ List.mem_append_right _ List.mem_cons_self) hafter

/-! ## the root -/

/-- **What stands before the first point is the root**, white space before it left out. -/
theorem root_of_spells {before word rest : List Char} (hbefore : ∀ c ∈ before, isSpace c = true)
    (hword : ∀ c ∈ word, isSpace c = false ∧ c ≠ '.')
    (hs : s.toList = ['\x7b', '\x7b'] ++ (before ++ (word ++ '.' :: rest))) :
    word = p.root.name.toList := by
  obtain ⟨blank, after, hblank, -, -, -, hspelled⟩ := h
  have hhead : ∀ c ∈ (word ++ '.' :: rest).head?, isSpace c = false := by
    intro c hc
    cases word with
    | nil => exact Option.some_inj.mp hc ▸ rfl
    | cons w word => exact (hword c (Option.some_inj.mp hc ▸ List.mem_cons_self)).1
  have hopen := congrArg skipSpace (List.append_cancel_left (hs.symm.trans hspelled))
  rw [skipSpace_append hbefore hhead, skipSpace_append hblank (name_head _ _),
    List.append_assoc] at hopen
  have hpoint := congrArg (List.takeWhile fun c => c != '.') hopen
  have hname : ∀ c ∈ p.root.name.toList, (c != '.') = true := by
    cases p.root <;> exact List.all_eq_true.mp rfl
  rw [List.takeWhile_append_of_pos fun c hc => bne_iff_ne.mpr (hword c hc).2,
    List.takeWhile_append_of_pos hname] at hpoint
  simpa using hpoint

end

/-! ## references and strings -/

theorem ofText?_eq_none_iff {s : String} : ofText? s = none ↔ ¬ ∃ p : Placeholder, p.Spells s := by
  rw [Option.eq_none_iff_forall_ne_some, not_exists]
  simp only [ne_eq, ofText?_iff]

theorem resolveText_of_spells (declared : List Parameter) {p : Placeholder} {s : String}
    (h : p.Spells s) : resolveText declared s = (p.target declared).map .deferred := by
  rw [resolveText, ofText?_iff.mpr h]
  simp only
  cases p.target declared <;> rfl

theorem resolveText_of_not_spells (declared : List Parameter) {s : String}
    (h : ¬ ∃ p : Placeholder, p.Spells s) : resolveText declared s = .ok (.string s) := by
  rw [resolveText, ofText?_eq_none_iff.mpr h]

/-- **A string is a reference exactly if it is a placeholder from end to end.** Its root and path
are what the groups of the pattern capture, and there is no other way to read it. Every other string
stays as it is: one with a placeholder inside, or with another word where the root should be. -/
theorem recognized_exactly (declared : List Parameter) (s : String) :
    (resolveText declared s ≠ .ok (.string s) ↔ ∃ p : Placeholder, p.Spells s) ∧
    pattern.captures? s.toList =
      (ofText? s).map (fun p => [p.root.name.toList, p.path.toList]) ∧
    (∀ p : Placeholder, p.Spells s →
      resolveText declared s = (p.target declared).map .deferred ∧
      (∀ q : Placeholder, q.Spells s → q = p) ∧ ∀ c ∈ p.path.toList, isSpace c = false) ∧
    (∀ (p : Placeholder) (before after : String), p.Spells s → before ++ after ≠ "" →
      resolveText declared (before ++ s ++ after) = .ok (.string (before ++ s ++ after))) ∧
    (∀ before word rest : List Char, (∀ c ∈ before, isSpace c = true) →
      (∀ c ∈ word, isSpace c = false ∧ c ≠ '.') → (∀ r : Root, word ≠ r.name.toList) →
      s.toList = ['\x7b', '\x7b'] ++ (before ++ (word ++ '.' :: rest)) →
      resolveText declared s = .ok (.string s)) := by
  refine ⟨⟨?_, ?_⟩, captures?_pattern s, ?_, ?_, ?_⟩
  · intro hne
    by_contra h
    exact hne (resolveText_of_not_spells declared h)
  · rintro ⟨p, h⟩ e
    rw [resolveText_of_spells declared h] at e
    cases htarget : p.target declared <;> rw [htarget] at e <;> cases e
  · intro p h
    refine ⟨resolveText_of_spells declared h, ?_, ?_⟩
    · intro q hq
      exact Option.some_inj.mp ((ofText?_iff.mpr hq).symm.trans (ofText?_iff.mpr h))
    · obtain ⟨-, -, -, -, -, hpath, -⟩ := h
      intro c hc
      by_contra hspace
      cases (isPathChar_of_isSpace (eq_true_of_ne_false hspace)).symm.trans (hpath c hc)
  · intro p before after h hne
    apply resolveText_of_not_spells
    rintro ⟨q, hq⟩
    obtain ⟨rfl, rfl⟩ := eq_of_spells_inside h hq
    exact hne rfl
  · intro before word rest hbefore hword hroot hs
    apply resolveText_of_not_spells
    rintro ⟨p, h⟩
    exact hroot p.root (root_of_spells h hbefore hword hs)

/-- a point in the path and a no-break space after it; a line break after the braces; and a root
that is not known -/
theorem recognized_exactly_spaced :
    resolveText [] "\x7b\x7b Steps.a.b\u00a0\x7d\x7d" =
      .ok (.deferred (.property (.ofStep "a.b"))) ∧
    resolveText [] ("" ++ "\x7b\x7b Steps.a.b\u00a0\x7d\x7d" ++ "\n") =
      .ok (.string ("" ++ "\x7b\x7b Steps.a.b\u00a0\x7d\x7d" ++ "\n")) ∧
    resolveText [] "\x7b\x7b Step.a \x7d\x7d" = .ok (.string "\x7b\x7b Step.a \x7d\x7d") := by
  have hspells : (Placeholder.mk .steps "a.b").Spells "\x7b\x7b Steps.a.b\u00a0\x7d\x7d" :=
    ⟨[' '], ['\u00a0'], List.all_eq_true.mp rfl, List.all_eq_true.mp rfl, by decide,
      List.all_eq_true.mp rfl, rfl⟩
  obtain ⟨-, -, hreference, hlonger, -⟩ :=
    recognized_exactly [] "\x7b\x7b Steps.a.b\u00a0\x7d\x7d"
  obtain ⟨-, -, -, -, hroot⟩ := recognized_exactly [] "\x7b\x7b Step.a \x7d\x7d"
  refine ⟨(hreference _ hspells).1, hlonger _ "" "\n" hspells (by decide), ?_⟩
  refine hroot [' '] "Step".toList "a \x7d\x7d".toList (List.all_eq_true.mp rfl) ?_ ?_ rfl
  · intro c hc
    have hletters : "Step".toList.all (fun c => !isSpace c && c != '.') = true := rfl
    simpa using List.all_eq_true.mp hletters c hc
  · intro r
    cases r <;> decide

end Placeholder

end Workflow
