import Workflow.Json.Escape

/-!
# Literals character by character

A literal is written in pieces, and a fragment in slices. Neither is seen in it: every piece comes
to the text of its characters one by one, and every slice that is asked for is there.

* `Cut`                        a text cut into pieces, in any way that leaves fragments free of
                               characters that always have an escape;
* `cut_pieces`                 the pieces that are made are such a cut;
* `Escape.asciiFrom?_eq`       what the loop over a fragment writes, from any point on;
* `Escape.contents?_of_cut`    every cut is written as its characters one by one;
* `Escape.quote_eq`            a literal.
-/

namespace Workflow.Json

open Text

/-- The pieces hold the text in order, and exactly the characters that always have an escape are
pieces of their own. Fragments may be empty or follow each other. -/
inductive Cut : List Char → List Piece → Prop where
  | nil : Cut [] []
  | escaped {c : Char} {cs : List Char} {ps : List Piece} (hc : isEscaped c = true)
      (rest : Cut cs ps) : Cut (c :: cs) (.escaped c :: ps)
  | fragment {text cs : List Char} {ps : List Piece} (free : ∀ c ∈ text, isEscaped c = false)
      (rest : Cut cs ps) : Cut (text ++ cs) (.fragment text :: ps)

theorem free_of_all {cs : List Char} (h : cs.all (!isEscaped ·) = true) :
    ∀ c ∈ cs, isEscaped c = false := fun c hc =>
  (Bool.not_eq_true' _).mp (List.all_eq_true.mp h c hc)

theorem Cut.grow {c : Char} {cs : List Char} {ps : List Piece} (hc : isEscaped c = false)
    (h : Cut cs ps) : Cut (c :: cs) (Piece.grow c ps) := by
  have alone : ∀ {cs ps}, Cut cs ps → Cut (c :: cs) (.fragment [c] :: ps) := fun h =>
    .fragment (List.forall_mem_singleton.mpr hc) h
  cases h with
  | nil => exact alone .nil
  | escaped hd rest => exact alone (.escaped hd rest)
  | fragment free rest => exact .fragment (List.forall_mem_cons.mpr ⟨hc, free⟩) rest

theorem cut_pieces (cs : List Char) : Cut cs (pieces cs) := by
  induction cs with
  | nil => exact .nil
  | cons c cs ih =>
    rw [pieces]
    split
    case isTrue hc => exact .escaped hc ih
    case isFalse hc => exact ih.grow (Bool.eq_false_iff.mpr hc)

namespace Escape

/-! ## one character -/

theorem char_of_isEscaped (e : Escape) {c : Char} (h : isEscaped c = true) :
    e.char c = escapeOf c := by
  rw [char, escapeOf]
  cases hs : shortEscape? c with
  | some letter => rfl
  | none =>
    rw [isEscaped, hs] at h
    have hlow : c.toNat < 0x20 := by simpa using h
    have hk : e.keeps c = false := by
      cases e <;> simp only [keeps, Bool.and_eq_false_iff, decide_eq_false_iff_not] <;> omega
    simp only [hk, Bool.false_eq_true, if_false]

theorem shortEscape?_of_not_isEscaped {c : Char} (h : isEscaped c = false) :
    shortEscape? c = none ∧ 0x20 ≤ c.toNat := by
  simpa [isEscaped] using h

theorem char_plain {c : Char} (h : isEscaped c = false) : plain.char c = [c] := by
  obtain ⟨hs, hlow⟩ := shortEscape?_of_not_isEscaped h
  rw [char, hs]
  exact if_pos (decide_eq_true hlow)

theorem char_ascii {c : Char} (h : isEscaped c = false) :
    ascii.char c = if c.toNat ≤ 0x7E then [c] else unitEscapes c := by
  obtain ⟨hs, hlow⟩ := shortEscape?_of_not_isEscaped h
  rw [char, hs]
  simp only [keeps, hlow, decide_true, Bool.true_and, decide_eq_true_eq]

/-! ## fragments and pieces -/

/-- The loop, where `written` stands before `start` and `kept` between `start` and `index`: what is
kept goes out as it is, and then every character as in a literal. -/
theorem asciiFrom?_eq {text written kept cs : List Char} {start index : Nat}
    (htext : text = written ++ (kept ++ cs)) (hstart : start = byteLength written)
    (hindex : index = start + byteLength kept) (free : ∀ c ∈ cs, isEscaped c = false) :
    asciiFrom? text start index cs = some (kept ++ cs.flatMap ascii.char) := by
  induction cs generalizing written kept start index with
  | nil =>
    have last := slice?_append written kept []
    rw [List.append_nil] at htext last
    rw [asciiFrom?, htext, byteLength_append, hstart, last, List.flatMap_nil, List.append_nil]
  | cons c cs ih =>
    obtain ⟨hc, hcs⟩ := List.forall_mem_cons.mp free
    rw [asciiFrom?, List.flatMap_cons, char_ascii hc]
    split
    case isTrue hlow =>
      -- the character joins what is kept
      have grown : text = written ++ (kept ++ [c] ++ cs) := by simp [htext]
      have next : index + c.utf8Size = start + byteLength (kept ++ [c]) := by
        rw [hindex, byteLength_append, byteLength_singleton, Nat.add_assoc]
      rw [ih grown hstart next hcs, List.append_assoc]
    case isFalse hhigh =>
      -- all up to the character is written, and nothing is kept
      have moved : text = written ++ kept ++ [c] ++ ([] ++ cs) := by simp [htext]
      have next : index + c.utf8Size = byteLength (written ++ kept ++ [c]) := by
        rw [hindex, hstart, byteLength_append, byteLength_append, byteLength_singleton]
      have here : slice? start index text = some kept := by
        rw [htext, hindex, hstart, slice?_append]
      have rest : asciiFrom? text (index + c.utf8Size) (index + c.utf8Size) cs =
          some ([] ++ cs.flatMap ascii.char) := ih moved next rfl hcs
      rw [here, rest]
      show some (kept ++ unitEscapes c ++ cs.flatMap ascii.char) = _
      rw [List.append_assoc]

theorem fragment?_eq (e : Escape) {text : List Char} (free : ∀ c ∈ text, isEscaped c = false) :
    e.fragment? text = some (text.flatMap e.char) := by
  cases e with
  | ascii =>
    have whole : text = [] ++ ([] ++ text) := rfl
    exact asciiFrom?_eq whole rfl rfl free
  | plain =>
    have single : text.map plain.char = text.map fun c => [c] :=
      List.map_congr_left fun c hc => char_plain (free c hc)
    rw [fragment?, List.flatMap_def, single, ← List.flatMap_def, List.flatMap_singleton']

/-- **However a text is cut, it is written as its characters one by one.** -/
theorem contents?_of_cut (e : Escape) {cs : List Char} {ps : List Piece} (h : Cut cs ps) :
    e.contents? ps = some (cs.flatMap e.char) := by
  induction h with
  | nil => rfl
  | escaped hc rest ih =>
    rw [contents?, piece?, ih, List.flatMap_cons, e.char_of_isEscaped hc]
    rfl
  | fragment free rest ih =>
    rw [contents?, piece?, e.fragment?_eq free, ih, List.flatMap_append]
    rfl

theorem quote_eq (e : Escape) (s : String) :
    e.quote s = '"' :: (s.toList.flatMap e.char ++ ['"']) := by
  rw [quote, e.contents?_of_cut (cut_pieces s.toList), Option.getD_some]

end Escape

end Workflow.Json
