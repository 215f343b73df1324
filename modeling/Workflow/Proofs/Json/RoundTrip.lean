import Workflow.Json.Keyed
import Workflow.Json.Reader
import Workflow.Proofs.Json.Lexing

/-!
# Text and value determine each other

The tokens of a value are put together to that value again, at any depth and inside any open
containers, and no two values have the same tokens. With the lexing of printed text this gives both
directions for every blank style: the text of a value reads back as the value, and values with one
text are one value.

* `assembleFrom?_tokens`   the tokens of a value become the value, whatever is open around them;
* `tokens_append_inj`      where the tokens of a value end can be seen from the tokens;
* `read?_text`             the text of a value reads back;
* `text_inj`               values with the same text are the same, keys repeated or not.
-/

namespace Workflow.Json

/-! ## putting tokens together -/

/-- after `[` a value is read like anywhere else -/
theorem assembleFrom?_firstItem (around : List Frame) (v : Json) (ts : List Token) :
    assembleFrom? around .firstItem (tokens v ++ ts) = assembleFrom? around .value (tokens v ++ ts) := by
  cases v with
  | null => rfl
  | bool b => rfl
  | number n => rfl
  | string s => rfl
  | array xs => cases xs <;> rfl
  | object fs => cases fs <;> rfl

theorem assembleFrom?_items {xs : List Json}
    (ih : ∀ x ∈ xs, ∀ (around : List Frame) (ts : List Token),
      assembleFrom? around .value (tokens x ++ ts) = assembleFrom? around (.after x) ts)
    (outer : List Frame) (before : List Json) (v : Json) (ts : List Token) :
    assembleFrom? (.items before :: outer) (.after v) (itemTokens xs ++ .closeArray :: ts) =
      assembleFrom? outer (.after (array ((v :: before).reverse ++ xs))) ts := by
  induction xs generalizing before v with
  | nil =>
    rw [List.append_nil]
    rfl
  | cons x xs ihxs =>
    show assembleFrom? (.items (v :: before) :: outer) .value
      (tokens x ++ itemTokens xs ++ .closeArray :: ts) = _
    rw [List.append_assoc, ih x List.mem_cons_self,
      ihxs fun y hy => ih y (List.mem_cons_of_mem _ hy)]
    simp

theorem assembleFrom?_fields {fs : List (String × Json)}
    (ih : ∀ f ∈ fs, ∀ (around : List Frame) (ts : List Token),
      assembleFrom? around .value (tokens f.2 ++ ts) = assembleFrom? around (.after f.2) ts)
    (outer : List Frame) (before : List (String × Json)) (k : String) (v : Json) (ts : List Token) :
    assembleFrom? (.fields before k :: outer) (.after v) (fieldTokens fs ++ .closeObject :: ts) =
      assembleFrom? outer (.after (object (Fields.ofPairs (((k, v) :: before).reverse ++ fs)))) ts := by
  induction fs generalizing before k v with
  | nil =>
    rw [List.append_nil]
    rfl
  | cons f fs ihfs =>
    obtain ⟨l, w⟩ := f
    show assembleFrom? (.fields ((k, v) :: before) l :: outer) .value
      (tokens w ++ fieldTokens fs ++ .closeObject :: ts) = _
    rw [List.append_assoc, ih (l, w) List.mem_cons_self,
      ihfs fun g hg => ih g (List.mem_cons_of_mem _ hg)]
    simp

/-- **The tokens of a value become the value**, in any place and before any further tokens. -/
theorem assembleFrom?_tokens (v : Json) (h : v.wellKeyed = true) : ∀ (around : List Frame)
    (ts : List Token),
    assembleFrom? around .value (tokens v ++ ts) = assembleFrom? around (.after v) ts := by
  induction v using Json.induct with
  | null => exact fun _ _ => rfl
  | bool b => exact fun _ _ => rfl
  | number n => exact fun _ _ => rfl
  | string s => exact fun _ _ => rfl
  | array xs ih =>
    intro around ts
    rw [wellKeyed, wellKeyedItems_eq, List.all_eq_true] at h
    cases xs with
    | nil => rfl
    | cons x xs =>
      show assembleFrom? (.items [] :: around) .firstItem
        (tokens x ++ (itemTokens xs ++ [.closeArray]) ++ ts) = _
      rw [List.append_assoc, assembleFrom?_firstItem, ih x List.mem_cons_self (h x List.mem_cons_self),
        List.append_assoc]
      exact assembleFrom?_items
        (fun y hy => ih y (List.mem_cons_of_mem _ hy) (h y (List.mem_cons_of_mem _ hy))) around [] x ts
  | object fs ih =>
    intro around ts
    rw [wellKeyed, wellKeyedFields_eq, Bool.and_eq_true, decide_eq_true_eq, List.all_eq_true] at h
    cases fs with
    | nil => rfl
    | cons f fs =>
      obtain ⟨k, v⟩ := f
      show assembleFrom? (.fields [] k :: around) .value
        (tokens v ++ (fieldTokens fs ++ [.closeObject]) ++ ts) = _
      rw [List.append_assoc, ih (k, v) List.mem_cons_self (h.2 (k, v) List.mem_cons_self),
        List.append_assoc]
      have hfs := assembleFrom?_fields
        (fun g hg => ih g (List.mem_cons_of_mem _ hg) (h.2 g (List.mem_cons_of_mem _ hg)))
        around [] k v ts
      rw [List.reverse_singleton, List.singleton_append, Fields.ofPairs_of_nodup h.1] at hfs
      exact hfs

theorem readChars?_render {s : Style} (hs : s.Blank) (v : Keyed) :
    readChars? (render s 0 v.val) = some v.val := by
  have hv := assembleFrom?_tokens v.val v.property [] []
  rw [List.append_nil] at hv
  rw [readChars?, Token.lex?_render hs, Option.bind_some, assemble?, hv]
  rfl

/-- **The text of a value reads back as the value.** -/
theorem read?_text {s : Style} (hs : s.Blank) (v : Keyed) : read? (text s v.val) = some v.val := by
  rw [read?, text, String.toList_ofList, readChars?_render hs v]

/-! ## tokens determine the value -/

/-- a value that starts with an atom is that atom -/
theorem eq_atom_of_tokens {t : Token} {v w : Json} {ts us : List Token} (ht : atom? t = some v)
    (h : t :: ts = tokens w ++ us) : v = w ∧ ts = us := by
  cases w with
  | array ys =>
    have ht' : t = .openArray := by cases ys <;> exact (List.cons.inj h).1
    rw [ht'] at ht
    exact absurd ht (by simp [atom?])
  | object gs =>
    have ht' : t = .openObject := by cases gs <;> exact (List.cons.inj h).1
    rw [ht'] at ht
    exact absurd ht (by simp [atom?])
  | _ =>
    obtain ⟨rfl, rfl⟩ := List.cons.inj h
    exact ⟨(Option.some_inj.mp ht).symm, rfl⟩

theorem eq_array_of_tokens {w : Json} {ts us : List Token} (h : .openArray :: ts = tokens w ++ us) :
    ∃ ys, w = array ys := by
  cases w with
  | array ys => exact ⟨ys, rfl⟩
  | object gs => cases gs <;> exact absurd h (by simp [tokens])
  | _ => exact absurd h (by simp [tokens])

theorem eq_object_of_tokens {w : Json} {ts us : List Token}
    (h : .openObject :: ts = tokens w ++ us) : ∃ gs, w = object gs := by
  cases w with
  | object gs => exact ⟨gs, rfl⟩
  | array ys => cases ys <;> exact absurd h (by simp [tokens])
  | _ => exact absurd h (by simp [tokens])

/-- no value starts with the end of a container -/
theorem closing_ne_tokens {w : Json} {ts us : List Token} :
    .closeArray :: ts ≠ tokens w ++ us := by
  intro h
  cases w with
  | array ys => cases ys <;> exact absurd h (by simp [tokens])
  | object gs => cases gs <;> exact absurd h (by simp [tokens])
  | _ => exact absurd h (by simp [tokens])

theorem itemTokens_append_inj {xs ys : List Json}
    (ih : ∀ x ∈ xs, ∀ (w : Json) (ts us : List Token), tokens x ++ ts = tokens w ++ us → x = w ∧ ts = us)
    {ts us : List Token}
    (h : itemTokens xs ++ .closeArray :: ts = itemTokens ys ++ .closeArray :: us) :
    xs = ys ∧ ts = us := by
  induction xs generalizing ys with
  | nil =>
    cases ys with
    | nil => exact ⟨rfl, by simpa [itemTokens] using h⟩
    | cons y ys => exact absurd h (by simp [itemTokens])
  | cons x xs ihxs =>
    cases ys with
    | nil => exact absurd h (by simp [itemTokens])
    | cons y ys =>
      simp only [itemTokens, List.cons_append, List.append_assoc, List.cons.injEq, true_and] at h
      obtain ⟨rfl, hrest⟩ := ih x List.mem_cons_self _ _ _ h
      obtain ⟨rfl, rfl⟩ := ihxs (fun z hz => ih z (List.mem_cons_of_mem _ hz)) hrest
      exact ⟨rfl, rfl⟩

theorem fieldTokens_append_inj {fs gs : List (String × Json)}
    (ih : ∀ f ∈ fs, ∀ (w : Json) (ts us : List Token),
      tokens f.2 ++ ts = tokens w ++ us → f.2 = w ∧ ts = us) {ts us : List Token}
    (h : fieldTokens fs ++ .closeObject :: ts = fieldTokens gs ++ .closeObject :: us) :
    fs = gs ∧ ts = us := by
  induction fs generalizing gs with
  | nil =>
    cases gs with
    | nil => exact ⟨rfl, by simpa [fieldTokens] using h⟩
    | cons g gs => exact absurd h (by simp [fieldTokens])
  | cons f fs ihfs =>
    obtain ⟨k, v⟩ := f
    cases gs with
    | nil => exact absurd h (by simp [fieldTokens])
    | cons g gs =>
      obtain ⟨l, w⟩ := g
      simp only [fieldTokens, List.cons_append, List.append_assoc, List.cons.injEq, true_and,
        Token.text.injEq] at h
      obtain ⟨rfl, h⟩ := h
      obtain ⟨hv, hrest⟩ := ih (k, v) List.mem_cons_self _ _ _ h
      obtain rfl : v = w := hv
      obtain ⟨rfl, rfl⟩ := ihfs (fun z hz => ih z (List.mem_cons_of_mem _ hz)) hrest
      exact ⟨rfl, rfl⟩

/-- **The tokens of a value say where they end and which value they are.** -/
theorem tokens_append_inj (v : Json) : ∀ (w : Json) (ts us : List Token),
    tokens v ++ ts = tokens w ++ us → v = w ∧ ts = us := by
  induction v using Json.induct with
  | null => exact fun w ts us h => eq_atom_of_tokens (t := .null) rfl h
  | bool b => exact fun w ts us h => eq_atom_of_tokens (t := .bool b) rfl h
  | number n => exact fun w ts us h => eq_atom_of_tokens (t := .number n) rfl h
  | string s => exact fun w ts us h => eq_atom_of_tokens (t := .text s) rfl h
  | array xs ih =>
    intro w ts us h
    cases xs with
    | nil =>
      obtain ⟨ys, rfl⟩ := eq_array_of_tokens h
      cases ys with
      | nil => exact ⟨rfl, by simpa [tokens] using h⟩
      | cons y ys =>
        simp only [tokens, List.cons_append, List.nil_append, List.cons.injEq, true_and,
          List.append_assoc] at h
        exact absurd h closing_ne_tokens
    | cons x xs =>
      obtain ⟨ys, rfl⟩ := eq_array_of_tokens h
      cases ys with
      | nil =>
        simp only [tokens, List.cons_append, List.nil_append, List.cons.injEq, true_and,
          List.append_assoc] at h
        exact absurd h.symm closing_ne_tokens
      | cons y ys =>
        simp only [tokens, List.cons_append, List.append_assoc, List.cons.injEq, true_and] at h
        obtain ⟨rfl, hrest⟩ := ih x List.mem_cons_self _ _ _ h
        obtain ⟨rfl, rfl⟩ := itemTokens_append_inj (fun z hz => ih z (List.mem_cons_of_mem _ hz)) hrest
        exact ⟨rfl, rfl⟩
  | object fs ih =>
    intro w ts us h
    cases fs with
    | nil =>
      obtain ⟨gs, rfl⟩ := eq_object_of_tokens h
      cases gs with
      | nil => exact ⟨rfl, by simpa [tokens] using h⟩
      | cons g gs => exact absurd h (by simp [tokens])
    | cons f fs =>
      obtain ⟨gs, rfl⟩ := eq_object_of_tokens h
      obtain ⟨k, v⟩ := f
      cases gs with
      | nil => exact absurd h (by simp [tokens])
      | cons g gs =>
        obtain ⟨l, w⟩ := g
        simp only [tokens, List.cons_append, List.append_assoc, List.cons.injEq, true_and,
          Token.text.injEq] at h
        obtain ⟨rfl, h⟩ := h
        obtain ⟨hv, hrest⟩ := ih (k, v) List.mem_cons_self _ _ _ h
        obtain rfl : v = w := hv
        obtain ⟨rfl, rfl⟩ := fieldTokens_append_inj (fun z hz => ih z (List.mem_cons_of_mem _ hz)) hrest
        exact ⟨rfl, rfl⟩

/-- **Values with the same text are the same.** -/
theorem text_inj {s : Style} (hs : s.Blank) {v w : Json} : text s v = text s w ↔ v = w := by
  constructor
  · intro h
    have hchars : render s 0 v = render s 0 w := String.ofList_injective h
    have htokens : tokens v = tokens w := by
      rw [← Option.some_inj, ← Token.lex?_render hs, hchars, Token.lex?_render hs]
    exact (tokens_append_inj v w [] [] (by rw [htokens])).1
  · rintro rfl
    rfl

theorem wire_inj {v w : Json} : v.wire = w.wire ↔ v = w := text_inj Style.blank_wire

end Workflow.Json
