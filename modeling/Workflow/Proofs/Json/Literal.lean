import Workflow.Document.Basic
import Workflow.Proofs.Json.Escaping
import Workflow.Proofs.Json.Number

/-!
# Text on the wire

On the wire a character of a string is spelled in one of five ways, all of printable ASCII, and a
literal is what its characters are spelled as, one by one. Keys and strings are spelled alike, and
around them a document has marks, words and numbers only, so that it is one printable line.

* `Spelled`                   the spelling of a character, by kinds of characters;
* `spelled_iff`               every character has one spelling, the one it has in a literal;
* `toList_wire_object`        the text of an object, from its keys and values;
* `isPrintable_of_mem_wire`   the text of every value is printable;
* `literals_exact`            literals on the wire, however they are cut while they are written.
-/

namespace Workflow.Json

/-! ## the spelling of a character -/

/-- a UTF-16 unit by four hexadecimal digits, in lower case -/
def escapedUnit (unit : Nat) : List Char :=
  '\\' :: 'u' :: (Nat.toDigits 16 unit).leftpad 4 '0'

/-- the characters that are escaped by one letter, and the letters -/
def letterEscapes : List (Char × Char) :=
  [('"', '"'), ('\\', '\\'), ('\x08', 'b'), ('\x0c', 'f'), ('\n', 'n'), ('\r', 'r'), ('\t', 't')]

inductive Spelled : Char → List Char → Prop where
  | letter {c l : Char} (h : (c, l) ∈ letterEscapes) : Spelled c ['\\', l]
  | control {c : Char} (low : c.toNat < 0x20) (h : ∀ l, (c, l) ∉ letterEscapes) :
      Spelled c (escapedUnit c.toNat)
  | itself {c : Char} (from_space : 0x20 ≤ c.toNat) (to_tilde : c.toNat ≤ 0x7E)
      (h : ∀ l, (c, l) ∉ letterEscapes) : Spelled c [c]
  | unit {c : Char} (high : 0x7E < c.toNat) (h : c.toNat < 0x10000) :
      Spelled c (escapedUnit c.toNat)
  /-- a surrogate pair -/
  | pair {c : Char} {u v : Nat} (hu : 0xD800 ≤ u ∧ u < 0xDC00) (hv : 0xDC00 ≤ v ∧ v < 0xE000)
      (h : c.toNat = 0x10000 + (u - 0xD800) * 0x400 + (v - 0xDC00)) :
      Spelled c (escapedUnit u ++ escapedUnit v)

/-- one hexadecimal digit more in front -/
theorem leftpad_toDigits {k : Nat} (hk : 1 ≤ k) (n : Nat) :
    (Nat.toDigits 16 n).leftpad (k + 1) '0' =
      (Nat.toDigits 16 (n / 16)).leftpad k '0' ++ [(n % 16).digitChar] := by
  rcases Nat.lt_or_ge n 16 with hn | hn
  · obtain ⟨j, rfl⟩ := Nat.exists_eq_add_of_le' hk
    rw [Nat.div_eq_of_lt hn, Nat.mod_eq_of_lt hn, Nat.toDigits_of_lt_base hn]
    simp [List.leftpad, List.replicate_succ']
  · rw [Nat.toDigits_of_base_le (by decide) hn]
    simp [List.leftpad]

theorem hex4_eq {n : Nat} (hn : n < 0x10000) : '\\' :: 'u' :: hex4 n = escapedUnit n := by
  have first : (Nat.toDigits 16 (n / 16 / 16 / 16)).leftpad 1 '0' =
      [(n / 4096 % 16).digitChar] := by
    rw [show n / 16 / 16 / 16 = n / 4096 % 16 by omega, Nat.toDigits_of_lt_base (by omega)]
    rfl
  rw [escapedUnit, leftpad_toDigits (by decide), leftpad_toDigits (by decide),
    leftpad_toDigits (by decide), first, show n / 16 / 16 = n / 256 by omega]
  rfl

theorem shortEscape?_eq_some_iff {c l : Char} :
    shortEscape? c = some l ↔ (c, l) ∈ letterEscapes := by
  constructor
  · intro h
    unfold shortEscape? at h
    repeat' split at h
    all_goals simp only [Option.some_inj, reduceCtorEq] at h
    all_goals
      subst h
      subst c
      decide
  · intro h
    simp only [letterEscapes, List.mem_cons, Prod.mk.injEq, List.not_mem_nil, or_false] at h
    rcases h with ⟨rfl, rfl⟩ | ⟨rfl, rfl⟩ | ⟨rfl, rfl⟩ | ⟨rfl, rfl⟩ | ⟨rfl, rfl⟩ | ⟨rfl, rfl⟩ |
      ⟨rfl, rfl⟩ <;> rfl

theorem not_mem_letterEscapes {c : Char} (high : 0x7E < c.toNat) (l : Char) :
    (c, l) ∉ letterEscapes := by
  have low : ∀ p ∈ letterEscapes, p.1.toNat ≤ 0x7E := by decide
  exact fun h => absurd (low (c, l) h) (Nat.not_le.mpr high)

theorem ascii_char_eq {c : Char} (h : ∀ l, (c, l) ∉ letterEscapes) :
    Escape.ascii.char c =
      if 0x20 ≤ c.toNat ∧ c.toNat ≤ 0x7E then [c] else unitEscapes c := by
  have none : shortEscape? c = none :=
    Option.eq_none_iff_forall_ne_some.mpr fun l hl => h l (shortEscape?_eq_some_iff.mp hl)
  rw [Escape.char, none]
  simp only [Escape.keeps, Bool.and_eq_true, decide_eq_true_eq]

theorem unitEscapes_of_lt {c : Char} (h : c.toNat < 0x10000) :
    unitEscapes c = escapedUnit c.toNat := by
  rw [unitEscapes, units16, if_pos h, List.flatMap_singleton, hex4_eq h]

theorem unitEscapes_of_ge {c : Char} (h : ¬ c.toNat < 0x10000) :
    unitEscapes c = escapedUnit (0xD800 + (c.toNat - 0x10000) / 0x400) ++
      escapedUnit (0xDC00 + (c.toNat - 0x10000) % 0x400) := by
  have hvalid : c.toNat < 0xD800 ∨ 0xDFFF < c.toNat ∧ c.toNat < 0x110000 := c.valid
  rw [unitEscapes, units16, if_neg h, List.flatMap_cons, List.flatMap_singleton,
    hex4_eq (by omega), hex4_eq (by omega)]

theorem spelled_char (c : Char) : Spelled c (Escape.ascii.char c) := by
  have hvalid : c.toNat < 0xD800 ∨ 0xDFFF < c.toNat ∧ c.toNat < 0x110000 := c.valid
  by_cases hletter : ∃ l, (c, l) ∈ letterEscapes
  · obtain ⟨l, hl⟩ := hletter
    rw [Escape.char, shortEscape?_eq_some_iff.mpr hl]
    exact .letter hl
  · have other : ∀ l, (c, l) ∉ letterEscapes := not_exists.mp hletter
    rw [ascii_char_eq other]
    split
    case isTrue hkept => exact .itself hkept.1 hkept.2 other
    case isFalse hkept =>
      by_cases hsmall : c.toNat < 0x10000
      · rw [unitEscapes_of_lt hsmall]
        by_cases hlow : c.toNat < 0x20
        · exact .control hlow other
        · exact .unit (by omega) hsmall
      · rw [unitEscapes_of_ge hsmall]
        exact .pair (by omega) (by omega) (by omega)

theorem Spelled.eq_char {c : Char} {t : List Char} (h : Spelled c t) :
    t = Escape.ascii.char c := by
  cases h with
  | letter h => rw [Escape.char, shortEscape?_eq_some_iff.mpr h]
  | control low h => rw [ascii_char_eq h, if_neg (by omega), unitEscapes_of_lt (by omega)]
  | itself from_space to_tilde h => rw [ascii_char_eq h, if_pos ⟨from_space, to_tilde⟩]
  | unit high h =>
    rw [ascii_char_eq (not_mem_letterEscapes high), if_neg (by omega), unitEscapes_of_lt h]
  | @pair u v hu hv h =>
    have hsplit : 0xD800 + (c.toNat - 0x10000) / 0x400 = u ∧
        0xDC00 + (c.toNat - 0x10000) % 0x400 = v := by omega
    rw [ascii_char_eq (not_mem_letterEscapes (by omega)), if_neg (by omega),
      unitEscapes_of_ge (by omega), hsplit.1, hsplit.2]

/-- **Every character has one spelling**, the one it has in a literal. -/
theorem spelled_iff {c : Char} {t : List Char} : Spelled c t ↔ t = Escape.ascii.char c :=
  ⟨Spelled.eq_char, fun h => h ▸ spelled_char c⟩

/-! ## printable text -/

/-- from the space to `~` -/
def IsPrintable (c : Char) : Prop := 0x20 ≤ c.toNat ∧ c.toNat ≤ 0x7E

instance (c : Char) : Decidable (IsPrintable c) := by
  unfold IsPrintable
  infer_instance

theorem isPrintable_of_all {cs : List Char} (h : cs.all (IsPrintable ·) = true) :
    ∀ c ∈ cs, IsPrintable c := fun c hc => of_decide_eq_true (List.all_eq_true.mp h c hc)

theorem isPrintable_of_mem_hex4 {n : Nat} {c : Char} (h : c ∈ hex4 n) : IsPrintable c := by
  have digit : ∀ d < 16, IsPrintable (Nat.digitChar d) := by decide
  simp only [hex4, List.mem_cons, List.not_mem_nil, or_false] at h
  rcases h with rfl | rfl | rfl | rfl <;> exact digit _ (Nat.mod_lt _ (by decide))

theorem isPrintable_of_mem_unitEscapes {c d : Char} (h : d ∈ unitEscapes c) : IsPrintable d := by
  obtain ⟨unit, -, hd⟩ := List.mem_flatMap.mp h
  rcases List.mem_cons.mp hd with rfl | hd
  · decide
  rcases List.mem_cons.mp hd with rfl | hd
  · decide
  exact isPrintable_of_mem_hex4 hd

theorem isPrintable_of_mem_char {c d : Char} (h : d ∈ Escape.ascii.char c) : IsPrintable d := by
  have letter : ∀ p ∈ letterEscapes, IsPrintable p.2 := by decide
  rw [Escape.char] at h
  cases hs : shortEscape? c with
  | some l =>
    rw [hs] at h
    rcases List.mem_cons.mp h with rfl | h
    · decide
    obtain rfl := List.mem_singleton.mp h
    exact letter _ (shortEscape?_eq_some_iff.mp hs)
  | none =>
    rw [hs] at h
    dsimp only at h
    split at h
    case isTrue hkept =>
      obtain rfl := List.mem_singleton.mp h
      simpa [Escape.keeps, IsPrintable] using hkept
    case isFalse => exact isPrintable_of_mem_unitEscapes h

theorem isPrintable_of_mem_quote {s : String} {c : Char} (h : c ∈ Escape.ascii.quote s) :
    IsPrintable c := by
  rw [Escape.quote_eq] at h
  rcases List.mem_cons.mp h with rfl | h
  · decide
  rcases List.mem_append.mp h with h | h
  · obtain ⟨d, -, hd⟩ := List.mem_flatMap.mp h
    exact isPrintable_of_mem_char hd
  · obtain rfl := List.mem_singleton.mp h
    decide

/-! ## values -/

theorem intercalate_cons (sep x : List Char) (xs : List (List Char)) :
    sep.intercalate (x :: xs) = x ++ xs.flatMap (sep ++ ·) := by
  induction xs generalizing x with
  | nil => simp
  | cons y xs ih => simp [ih]

/-- the items after the first, where no item depends on its depth -/
theorem renderItems_wire {xs : List Json} (depth : Nat)
    (h : ∀ x ∈ xs, render .wire depth x = render .wire 0 x) :
    renderItems .wire depth xs = (xs.map (render .wire 0)).flatMap ([',', ' '] ++ ·) := by
  induction xs with
  | nil => rfl
  | cons x xs ih =>
    obtain ⟨hx, hxs⟩ := List.forall_mem_cons.mp h
    rw [renderItems, hx, ih hxs, List.map_cons, List.flatMap_cons]
    rfl

/-- the text of a field -/
def wireField (f : String × Json) : List Char :=
  Escape.ascii.quote f.1 ++ [':', ' '] ++ render .wire 0 f.2

theorem renderFields_wire {fs : List (String × Json)} (depth : Nat)
    (h : ∀ f ∈ fs, render .wire depth f.2 = render .wire 0 f.2) :
    renderFields .wire depth fs = (fs.map wireField).flatMap ([',', ' '] ++ ·) := by
  induction fs with
  | nil => rfl
  | cons f fs ih =>
    obtain ⟨k, v⟩ := f
    obtain ⟨hf, hfs⟩ := List.forall_mem_cons.mp h
    rw [renderFields, hf, ih hfs, List.map_cons, List.flatMap_cons, wireField]
    simp [Style.wire]

/-- the items or fields of a container, apart by a comma and a blank -/
def enclosed (left right : Char) (texts : List (List Char)) : List Char :=
  left :: ([',', ' '].intercalate texts ++ [right])

theorem render_wire_array_of {xs : List Json} (depth : Nat)
    (h : ∀ x ∈ xs, render .wire (depth + 1) x = render .wire 0 x) :
    render .wire depth (array xs) = enclosed '[' ']' (xs.map (render .wire 0)) := by
  cases xs with
  | nil => rfl
  | cons x xs =>
    obtain ⟨hx, hxs⟩ := List.forall_mem_cons.mp h
    rw [render, hx, renderItems_wire _ hxs, enclosed, List.map_cons, intercalate_cons]
    simp [Style.wire]

theorem render_wire_object_of {fs : List (String × Json)} (depth : Nat)
    (h : ∀ f ∈ fs, render .wire (depth + 1) f.2 = render .wire 0 f.2) :
    render .wire depth (object fs) = enclosed '\x7b' '\x7d' (fs.map wireField) := by
  cases fs with
  | nil => rfl
  | cons f fs =>
    obtain ⟨k, v⟩ := f
    obtain ⟨hf, hfs⟩ := List.forall_mem_cons.mp h
    rw [render, hf, renderFields_wire _ hfs, enclosed, List.map_cons, intercalate_cons, wireField]
    simp [Style.wire]

/-- on the wire a value is written alike at every depth -/
theorem render_wire (v : Json) (depth : Nat) : render .wire depth v = render .wire 0 v := by
  induction v using Json.induct generalizing depth with
  | null => rfl
  | bool b => cases b <;> rfl
  | number n => rfl
  | string s => rfl
  | array xs ih =>
    rw [render_wire_array_of depth fun x hx => ih x hx _,
      render_wire_array_of 0 fun x hx => ih x hx _]
  | object fs ih =>
    rw [render_wire_object_of depth fun f hf => ih f hf _,
      render_wire_object_of 0 fun f hf => ih f hf _]

theorem isPrintable_of_mem_enclosed {left right c : Char} {texts : List (List Char)}
    (hleft : IsPrintable left) (hright : IsPrintable right)
    (h : ∀ t ∈ texts, ∀ d ∈ t, IsPrintable d) (hc : c ∈ enclosed left right texts) :
    IsPrintable c := by
  have inside : ∀ d ∈ [',', ' '].intercalate texts, IsPrintable d := by
    cases texts with
    | nil => exact nofun
    | cons t ts =>
      obtain ⟨ht, hts⟩ := List.forall_mem_cons.mp h
      rw [intercalate_cons]
      intro d hd
      rcases List.mem_append.mp hd with hd | hd
      · exact ht d hd
      obtain ⟨u, hu, hd⟩ := List.mem_flatMap.mp hd
      rcases List.mem_cons.mp hd with rfl | hd
      · decide
      rcases List.mem_cons.mp hd with rfl | hd
      · decide
      exact hts u hu d hd
  rcases List.mem_cons.mp hc with rfl | hc
  · exact hleft
  rcases List.mem_append.mp hc with hc | hc
  · exact inside c hc
  · obtain rfl := List.mem_singleton.mp hc
    exact hright

theorem isPrintable_of_isNumeralChar {c : Char} (h : isNumeralChar c = true) : IsPrintable c := by
  simp only [isNumeralChar, Bool.or_eq_true, beq_iff_eq] at h
  rcases h with ((((h | rfl) | rfl) | rfl) | rfl) | rfl
  · obtain ⟨hlow, hhigh⟩ := Char.isDigit_iff_toNat.mp h
    exact ⟨Nat.le_trans (by decide) hlow, Nat.le_trans hhigh (by decide)⟩
  all_goals decide

theorem isPrintable_of_mem_render {v : Json} {c : Char} (h : c ∈ render .wire 0 v) :
    IsPrintable c := by
  induction v using Json.induct generalizing c with
  | null =>
    exact isPrintable_of_all (show ['n', 'u', 'l', 'l'].all (IsPrintable ·) = true by decide) c h
  | bool b =>
    have word : (render .wire 0 (bool b)).all (IsPrintable ·) = true := by cases b <;> decide
    exact isPrintable_of_all word c h
  | number n => exact isPrintable_of_isNumeralChar (Number.isNumeralChar_of_mem_numberText h)
  | string s => exact isPrintable_of_mem_quote h
  | array xs ih =>
    rw [render_wire_array_of 0 fun x _ => render_wire x _] at h
    refine isPrintable_of_mem_enclosed (by decide) (by decide) ?_ h
    rw [List.forall_mem_map]
    exact fun x hx d hd => ih x hx hd
  | object fs ih =>
    rw [render_wire_object_of 0 fun f _ => render_wire f.2 _] at h
    refine isPrintable_of_mem_enclosed (by decide) (by decide) ?_ h
    rw [List.forall_mem_map]
    intro f hf d hd
    rw [wireField, List.mem_append, List.mem_append] at hd
    rcases hd with (hd | hd) | hd
    · exact isPrintable_of_mem_quote hd
    · exact isPrintable_of_all (show [':', ' '].all (IsPrintable ·) = true by decide) d hd
    · exact ih f hf hd

theorem toList_wire (v : Json) : v.wire.toList = render .wire 0 v := String.toList_ofList

/-- the literal of a string, character by character -/
def literal (s : String) : List Char := '"' :: (s.toList.flatMap Escape.ascii.char ++ ['"'])

theorem toList_wire_object (fs : List (String × Json)) : (object fs).wire.toList =
    enclosed '\x7b' '\x7d' (fs.map fun f => literal f.1 ++ [':', ' '] ++ f.2.wire.toList) := by
  have field : (fun f : String × Json => literal f.1 ++ [':', ' '] ++ f.2.wire.toList) =
      wireField := by
    funext f
    rw [wireField, Escape.quote_eq, toList_wire, literal]
  rw [toList_wire, field, render_wire_object_of 0 fun f _ => render_wire f.2 _]

/-- **A literal on the wire is the spelling of its characters one by one**, between two quotes, both
for a string and for a key. It is so however the text is cut into fragments at the characters that
always have an escape: every slice of a fragment is there, and together they come to the same text.
So all text on the wire is one line of printable ASCII. -/
theorem literals_exact :
    (∀ c t, Spelled c t ↔ t = Escape.ascii.char c) ∧
      (∀ cs ps, Cut cs ps → Escape.ascii.contents? ps = some (cs.flatMap Escape.ascii.char)) ∧
      (∀ cs, Cut cs (pieces cs)) ∧
      (∀ s, (string s).wire.toList = literal s) ∧
      (∀ fs, (object fs).wire.toList = enclosed '\x7b' '\x7d'
        (fs.map fun f => literal f.1 ++ [':', ' '] ++ f.2.wire.toList)) ∧
      ∀ (d : Document), ∀ c ∈ d.wire.toList, ' ' ≤ c ∧ c ≤ '~' := by
  refine ⟨fun c t => spelled_iff, fun cs ps h => Escape.ascii.contents?_of_cut h, cut_pieces, ?_,
    toList_wire_object, ?_⟩
  · intro s
    rw [toList_wire]
    exact Escape.ascii.quote_eq s
  · intro d c hc
    rw [Document.wire, toList_wire] at hc
    exact isPrintable_of_mem_render hc

/-- neighbours above `~` in fragments of their own, an empty fragment and a surrogate pair -/
def scattered : List Piece :=
  [.fragment [], .fragment ['é'], .fragment ['\x7f', '~'], .escaped '\n', .fragment ['😀']]

theorem literals_exact_scattered :
    Cut ['é', '\x7f', '~', '\n', '😀'] scattered ∧
      Escape.ascii.contents? scattered = some "\\u00e9\\u007f~\\n\\ud83d\\ude00".toList ∧
      ('u' ∈ (Document.string "é").wire.toList ∧ ' ' ≤ 'u' ∧ 'u' ≤ '~') := by
  have astral := @Cut.fragment ['😀'] _ _ (free_of_all rfl) .nil
  have broken := Cut.escaped (show isEscaped '\n' = true from rfl) astral
  have joined := @Cut.fragment ['\x7f', '~'] _ _ (free_of_all rfl) broken
  have accented := @Cut.fragment ['é'] _ _ (free_of_all rfl) joined
  have cut : Cut ['é', '\x7f', '~', '\n', '😀'] scattered :=
    @Cut.fragment [] _ _ (free_of_all rfl) accented
  have spelling : ['é', '\x7f', '~', '\n', '😀'].flatMap Escape.ascii.char =
      "\\u00e9\\u007f~\\n\\ud83d\\ude00".toList := by decide +kernel
  have written := literals_exact.2.1 _ _ cut
  rw [spelling] at written
  have present : 'u' ∈ (Document.string "é").wire.toList := by decide +kernel
  exact ⟨cut, written, present, literals_exact.2.2.2.2.2 _ _ present⟩

end Workflow.Json
