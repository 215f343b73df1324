import Workflow.Proofs.Json.Escaping
import Workflow.Proofs.Json.Number

/-!
# The tokens of a printed value

The text of a value, in any style whose gaps are blanks and line breaks, is cut into the tokens of
the value, whatever text comes after it. Strings and containers end by themselves; a number or a
word ends where the text after it neither goes on with a letter nor with a part of a numeral.

* `tokens`              the tokens of a value;
* `Stops`               a number or a word in front of the text ends there;
* `lexFrom?_run`        what is kept while a run of characters is read;
* `lexFrom?_quote`      a string literal is one token;
* `lex?_render`         the text of a value is cut into its tokens.
-/

namespace Workflow.Json

open Decimal

mutual

def tokens : Json → List Token
  | null => [.null]
  | bool b => [.bool b]
  | number n => [.number n]
  | string s => [.text s]
  | array [] => [.openArray, .closeArray]
  | array (x :: xs) => .openArray :: (tokens x ++ (itemTokens xs ++ [.closeArray]))
  | object [] => [.openObject, .closeObject]
  | object ((k, v) :: fs) =>
    .openObject :: .text k :: .colon :: (tokens v ++ (fieldTokens fs ++ [.closeObject]))

def itemTokens : List Json → List Token
  | [] => []
  | x :: xs => .comma :: (tokens x ++ itemTokens xs)

def fieldTokens : List (String × Json) → List Token
  | [] => []
  | (k, v) :: fs => .comma :: .text k :: .colon :: (tokens v ++ fieldTokens fs)

end

namespace Token

/-! ## steps and runs -/

theorem lexFrom?_silent {mode next : Mode} {c : Char} (h : mode.step c = some (next, []))
    (cs : List Char) : lexFrom? mode (c :: cs) = lexFrom? next cs := by
  rw [lexFrom?, h]
  exact Option.map_id'

theorem lexFrom?_mark {c : Char} {t : Token} (h : Mode.start c = some (.between, [t]))
    (cs : List Char) : lexFrom? .between (c :: cs) = (lexFrom? .between cs).map (t :: ·) := by
  rw [lexFrom?, Mode.step, h]
  rfl

def Stops (rest : List Char) : Prop :=
  ∀ c ∈ rest.head?, isNumeralChar c = false ∧ c.isAlpha = false

theorem stops_nil : Stops [] := nofun

theorem stops_cons {c : Char} (h : isNumeralChar c = false ∧ c.isAlpha = false) (cs : List Char) :
    Stops (c :: cs) := by
  intro d hd
  obtain rfl : c = d := Option.some_inj.mp hd
  exact h

section
variable (run : List Char → Mode) (cont : Char → Bool) (token : List Char → Option Token)
  (hstep : ∀ seen c, (run seen).step c =
    if cont c then some (run (c :: seen), []) else Mode.resume (token seen) c)
  (hfinish : ∀ seen, (run seen).finish = (token seen).map fun t => [t])
include hstep hfinish

/-- the end of a run of characters completes its token -/
theorem lexFrom?_run_end {seen rest : List Char} {t : Token} (ht : token seen = some t)
    (hrest : ∀ c ∈ rest.head?, cont c = false) :
    lexFrom? (run seen) rest = (lexFrom? .between rest).map (t :: ·) := by
  cases rest with
  | nil =>
    rw [lexFrom?, hfinish, ht]
    rfl
  | cons c cs =>
    have hnext : (run seen).step c = (Mode.start c).map fun p => (p.1, t :: p.2) := by
      rw [hstep, hrest c rfl, if_neg Bool.false_ne_true, ht]
      unfold Mode.resume
      cases Mode.start c <;> rfl
    rw [lexFrom?, lexFrom?, hnext, Mode.step]
    cases Mode.start c with
    | none => rfl
    | some p =>
      obtain ⟨next, ts⟩ := p
      simp only [Option.map_some, Option.map_map]
      rfl

theorem lexFrom?_run {cs : List Char} (seen : List Char) {rest : List Char} {t : Token}
    (hcs : ∀ c ∈ cs, cont c = true) (ht : token (cs.reverse ++ seen) = some t)
    (hrest : ∀ c ∈ rest.head?, cont c = false) :
    lexFrom? (run seen) (cs ++ rest) = (lexFrom? .between rest).map (t :: ·) := by
  induction cs generalizing seen with
  | nil => exact lexFrom?_run_end run cont token hstep hfinish ht hrest
  | cons c cs ih =>
    have hc : (run seen).step c = some (run (c :: seen), []) := by
      rw [hstep, hcs c List.mem_cons_self, if_pos rfl]
    rw [List.cons_append, lexFrom?_silent hc]
    refine ih (c :: seen) (fun d hd => hcs d (List.mem_cons_of_mem _ hd)) ?_
    rwa [List.reverse_cons, List.append_assoc] at ht

end

/-! ## numbers and words -/

theorem start_of_isDigit {c : Char} (h : c.isDigit = true) :
    Mode.start c = some (.numeral [c], []) := by
  have hne : ∀ d : Char, d.isDigit = false → c ≠ d := fun d hd e => by
    rw [e, hd] at h
    exact absurd h (by decide)
  have hgap : isGap c = false := by
    simp [isGap, hne ' ' rfl, hne '\n' rfl, hne '\r' rfl, hne '\t' rfl]
  unfold Mode.start
  rw [hgap, if_neg (by decide), if_neg (hne _ rfl), if_neg (hne _ rfl), if_neg (hne _ rfl),
    if_neg (hne _ rfl), if_neg (hne _ rfl), if_neg (hne _ rfl), if_neg (hne _ rfl), if_pos (Or.inl h)]

theorem lexFrom?_number (s : Style) (n : Number) {rest : List Char} (hrest : Stops rest) :
    lexFrom? .between (numberText s n ++ rest) = (lexFrom? .between rest).map (.number n :: ·) := by
  obtain ⟨c, cs, htext, hc⟩ := Number.numberText_eq_cons s n
  have hread := Number.ofText?_numberText s n
  have hall : ∀ d ∈ c :: cs, isNumeralChar d = true := fun d hd =>
    Number.isNumeralChar_of_mem_numberText (htext ▸ hd)
  have hstart : Mode.between.step c = some (.numeral [c], []) := by
    rcases hc with hc | rfl
    · exact start_of_isDigit hc
    · rfl
  rw [htext] at hread ⊢
  rw [List.cons_append, lexFrom?_silent hstart]
  refine lexFrom?_run .numeral isNumeralChar numeralToken? (fun _ _ => rfl) (fun _ => rfl) [c]
    (fun d hd => hall d (List.mem_cons_of_mem _ hd)) ?_ (fun d hd => (hrest d hd).1)
  rw [numeralToken?, List.reverse_append, List.reverse_reverse]
  show (Number.ofText? (c :: cs)).map _ = _
  rw [hread]
  rfl

theorem lexFrom?_word {c : Char} {cs rest : List Char} {t : Token}
    (hstart : Mode.between.step c = some (.word [c], [])) (hcs : cs.all Char.isAlpha = true)
    (ht : wordToken? (cs.reverse ++ [c]) = some t) (hrest : Stops rest) :
    lexFrom? .between (c :: cs ++ rest) = (lexFrom? .between rest).map (t :: ·) := by
  rw [List.cons_append, lexFrom?_silent hstart]
  exact lexFrom?_run .word Char.isAlpha wordToken? (fun _ _ => rfl) (fun _ => rfl) [c]
    (List.all_eq_true.mp hcs) ht fun d hd => (hrest d hd).2

/-! ## strings -/

theorem hexValue?_digitChar : ∀ d < 16, hexValue? d.digitChar = some d := by decide

theorem lexFrom?_digit (seen : List Char) (high : Option Nat) {digits : List Nat} {v : Nat}
    (hv : v < 16) (hlen : digits.length < 3) (rest : List Char) :
    lexFrom? (.unit seen high digits) (v.digitChar :: rest) =
      lexFrom? (.unit seen high (v :: digits)) rest := by
  refine lexFrom?_silent ?_ rest
  rw [Mode.step.eq_def]
  simp only [hexValue?_digitChar v hv]
  split
  · exact absurd hlen (Nat.lt_irrefl 3)
  · simp_all
  · simp_all

/-- four digits are one UTF-16 unit -/
theorem lexFrom?_hex4 (seen : List Char) (high : Option Nat) {n : Nat} (hn : n < 0x10000)
    (rest : List Char) : lexFrom? (.unit seen high []) (hex4 n ++ rest) =
      (Mode.closeUnit seen high n).bind fun next => lexFrom? next rest := by
  have hval : ((n / 4096 % 16 * 16 + n / 256 % 16) * 16 + n / 16 % 16) * 16 + n % 16 = n := by omega
  have hlast : (Mode.unit seen high [n / 16 % 16, n / 256 % 16, n / 4096 % 16]).step
      (n % 16).digitChar = (Mode.closeUnit seen high n).map (·, []) := by
    rw [Mode.step.eq_def]
    simp only [hexValue?_digitChar (n % 16) (by omega), hval]
  show lexFrom? _ (_ :: _ :: _ :: _ :: rest) = _
  rw [lexFrom?_digit seen high (by omega) (by decide), lexFrom?_digit seen high (by omega) (by simp),
    lexFrom?_digit seen high (by omega) (by simp), lexFrom?, hlast]
  cases Mode.closeUnit seen high n with
  | none => rfl
  | some next => exact Option.map_id'

/-- an escaped unit inside a literal -/
theorem lexFrom?_escapedUnit (seen : List Char) {n : Nat} (hn : n < 0x10000) (rest : List Char) :
    lexFrom? (.quoted seen) ('\\' :: 'u' :: hex4 n ++ rest) =
      (Mode.closeUnit seen none n).bind fun next => lexFrom? next rest := by
  rw [List.cons_append, List.cons_append, lexFrom?_silent rfl, lexFrom?_silent rfl,
    lexFrom?_hex4 seen none hn]

theorem lexFrom?_units16 (seen : List Char) (c : Char) (rest : List Char) :
    lexFrom? (.quoted seen) ((units16 c).flatMap (fun unit => '\\' :: 'u' :: hex4 unit) ++ rest) =
      lexFrom? (.quoted (c :: seen)) rest := by
  have hvalid : c.toNat < 0xD800 ∨ 0xDFFF < c.toNat ∧ c.toNat < 0x110000 := c.valid
  unfold units16
  split
  · rename_i hsmall
    rw [List.flatMap_singleton, lexFrom?_escapedUnit seen hsmall, Mode.closeUnit, if_neg (by omega),
      if_neg (by omega), Option.bind_some, Char.ofNat_toNat]
  · rename_i hlarge
    have hhigh : 0xD800 + (c.toNat - 0x10000) / 0x400 < 0xDC00 := by omega
    have hlow : 0xDC00 + (c.toNat - 0x10000) % 0x400 < 0xE000 := by omega
    have hback : 0x10000 + (0xD800 + (c.toNat - 0x10000) / 0x400 - 0xD800) * 0x400 +
        (0xDC00 + (c.toNat - 0x10000) % 0x400 - 0xDC00) = c.toNat := by omega
    rw [List.flatMap_cons, List.flatMap_singleton, List.append_assoc,
      lexFrom?_escapedUnit seen (by omega), Mode.closeUnit, if_pos (by omega), Option.bind_some,
      List.cons_append, List.cons_append, lexFrom?_silent rfl, lexFrom?_silent rfl,
      lexFrom?_hex4 seen _ (by omega), Mode.closeUnit, if_pos (by omega), Option.bind_some, hback, Char.ofNat_toNat]

theorem unescape?_shortEscape? {c letter : Char} (h : shortEscape? c = some letter) :
    letter ≠ 'u' ∧ unescape? letter = some c := by
  unfold shortEscape? at h
  repeat' split at h
  all_goals simp only [Option.some_inj, reduceCtorEq] at h
  all_goals
    subst h
    subst c
    exact ⟨by decide, rfl⟩

theorem lexFrom?_char (e : Escape) (seen : List Char) (c : Char) (rest : List Char) :
    lexFrom? (.quoted seen) (e.char c ++ rest) = lexFrom? (.quoted (c :: seen)) rest := by
  unfold Escape.char
  cases hs : shortEscape? c with
  | some letter =>
    obtain ⟨hu, hback⟩ := unescape?_shortEscape? hs
    have hstep : (Mode.escaped seen).step letter = some (.quoted (c :: seen), []) := by
      rw [Mode.step, if_neg hu, hback]
      rfl
    show lexFrom? _ ('\\' :: letter :: rest) = _
    rw [lexFrom?_silent rfl, lexFrom?_silent hstep]
  | none =>
    dsimp only
    split
    · rename_i hk
      have hquote : c ≠ '"' := fun h => by rw [h] at hs; exact absurd hs (by decide)
      have hslash : c ≠ '\\' := fun h => by rw [h] at hs; exact absurd hs (by decide)
      have hctrl : ¬ c.toNat < 0x20 := by
        cases e <;> simp only [Escape.keeps, Bool.and_eq_true, decide_eq_true_eq] at hk <;> omega
      have hstep : (Mode.quoted seen).step c = some (.quoted (c :: seen), []) := by
        rw [Mode.step, if_neg hquote, if_neg hslash, if_neg hctrl]
      exact lexFrom?_silent hstep rest
    · exact lexFrom?_units16 seen c rest

theorem lexFrom?_chars (e : Escape) (cs seen rest : List Char) :
    lexFrom? (.quoted seen) (cs.flatMap e.char ++ rest) =
      lexFrom? (.quoted (cs.reverse ++ seen)) rest := by
  induction cs generalizing seen with
  | nil => rfl
  | cons c cs ih =>
    rw [List.flatMap_cons, List.append_assoc, lexFrom?_char, ih, List.reverse_cons, List.append_assoc]
    rfl

theorem lexFrom?_quote (e : Escape) (s : String) (rest : List Char) :
    lexFrom? .between (e.quote s ++ rest) = (lexFrom? .between rest).map (.text s :: ·) := by
  have hend : (Mode.quoted s.toList.reverse).step '"' = some (.between, [.text s]) := by
    rw [Mode.step, if_pos rfl, List.reverse_reverse, String.ofList_toList]
  rw [Escape.quote_eq, List.cons_append, lexFrom?_silent rfl, List.append_assoc, lexFrom?_chars,
    List.append_nil]
  show lexFrom? _ ('"' :: rest) = _
  rw [lexFrom?, hend]
  rfl

end Token

/-! ## values -/

/-- the gaps are blanks and line breaks -/
structure Style.Blank (s : Style) : Prop where
  opened : ∀ d, ∀ c ∈ s.opened d, isGap c = true
  between : ∀ d, ∀ c ∈ s.between d, isGap c = true
  closing : ∀ d, ∀ c ∈ s.closing d, isGap c = true
  valued : ∀ c ∈ s.valued, isGap c = true

theorem Style.blank_wire : Style.wire.Blank := ⟨nofun, by simp [wire, isGap], nofun, by simp [wire, isGap]⟩

theorem Style.blank_compact : Style.compact.Blank := ⟨nofun, nofun, nofun, nofun⟩

theorem Style.isGap_of_mem_newline {depth : Nat} {c : Char} (h : c ∈ newline depth) :
    isGap c = true := by
  rcases List.mem_cons.mp h with rfl | h
  · rfl
  · rw [List.eq_of_mem_replicate h]
    rfl

theorem Style.blank_pretty : Style.pretty.Blank :=
  ⟨fun _ _ => isGap_of_mem_newline, fun _ _ => isGap_of_mem_newline,
    fun _ _ => isGap_of_mem_newline, by simp [pretty, isGap]⟩

namespace Token

theorem step_of_isGap {c : Char} (h : isGap c = true) :
    Mode.between.step c = some (.between, []) := by
  rw [Mode.step, Mode.start, if_pos h]

theorem lexFrom?_gap {cs : List Char} (h : ∀ c ∈ cs, isGap c = true) (rest : List Char) :
    lexFrom? .between (cs ++ rest) = lexFrom? .between rest := by
  induction cs with
  | nil => rfl
  | cons c cs ih =>
    rw [List.cons_append, lexFrom?_silent (step_of_isGap (h c List.mem_cons_self))]
    exact ih fun d hd => h d (List.mem_cons_of_mem _ hd)

theorem stops_gap {cs rest : List Char} (h : ∀ c ∈ cs, isGap c = true) (hrest : Stops rest) :
    Stops (cs ++ rest) := by
  cases cs with
  | nil => exact hrest
  | cons c cs =>
    refine stops_cons ?_ _
    have hc := h c List.mem_cons_self
    simp only [isGap, Bool.or_eq_true, beq_iff_eq] at hc
    rcases hc with ((rfl | rfl) | rfl) | rfl <;> decide

theorem stops_renderItems (s : Style) (depth : Nat) (xs : List Json) {rest : List Char} (h : Stops rest) :
    Stops (renderItems s depth xs ++ rest) := by
  cases xs with
  | nil => exact h
  | cons x xs => exact stops_cons (by decide) _

theorem stops_renderFields (s : Style) (depth : Nat) (fs : List (String × Json)) {rest : List Char}
    (h : Stops rest) : Stops (renderFields s depth fs ++ rest) := by
  cases fs with
  | nil => exact h
  | cons f fs =>
    obtain ⟨k, v⟩ := f
    exact stops_cons (by decide) _

section
variable {s : Style} (hs : s.Blank)
include hs

theorem stops_closing (depth : Nat) {c : Char} (hc : isNumeralChar c = false ∧ c.isAlpha = false)
    (rest : List Char) : Stops (s.closing depth ++ c :: rest) :=
  stops_gap (hs.closing depth) (stops_cons hc rest)

theorem lexFrom?_renderItems {xs : List Json} (depth : Nat)
    (ih : ∀ x ∈ xs, ∀ rest, Stops rest → lexFrom? .between (render s depth x ++ rest) =
      (lexFrom? .between rest).map (tokens x ++ ·)) {rest : List Char} (hrest : Stops rest) :
    lexFrom? .between (renderItems s depth xs ++ rest) =
      (lexFrom? .between rest).map (itemTokens xs ++ ·) := by
  induction xs with
  | nil => exact Option.map_id'.symm
  | cons x xs ihxs =>
    have hxs := ihxs fun y hy => ih y (List.mem_cons_of_mem _ hy)
    have hx := ih x List.mem_cons_self _ (stops_renderItems s depth xs hrest)
    simp only [renderItems, itemTokens, List.cons_append, List.append_assoc]
    rw [lexFrom?_mark rfl, lexFrom?_gap (hs.between depth), hx, hxs]
    simp [Function.comp_def]

theorem lexFrom?_renderFields {fs : List (String × Json)} (depth : Nat)
    (ih : ∀ f ∈ fs, ∀ rest, Stops rest → lexFrom? .between (render s depth f.2 ++ rest) =
      (lexFrom? .between rest).map (tokens f.2 ++ ·)) {rest : List Char} (hrest : Stops rest) :
    lexFrom? .between (renderFields s depth fs ++ rest) =
      (lexFrom? .between rest).map (fieldTokens fs ++ ·) := by
  induction fs with
  | nil => exact Option.map_id'.symm
  | cons f fs ihfs =>
    obtain ⟨k, v⟩ := f
    have hfs := ihfs fun g hg => ih g (List.mem_cons_of_mem _ hg)
    have hv := ih (k, v) List.mem_cons_self _ (stops_renderFields s depth fs hrest)
    simp only [renderFields, fieldTokens, List.cons_append, List.append_assoc]
    rw [lexFrom?_mark rfl, lexFrom?_gap (hs.between depth), lexFrom?_quote, lexFrom?_mark rfl,
      lexFrom?_gap hs.valued, hv, hfs]
    simp [Function.comp_def]

theorem lexFrom?_render (v : Json) : ∀ (depth : Nat) (rest : List Char), Stops rest →
    lexFrom? .between (render s depth v ++ rest) = (lexFrom? .between rest).map (tokens v ++ ·) := by
  induction v using Json.induct with
  | null =>
    intro depth rest hrest
    exact lexFrom?_word (c := 'n') (t := .null) rfl rfl rfl hrest
  | bool b =>
    intro depth rest hrest
    cases b with
    | true => exact lexFrom?_word (c := 't') (t := .bool true) rfl rfl rfl hrest
    | false => exact lexFrom?_word (c := 'f') (t := .bool false) rfl rfl rfl hrest
  | number n =>
    intro depth rest hrest
    exact lexFrom?_number s n hrest
  | string t =>
    intro depth rest _
    exact lexFrom?_quote s.escape t rest
  | array xs ih =>
    intro depth rest _
    cases xs with
    | nil =>
      show lexFrom? _ ('[' :: ']' :: rest) = _
      rw [lexFrom?_mark rfl, lexFrom?_mark rfl]
      simp [tokens, Function.comp_def]
    | cons x xs =>
      have hclose := stops_closing hs depth (c := ']') (by decide) rest
      have hx := ih x List.mem_cons_self (depth + 1) _ (stops_renderItems s (depth + 1) xs hclose)
      have hxs := lexFrom?_renderItems hs (depth + 1)
        (fun y hy => ih y (List.mem_cons_of_mem _ hy) (depth + 1)) hclose
      simp only [render, tokens, List.cons_append, List.append_assoc, List.nil_append]
      rw [lexFrom?_mark rfl, lexFrom?_gap (hs.opened _), hx, hxs, lexFrom?_gap (hs.closing _),
        lexFrom?_mark rfl]
      simp [Function.comp_def]
  | object fs ih =>
    intro depth rest _
    cases fs with
    | nil =>
      show lexFrom? _ ('\x7b' :: '\x7d' :: rest) = _
      rw [lexFrom?_mark rfl, lexFrom?_mark rfl]
      simp [tokens, Function.comp_def]
    | cons f fs =>
      obtain ⟨k, v⟩ := f
      have hclose := stops_closing hs depth (c := '\x7d') (by decide) rest
      have hv := ih (k, v) List.mem_cons_self (depth + 1) _ (stops_renderFields s (depth + 1) fs hclose)
      have hfs := lexFrom?_renderFields hs (depth + 1)
        (fun g hg => ih g (List.mem_cons_of_mem _ hg) (depth + 1)) hclose
      simp only [render, tokens, List.cons_append, List.append_assoc, List.nil_append]
      rw [lexFrom?_mark rfl, lexFrom?_gap (hs.opened _), lexFrom?_quote, lexFrom?_mark rfl,
        lexFrom?_gap hs.valued, hv, hfs, lexFrom?_gap (hs.closing _), lexFrom?_mark rfl]
      simp [Function.comp_def]

/-- **The text of a value is cut into the tokens of the value.** -/
theorem lex?_render (v : Json) : lex? (render s 0 v) = some (tokens v) := by
  have h := lexFrom?_render hs v 0 [] stops_nil
  rw [List.append_nil] at h
  rw [lex?, h, lexFrom?]
  simp [Mode.finish]

end

end Token

end Workflow.Json
