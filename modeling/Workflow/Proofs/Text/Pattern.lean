/-!
# Patterns

A pattern says what a text looks like from its first to its last character. What its groups stand
for is found by trying: at each choice one way after the other is followed, a repetition first as
far as it goes, until one takes the whole text. The ways that are tried are all that there are, so a
text is taken exactly if it matches, and if it matches in one manner only, the order in which the
ways are tried makes no difference.

* `Pattern`                      characters, repetitions, sequences, alternatives and groups;
* `Pattern.Matches`              the texts a pattern describes, with what its groups stand for;
* `Pattern.ways`                 the ways to take the beginning of a text, as they are tried;
* `Pattern.mem_ways_iff`         they are the matches of the beginnings;
* `Pattern.captures?`            the groups of the first way that takes the whole text;
* `Pattern.captures?_eq`          they are those of the only match, if there is one.
-/

namespace Workflow.Text

inductive Pattern where
  | empty
  | char (accepts : Char → Bool)
  /-- any number of characters, as many as possible first -/
  | many (accepts : Char → Bool)
  | seq (p q : Pattern)
  | alt (p q : Pattern)
  | group (p : Pattern)

/-- a beginning of a text that is taken, what the groups stand for, and what is left of the text -/
structure Way where
  taken : List Char
  groups : List (List Char)
  rest : List Char

/-- one way after another that it leads to -/
def Way.andThen (w v : Way) : Way := ⟨w.taken ++ v.taken, w.groups ++ v.groups, v.rest⟩

namespace Pattern

/-- the text is one that the pattern describes, and these are the parts of it for its groups -/
def Matches : Pattern → List Char → List (List Char) → Prop
  | empty, cs, gs => cs = [] ∧ gs = []
  | char accepts, cs, gs => (∃ c, accepts c = true ∧ cs = [c]) ∧ gs = []
  | many accepts, cs, gs => (∀ c ∈ cs, accepts c = true) ∧ gs = []
  | seq p q, cs, gs =>
    ∃ as gs₁ bs gs₂, Matches p as gs₁ ∧ Matches q bs gs₂ ∧ cs = as ++ bs ∧ gs = gs₁ ++ gs₂
  | alt p q, cs, gs => Matches p cs gs ∨ Matches q cs gs
  | group p, cs, gs => ∃ inner, Matches p cs inner ∧ gs = cs :: inner

/-- the longest beginning of accepted characters, and then the shorter ones -/
def manyWays (accepts : Char → Bool) : List Char → List Way
  | [] => [⟨[], [], []⟩]
  | c :: cs =>
    if accepts c then
      ((manyWays accepts cs).map fun w => ⟨c :: w.taken, w.groups, w.rest⟩) ++ [⟨[], [], c :: cs⟩]
    else [⟨[], [], c :: cs⟩]

/-- the ways to take a beginning of the text, in the order in which they are tried -/
def ways : Pattern → List Char → List Way
  | empty, cs => [⟨[], [], cs⟩]
  | char _, [] => []
  | char accepts, c :: cs => if accepts c then [⟨[c], [], cs⟩] else []
  | many accepts, cs => manyWays accepts cs
  | seq p q, cs => (ways p cs).flatMap fun w => (ways q w.rest).map w.andThen
  | alt p q, cs => ways p cs ++ ways q cs
  | group p, cs => (ways p cs).map fun w => ⟨w.taken, w.taken :: w.groups, w.rest⟩

/-- what the groups stand for if the whole text is taken -/
def captures? (p : Pattern) (cs : List Char) : Option (List (List Char)) :=
  ((p.ways cs).find? fun w => w.rest.isEmpty).map Way.groups

/-! ## patterns of several parts -/

/-- the parts in order -/
def sequence (ps : List Pattern) : Pattern := ps.foldr seq empty

/-- just that text -/
def word (s : List Char) : Pattern := sequence (s.map fun c => char fun d => d == c)

theorem matches_word_iff {s cs : List Char} {gs : List (List Char)} :
    (word s).Matches cs gs ↔ cs = s ∧ gs = [] := by
  induction s generalizing cs gs with
  | nil => exact Iff.rfl
  | cons c s ih =>
    show (∃ as gs₁ bs gs₂, ((∃ d, (d == c) = true ∧ as = [d]) ∧ gs₁ = []) ∧
      (word s).Matches bs gs₂ ∧ cs = as ++ bs ∧ gs = gs₁ ++ gs₂) ↔ _
    constructor
    · rintro ⟨_, _, bs, gs₂, ⟨⟨d, hd, rfl⟩, rfl⟩, hrest, rfl, rfl⟩
      obtain ⟨rfl, rfl⟩ := ih.mp hrest
      rw [eq_of_beq hd]
      exact ⟨rfl, rfl⟩
    · rintro ⟨rfl, rfl⟩
      exact ⟨[c], [], s, [], ⟨⟨c, beq_self_eq_true c, rfl⟩, rfl⟩, ih.mpr ⟨rfl, rfl⟩, rfl, rfl⟩

/-- one or more characters -/
theorem matches_char_many_iff {accepts : Char → Bool} {cs : List Char} {gs : List (List Char)} :
    (seq (char accepts) (many accepts)).Matches cs gs ↔
      cs ≠ [] ∧ (∀ c ∈ cs, accepts c = true) ∧ gs = [] := by
  constructor
  · rintro ⟨_, _, bs, _, ⟨⟨c, hc, rfl⟩, rfl⟩, ⟨hbs, rfl⟩, rfl, rfl⟩
    exact ⟨List.cons_ne_nil c bs, List.forall_mem_cons.mpr ⟨hc, hbs⟩, rfl⟩
  · rintro ⟨hne, hcs, rfl⟩
    cases cs with
    | nil => exact absurd rfl hne
    | cons c bs =>
      obtain ⟨hc, hbs⟩ := List.forall_mem_cons.mp hcs
      exact ⟨[c], [], bs, [], ⟨⟨c, hc, rfl⟩, rfl⟩, ⟨hbs, rfl⟩, rfl, rfl⟩

/-! ## all ways are tried -/

theorem mem_manyWays_iff {accepts : Char → Bool} {cs : List Char} {w : Way} :
    w ∈ manyWays accepts cs ↔
      ((∀ c ∈ w.taken, accepts c = true) ∧ w.groups = []) ∧ cs = w.taken ++ w.rest := by
  obtain ⟨taken, groups, rest⟩ := w
  induction cs generalizing taken with
  | nil =>
    constructor
    · intro h
      obtain ⟨rfl, rfl, rfl⟩ := Way.mk.inj (List.mem_singleton.mp h)
      exact ⟨⟨nofun, rfl⟩, rfl⟩
    · rintro ⟨⟨-, rfl⟩, h⟩
      obtain ⟨rfl, rfl⟩ := List.append_eq_nil_iff.mp h.symm
      exact List.mem_singleton.mpr rfl
  | cons c cs ih =>
    rw [manyWays]
    by_cases hc : accepts c = true
    · rw [if_pos hc, List.mem_append, List.mem_map, List.mem_singleton]
      constructor
      · rintro (⟨⟨more, _, _⟩, hv, e⟩ | e)
        · obtain ⟨rfl, rfl, rfl⟩ := Way.mk.inj e
          obtain ⟨⟨hmore, hgroups⟩, hcs⟩ := (ih more).mp hv
          exact ⟨⟨List.forall_mem_cons.mpr ⟨hc, hmore⟩, hgroups⟩, congrArg (c :: ·) hcs⟩
        · obtain ⟨rfl, rfl, rfl⟩ := Way.mk.inj e
          exact ⟨⟨nofun, rfl⟩, rfl⟩
      · rintro ⟨⟨htaken, rfl⟩, hcs⟩
        cases taken with
        | nil => exact .inr (congrArg (Way.mk [] []) hcs.symm)
        | cons d more =>
          obtain ⟨rfl, hcs⟩ := List.cons.inj hcs
          obtain ⟨-, hmore⟩ := List.forall_mem_cons.mp htaken
          exact .inl ⟨⟨more, [], rest⟩, (ih more).mpr ⟨⟨hmore, rfl⟩, hcs⟩, rfl⟩
    · rw [if_neg hc, List.mem_singleton]
      constructor
      · intro e
        obtain ⟨rfl, rfl, rfl⟩ := Way.mk.inj e
        exact ⟨⟨nofun, rfl⟩, rfl⟩
      · rintro ⟨⟨htaken, rfl⟩, hcs⟩
        cases taken with
        | nil => exact congrArg (Way.mk [] []) hcs.symm
        | cons d more =>
          obtain ⟨rfl, -⟩ := List.cons.inj hcs
          exact absurd (htaken c List.mem_cons_self) hc

/-- **The ways that are tried are the matches of the beginnings of a text.** -/
theorem mem_ways_iff {p : Pattern} {cs : List Char} {w : Way} :
    w ∈ p.ways cs ↔ p.Matches w.taken w.groups ∧ cs = w.taken ++ w.rest := by
  obtain ⟨taken, groups, rest⟩ := w
  induction p generalizing cs taken groups rest with
  | empty =>
    constructor
    · intro h
      obtain ⟨rfl, rfl, rfl⟩ := Way.mk.inj (List.mem_singleton.mp h)
      exact ⟨⟨rfl, rfl⟩, rfl⟩
    · rintro ⟨⟨rfl, rfl⟩, rfl⟩
      exact List.mem_singleton.mpr rfl
  | char accepts =>
    constructor
    · intro h
      cases cs with
      | nil => cases h
      | cons c cs =>
        rw [ways] at h
        by_cases hc : accepts c = true
        · rw [if_pos hc] at h
          obtain ⟨rfl, rfl, rfl⟩ := Way.mk.inj (List.mem_singleton.mp h)
          exact ⟨⟨⟨c, hc, rfl⟩, rfl⟩, rfl⟩
        · rw [if_neg hc] at h
          cases h
    · rintro ⟨⟨⟨c, hc, rfl⟩, rfl⟩, rfl⟩
      rw [List.singleton_append, ways, if_pos hc]
      exact List.mem_singleton.mpr rfl
  | many accepts => exact mem_manyWays_iff
  | seq p q ihp ihq =>
    rw [ways, List.mem_flatMap]
    constructor
    · rintro ⟨v, hv, h⟩
      obtain ⟨u, hu, e⟩ := List.mem_map.mp h
      obtain ⟨rfl, rfl, rfl⟩ := Way.mk.inj e
      obtain ⟨hp, rfl⟩ := (ihp _ _ _).mp hv
      obtain ⟨hq, hrest⟩ := (ihq _ _ _).mp hu
      rw [hrest]
      exact ⟨⟨_, _, _, _, hp, hq, rfl, rfl⟩, (List.append_assoc _ _ _).symm⟩
    · rintro ⟨⟨as, gs₁, bs, gs₂, hp, hq, rfl, rfl⟩, rfl⟩
      refine ⟨⟨as, gs₁, bs ++ rest⟩, (ihp _ _ _).mpr ⟨hp, List.append_assoc _ _ _⟩, ?_⟩
      exact List.mem_map.mpr ⟨⟨bs, gs₂, rest⟩, (ihq _ _ _).mpr ⟨hq, rfl⟩, rfl⟩
  | alt p q ihp ihq =>
    rw [ways, List.mem_append, ihp, ihq, ← or_and_right]
    rfl
  | group p ih =>
    rw [ways, List.mem_map]
    constructor
    · rintro ⟨v, hv, e⟩
      obtain ⟨rfl, rfl, rfl⟩ := Way.mk.inj e
      obtain ⟨hp, hcs⟩ := (ih _ _ _).mp hv
      exact ⟨⟨_, hp, rfl⟩, hcs⟩
    · rintro ⟨⟨inner, hp, hgroups⟩, hcs⟩
      obtain rfl : groups = taken :: inner := hgroups
      exact ⟨⟨taken, inner, rest⟩, (ih _ _ _).mpr ⟨hp, hcs⟩, rfl⟩

/-- what is captured is a match of the whole text -/
theorem matches_of_captures? {p : Pattern} {cs : List Char} {gs : List (List Char)}
    (h : p.captures? cs = some gs) : p.Matches cs gs := by
  obtain ⟨w, hw, rfl⟩ := Option.map_eq_some_iff.mp h
  obtain ⟨hmatches, hcs⟩ := mem_ways_iff.mp (List.mem_of_find?_eq_some hw)
  have hrest : w.rest = [] :=
    List.isEmpty_iff.mp (List.find?_some (p := fun w : Way => w.rest.isEmpty) hw)
  rw [hrest, List.append_nil] at hcs
  rw [hcs]
  exact hmatches

/-- a text that matches is taken -/
theorem isSome_captures? {p : Pattern} {cs : List Char} {gs : List (List Char)}
    (h : p.Matches cs gs) : (p.captures? cs).isSome = true := by
  rw [captures?, Option.isSome_map, List.find?_isSome]
  exact ⟨⟨cs, gs, []⟩, mem_ways_iff.mpr ⟨h, (List.append_nil cs).symm⟩, rfl⟩

/-- **If a text matches in one manner only, its groups are captured**, in whatever order the ways are
tried; and nothing is captured if it does not match. -/
theorem captures?_eq {p : Pattern} {cs : List Char} {only? : Option (List (List Char))}
    (h : ∀ gs, p.Matches cs gs ↔ only? = some gs) : p.captures? cs = only? := by
  cases hcaptures : p.captures? cs with
  | some gs => exact ((h gs).mp (matches_of_captures? hcaptures)).symm
  | none =>
    cases honly : only? with
    | none => rfl
    | some gs =>
      have htaken := isSome_captures? ((h gs).mpr honly)
      rw [hcaptures] at htaken
      cases htaken

end Pattern

end Workflow.Text
