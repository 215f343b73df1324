import Workflow.Proofs.Document.Shrinking

/-!
# The normal form of a document

A document is in normal form if nothing in it is deferred and no set in it has two equal items.
Expansion leads to this form: items that become equal at some depth are left out there, before the
containers around them are compared. Documents in this form are the fixed points of expansion, so a
second expansion changes nothing.

* `Document.Contains`             one document stands in another at some depth;
* `Document.Normal`               the normal form;
* `Document.normal_sequence_iff`, `Document.normal_object_iff`   the normal form of a container;
* `Document.expand_eq_self_iff`   expansion keeps exactly the documents in normal form;
* `Document.normal_expand`        an expanded document is in normal form.
-/

namespace Workflow

namespace Document

/-! ## a set made distinct -/

theorem distinctAfter_apart (seen xs : List Document) :
    (∀ x ∈ distinctAfter seen xs, ∀ y ∈ seen, y.same x = false) ∧
      (distinctAfter seen xs).Pairwise fun x y => x.same y = false := by
  induction xs generalizing seen with
  | nil => exact ⟨nofun, List.Pairwise.nil⟩
  | cons x xs ih =>
    rw [distinctAfter]
    by_cases hx : (seen.any fun y => y.same x) = true
    · rw [if_pos hx]
      exact ih seen
    · rw [if_neg hx]
      obtain ⟨hafter, hpairs⟩ := ih (x :: seen)
      have hseen : ∀ y ∈ seen, y.same x = false := by
        simpa using hx
      refine ⟨?_, List.pairwise_cons.mpr ⟨fun y hy => hafter y hy x List.mem_cons_self, hpairs⟩⟩
      intro z hz y hy
      rcases List.mem_cons.mp hz with rfl | hz
      · exact hseen y hy
      · exact hafter z hz y (List.mem_cons_of_mem x hy)

/-- no two items of a set that was made distinct are equal -/
theorem pairwise_distinct (xs : List Document) :
    (distinct xs).Pairwise fun x y => x.same y = false :=
  (distinctAfter_apart [] xs).2

end Document

theorem SequenceKind.keep_keep (k : SequenceKind) (xs : List Document) :
    k.keep (k.keep xs) = k.keep xs := by
  rw [keep_eq_self_iff]
  rintro rfl
  exact Document.pairwise_distinct xs

namespace Document

/-! ## the normal form -/

/-- the document, or what stands in it at some depth -/
inductive Contains : Document → Document → Prop where
  | here {d : Document} : Contains d d
  | item {k : SequenceKind} {xs : List Document} {x e : Document} (hx : x ∈ xs)
      (h : Contains x e) : Contains (sequence k xs) e
  | field {fs : List (String × Document)} {f : String × Document} {e : Document} (hf : f ∈ fs)
      (h : Contains f.2 e) : Contains (object fs) e

theorem hasSet_iff_contains {d : Document} {xs : List Document} :
    d.HasSet xs ↔ d.Contains (sequence .set xs) := by
  constructor
  · intro h
    induction h with
    | here => exact .here
    | item hx _ ih => exact .item hx ih
    | field hf _ ih => exact .field hf ih
  · intro h
    generalize hs : sequence .set xs = s at h
    induction h with
    | here => exact hs ▸ .here
    | item hx _ ih => exact .item hx (ih hs)
    | field hf _ ih => exact .field hf (ih hs)

theorem isPlain_iff {d : Document} : d.isPlain = true ↔ ∀ t, ¬ d.Contains (deferred t) := by
  induction d using induct with
  | sequence k xs ih =>
    rw [isPlain_sequence_iff]
    constructor
    · rintro h t (_ | ⟨hx, ht⟩)
      exact (ih _ hx).mp (h _ hx) t ht
    · intro h x hx
      exact (ih x hx).mpr fun t ht => h t (.item hx ht)
  | object fs ih =>
    rw [isPlain_object_iff]
    constructor
    · rintro h t (_ | _ | ⟨hf, ht⟩)
      exact (ih _ hf).mp (h _ hf) t ht
    · intro h f hf
      exact (ih f hf).mpr fun t ht => h t (.field hf ht)
  | deferred t => exact ⟨nofun, fun h => absurd .here (h t)⟩
  | _ => exact ⟨fun _ _ => nofun, fun _ => rfl⟩

/-- nothing is deferred and no set has two equal items -/
structure Normal (d : Document) : Prop where
  plain : d.isPlain = true
  distinct : ∀ xs, d.HasSet xs → xs.Pairwise fun x y => x.same y = false

theorem normal_sequence_iff {k : SequenceKind} {xs : List Document} :
    (sequence k xs).Normal ↔ k.keep xs = xs ∧ ∀ x ∈ xs, x.Normal := by
  rw [SequenceKind.keep_eq_self_iff]
  constructor
  · rintro ⟨hplain, hsets⟩
    obtain ⟨hk, hxs⟩ := forall_hasSet_sequence.mp hsets
    exact ⟨hk, fun x hx => ⟨isPlain_sequence_iff.mp hplain x hx, hxs x hx⟩⟩
  · rintro ⟨hk, hxs⟩
    exact ⟨isPlain_sequence_iff.mpr fun x hx => (hxs x hx).plain,
      forall_hasSet_sequence.mpr ⟨hk, fun x hx => (hxs x hx).distinct⟩⟩

theorem normal_object_iff {fs : List (String × Document)} :
    (object fs).Normal ↔ ∀ f ∈ fs, f.2.Normal := by
  constructor
  · rintro ⟨hplain, hsets⟩ f hf
    exact ⟨isPlain_object_iff.mp hplain f hf, forall_hasSet_object.mp hsets f hf⟩
  · intro h
    exact ⟨isPlain_object_iff.mpr fun f hf => (h f hf).plain,
      forall_hasSet_object.mpr fun f hf => (h f hf).distinct⟩

/-! ## fixed points -/

theorem map_eq_self_iff {α : Type} {f : α → α} {xs : List α} :
    xs.map f = xs ↔ ∀ x ∈ xs, f x = x := by
  conv_lhs => rw [← List.map_id xs, List.map_map]
  exact List.map_inj_left

/-- a sequence is kept if its items are, and none of them is left out -/
theorem keep_map_eq_self_iff {k : SequenceKind} {xs : List Document} {f : Document → Document} :
    k.keep (xs.map f) = xs ↔ k.keep xs = xs ∧ ∀ x ∈ xs, f x = x := by
  rw [← map_eq_self_iff]
  constructor
  · intro h
    -- as many items are left as there were, so none is left out
    have hlength : (k.keep (xs.map f)).length = (xs.map f).length := by
      rw [h, List.length_map]
    have hall : k.keep (xs.map f) = xs.map f := (k.keep_sublist _).eq_of_length hlength
    have hmap : xs.map f = xs := hall.symm.trans h
    rw [hmap] at h
    exact ⟨h, hmap⟩
  · rintro ⟨hk, hmap⟩
    rw [hmap, hk]

/-- **Expansion keeps exactly the documents in normal form.** -/
theorem expand_eq_self_iff {d : Document} : d.expand = d ↔ d.Normal := by
  induction d using induct with
  | sequence k xs ih =>
    rw [expand_sequence, normal_sequence_iff, sequence.injEq, keep_map_eq_self_iff]
    constructor
    · rintro ⟨-, hk, hxs⟩
      exact ⟨hk, fun x hx => (ih x hx).mp (hxs x hx)⟩
    · rintro ⟨hk, hxs⟩
      exact ⟨rfl, hk, fun x hx => (ih x hx).mpr (hxs x hx)⟩
  | object fs ih =>
    rw [expand_object, normal_object_iff, object.injEq, map_eq_self_iff]
    constructor
    · intro h f hf
      exact (ih f hf).mp (congrArg Prod.snd (h f hf))
    · intro h f hf
      rw [(ih f hf).mpr (h f hf)]
  | deferred t =>
    constructor
    · intro h
      have hplain := isPlain_expand (deferred t)
      rw [h] at hplain
      cases hplain
    · intro h
      cases h.plain
  | _ => exact ⟨fun _ => ⟨rfl, nofun⟩, fun _ => rfl⟩

theorem normal_ofJson (v : Json) : (ofJson v).Normal :=
  expand_eq_self_iff.mp (ofJson_eq_expand v)

/-- **An expanded document is in normal form.** -/
theorem normal_expand (d : Document) : d.expand.Normal := by
  induction d using induct with
  | sequence k xs ih =>
    rw [expand_sequence, normal_sequence_iff]
    refine ⟨k.keep_keep _, ?_⟩
    intro y hy
    obtain ⟨x, hx, rfl⟩ := List.mem_map.mp ((k.keep_sublist _).subset hy)
    exact ih x hx
  | object fs ih =>
    rw [expand_object, normal_object_iff]
    intro g hg
    obtain ⟨f, hf, rfl⟩ := List.mem_map.mp hg
    exact ih f hf
  | deferred t => exact normal_ofJson t.toJson
  | _ => exact ⟨rfl, nofun⟩

theorem expand_expand (d : Document) : d.expand.expand = d.expand :=
  expand_eq_self_iff.mpr (normal_expand d)

/-- a document in normal form has nothing more to lose -/
theorem Normal.keeps {d : Document} (h : d.Normal) : d.Keeps := by
  rw [← toJson_expand_iff, expand_eq_self_iff.mpr h]

/-- **Expansion reaches a normal form**: nothing deferred is left at any depth, no two items of a
set are equal, and what is kept by expansion is exactly what has both properties; so a second
expansion changes nothing. -/
theorem expand_reaches_normal_form (d : Document) :
    (∀ t, ¬ d.expand.Contains (deferred t)) ∧
      (∀ xs, d.expand.Contains (sequence .set xs) → xs.Pairwise fun x y => x.same y = false) ∧
      (d.expand = d ↔ d.isPlain = true ∧
        ∀ xs, d.Contains (sequence .set xs) → xs.Pairwise fun x y => x.same y = false) ∧
      d.expand.expand = d.expand := by
  have normal := normal_expand d
  refine ⟨isPlain_iff.mp normal.plain, ?_, ?_, expand_expand d⟩
  · intro xs hxs
    exact normal.distinct xs (hasSet_iff_contains.mpr hxs)
  · rw [expand_eq_self_iff]
    constructor
    · rintro ⟨hplain, hsets⟩
      exact ⟨hplain, fun xs hxs => hsets xs (hasSet_iff_contains.mpr hxs)⟩
    · rintro ⟨hplain, hsets⟩
      exact ⟨hplain, fun xs hxs => hsets xs (hasSet_iff_contains.mp hxs)⟩

/-- sets with equal items in them, the inner ones equal only after expansion -/
example : (sequence .set [sequence .set [string "x", string "x"],
    sequence .set [string "x"]]).expand = set [set [string "x"]] := rfl

end Document

end Workflow
