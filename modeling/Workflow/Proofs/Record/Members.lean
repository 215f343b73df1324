import Workflow.Proofs.Config.Building
import Workflow.Proofs.Json.Equality
import Workflow.Record.Basic

/-!
# What the reading of a record depends on

An object is looked through twice: every field in its order, and then every member by its name. Of
an object without repeated keys the second look decides alone, because a field that is found bad in
the first is a member that cannot be built in the second. So only the values of the members count,
not their order and not what else is there.

The properties of a record are put together from those of its members, in the order in which the
record is.

* `Members.Builds`             the record that is built of what is given;
* `Members.Ensures`            what holds of every record that is built;
* `Members.Checked`            what is built is built of values that are not bad;
* `Members.Respects`           values that are alike build the same record;
* `reading_object_eq_ok_iff`   an object is read as what its members build;
* `SameMembers`                objects that give alike values to the members of a record;
* `reading_sameMembers`        they are read as the same record.
-/

namespace Workflow.Record

variable {α β : Type}

/-! ## lists and values that may be absent -/

theorem items_eq_ok_iff {item : Reading α} {vs : List Json} {xs : List α} :
    items item vs = .ok xs ↔ List.Forall₂ (fun v x => item v = .ok x) vs xs := by
  apply Except.traverse_eq_ok (g := items item) rfl
  intro v vs
  rw [items]
  cases item v with
  | error e => rfl
  | ok x => cases items item vs <;> rfl

theorem list_map {item : Reading α} {form : β → Json} {g : β → α} {xs : List β}
    (h : ∀ x ∈ xs, item (form x) = .ok (g x)) :
    list item (.array (xs.map form)) = .ok (xs.map g) := by
  rw [list, items_eq_ok_iff, List.forall₂_map_left_iff, List.forall₂_map_right_iff,
    List.forall₂_same]
  exact h

theorem list_map_self {item : Reading α} {form : α → Json} {xs : List α}
    (h : ∀ x ∈ xs, item (form x) = .ok x) : list item (.array (xs.map form)) = .ok xs := by
  rw [list_map (g := id) h, List.map_id]

/-- data whose objects are maps is read as it is -/
theorem json_coe (v : Json.Keyed) : json v = .ok v := by
  rw [json, Json.keyed_coe]

theorem map_object_coe (fs : Json.KeyedFields) : map (.object fs) = .ok fs := by
  rw [map, Json.keyedFields_coe]

theorem optional_eq_ok_iff {some? : Reading α} {v : Json} {x? : Option α} :
    optional some? v = .ok x? ↔
      (v = .null ∧ x? = none) ∨ (v ≠ .null ∧ ∃ x, some? v = .ok x ∧ x? = some x) := by
  cases v with
  | null => simp [optional, eq_comm]
  | _ =>
    simp only [optional]
    split
    · rename_i x hx
      simp [hx, eq_comm]
    · rename_i hx
      simp [hx]

namespace Members

/-! ## building -/

/-- the record `x` is built of what is given -/
def Builds (m : Members α) (given : Given) (x : α) : Prop := m.build given = .ok x

/-- every record that is built is as `P` says -/
def Ensures (m : Members α) (P : α → Prop) : Prop := ∀ given x, m.Builds given x → P x

/-- what is built is built of values that are not bad -/
def Checked (m : Members α) : Prop :=
  ∀ given x, m.Builds given x → ∀ c ∈ m.checks, ∀ v ∈ given.value? c.1, c.2 v = .ok ()

/-- values that are alike, each as its member asks, build the same record -/
def Respects (Alike : String → Json → Json → Prop) (m : Members α) : Prop :=
  ∀ given given', (∀ name ∈ Fields.keys m.checks,
    Option.Rel (Alike name) (given.value? name) (given'.value? name)) →
      ∀ x, m.Builds given x → m.Builds given' x

theorem builds_seq_iff {f : Members (α → β)} {m : Members α} {given : Given} {y : β} :
    (f <*> m).Builds given y ↔ ∃ g x, f.Builds given g ∧ m.Builds given x ∧ g x = y := by
  simp only [Builds, Seq.seq, Members.seq]
  cases f.build given with
  | error e => simp
  | ok g => cases m.build given <;> simp

theorem builds_required_iff {name : String} {reading : Reading α} {given : Given} {x : α} :
    (required name reading).Builds given x ↔ ∃ v ∈ given.value? name, reading v = .ok x := by
  simp only [Builds, required]
  cases given.value? name <;> simp

theorem builds_fallback_iff {name : String} {reading : Reading α} {value : α} {given : Given}
    {x : α} : (fallback name reading value).Builds given x ↔
      (given.value? name = none ∧ x = value) ∨ ∃ v ∈ given.value? name, reading v = .ok x := by
  simp only [Builds, fallback]
  cases given.value? name <;> simp [eq_comm]

theorem checkOf_eq_ok {reading : Reading α} {v : Json} {x : α} (h : reading v = .ok x) :
    checkOf reading v = .ok () := by
  rw [checkOf, h]

namespace Builds

variable {given : Given} {name : String}

theorem pure {x : α} : (Members.pure x).Builds given x := rfl

theorem seq {f : Members (α → β)} {m : Members α} {g : α → β} {x : α} (hf : f.Builds given g)
    (hm : m.Builds given x) : (f <*> m).Builds given (g x) :=
  builds_seq_iff.mpr ⟨g, x, hf, hm, rfl⟩

theorem required {reading : Reading α} {v : Json} {x : α} (hv : given.value? name = some v)
    (h : reading v = .ok x) : (required name reading).Builds given x :=
  builds_required_iff.mpr ⟨v, hv, h⟩

theorem fallback {reading : Reading α} {value : α} {v : Json} {x : α}
    (hv : given.value? name = some v) (h : reading v = .ok x) :
    (fallback name reading value).Builds given x :=
  builds_fallback_iff.mpr (.inr ⟨v, hv, h⟩)

end Builds

namespace Ensures

variable {P : β → Prop} {Q : α → Prop}

theorem pure {x : α} (h : Q x) : (Members.pure x).Ensures Q := by
  intro given y hy
  exact Except.ok.inj hy ▸ h

theorem seq {f : Members (α → β)} {m : Members α}
    (hf : f.Ensures fun g => ∀ x, Q x → P (g x)) (hm : m.Ensures Q) : (f <*> m).Ensures P := by
  intro given y hy
  obtain ⟨g, x, hg, hx, rfl⟩ := builds_seq_iff.mp hy
  exact hf given g hg x (hm given x hx)

theorem any {m : Members α} : m.Ensures fun _ => True := fun _ _ _ => trivial

end Ensures

namespace Checked

variable {name : String} {reading : Reading α}

theorem pure {x : α} : (Members.pure x).Checked := fun _ _ _ _ hc => absurd hc List.not_mem_nil

theorem seq {f : Members (α → β)} {m : Members α} (hf : f.Checked) (hm : m.Checked) :
    (f <*> m).Checked := by
  intro given y hy c hc
  obtain ⟨g, x, hg, hx, -⟩ := builds_seq_iff.mp hy
  rcases List.mem_append.mp hc with hc | hc
  · exact hf given g hg c hc
  · exact hm given x hx c hc

theorem required : (required name reading).Checked := by
  intro given x hx c hc w hw
  obtain rfl := List.mem_singleton.mp hc
  obtain ⟨v, hv, hread⟩ := builds_required_iff.mp hx
  obtain rfl := Option.some_inj.mp (hv.symm.trans hw)
  exact checkOf_eq_ok hread

theorem fallback {value : α} : (fallback name reading value).Checked := by
  intro given x hx c hc w hw
  obtain rfl := List.mem_singleton.mp hc
  rcases builds_fallback_iff.mp hx with ⟨hnone, -⟩ | ⟨v, hv, hread⟩
  · cases hnone.symm.trans hw
  · obtain rfl := Option.some_inj.mp (hv.symm.trans hw)
    exact checkOf_eq_ok hread

end Checked

namespace Respects

variable {Alike : String → Json → Json → Prop} {name : String} {reading : Reading α}

theorem pure {x : α} : Respects Alike (Members.pure x) := fun _ _ _ _ h => h

theorem seq {f : Members (α → β)} {m : Members α} (hf : Respects Alike f)
    (hm : Respects Alike m) : Respects Alike (f <*> m) := by
  intro given given' alike y hy
  have hkeys : Fields.keys (f <*> m).checks = Fields.keys f.checks ++ Fields.keys m.checks :=
    List.map_append
  obtain ⟨g, x, hg, hx, rfl⟩ := builds_seq_iff.mp hy
  rw [hkeys, List.forall_mem_append] at alike
  exact .seq (hf given given' alike.1 g hg) (hm given given' alike.2 x hx)

theorem required (h : ∀ v w x, Alike name v w → reading v = .ok x → reading w = .ok x) :
    Respects Alike (required name reading) := by
  intro given given' alike x hx
  obtain ⟨v, hv, hread⟩ := builds_required_iff.mp hx
  obtain ⟨w, hw, hvw⟩ := exists_mem_of_rel (alike name List.mem_cons_self) hv
  exact .required hw (h v w x hvw hread)

theorem fallback {value : α}
    (h : ∀ v w x, Alike name v w → reading v = .ok x → reading w = .ok x) :
    Respects Alike (fallback name reading value) := by
  intro given given' alike x hx
  have hname := alike name List.mem_cons_self
  rcases builds_fallback_iff.mp hx with ⟨hnone, hx⟩ | ⟨v, hv, hread⟩
  · rw [hnone] at hname
    cases hnone' : given'.value? name with
    | none => exact builds_fallback_iff.mpr (.inl ⟨hnone', hx⟩)
    | some w =>
      rw [hnone'] at hname
      cases hname
  · obtain ⟨w, hw, hvw⟩ := exists_mem_of_rel hname hv
    exact .fallback hw (h v w x hvw hread)

theorem required_of_eq (h : Alike name = Eq) : Respects Alike (Members.required name reading) := by
  refine .required ?_
  rw [h]
  rintro v w x rfl hread
  exact hread

theorem fallback_of_eq {value : α} (h : Alike name = Eq) :
    Respects Alike (Members.fallback name reading value) := by
  refine .fallback ?_
  rw [h]
  rintro v w x rfl hread
  exact hread

end Respects

/-! ## reading -/

/-- no field is bad if none of the fields that are members is -/
theorem firstFault_eq_ok {checks : List (String × (Json → Except Fault Unit))}
    {fields : List (String × Json)}
    (h : ∀ f ∈ fields, ∀ c ∈ checks, c.1 = f.1 → c.2 f.2 = .ok ()) :
    firstFault checks fields = .ok () := by
  induction fields with
  | nil => rfl
  | cons f rest ih =>
    obtain ⟨first, others⟩ := List.forall_mem_cons.mp h
    obtain ⟨k, v⟩ := f
    rw [firstFault]
    cases hcheck : Fields.get? k checks with
    | none => exact ih others
    | some check =>
      have good : check v = .ok () := first (k, check) (Fields.mem_of_get? hcheck) rfl
      simp only [good]
      exact ih others

variable {m : Members α}

theorem ofFields_builds {fields : List (String × Json)} {missing : String → Fault} {x : α}
    (h : m.ofFields fields missing = .ok x) :
    m.Builds ⟨fun name => Fields.get? name fields, missing⟩ x := by
  rw [ofFields] at h
  split at h
  · cases h
  · exact h

/-- **An object without repeated keys is read as what its members build.** -/
theorem reading_object_eq_ok_iff (hm : m.Checked) {record : String}
    {fields : List (String × Json)} (hkeys : (Fields.keys fields).Nodup) {x : α} :
    m.reading record (.object fields) = .ok x ↔
      m.Builds ⟨fun name => Fields.get? name fields, .missingMember⟩ x := by
  constructor
  · exact ofFields_builds
  · intro hx
    have good : firstFault m.checks fields = .ok () := by
      apply firstFault_eq_ok
      intro f hf c hc hname
      refine hm _ x hx c hc f.2 ?_
      rw [hname]
      exact Fields.get?_of_mem hkeys hf
    rw [reading, ofFields, good]
    exact hx

/-- whatever is read as the record, from an object or from an array, is built of something -/
theorem Ensures.reading {P : α → Prop} (hm : m.Ensures P) {record : String} {v : Json} {x : α}
    (h : m.reading record v = .ok x) : P x := by
  cases v with
  | object fields => exact hm _ x (ofFields_builds h)
  | array vs =>
    simp only [Members.reading] at h
    split at h
    · cases h
    · rename_i y hy
      split at h
      · cases h
      · obtain rfl := Except.ok.inj h
        exact hm _ y (ofFields_builds hy)
  | _ => cases h

end Members

/-! ## objects with the same members -/

/-- two objects that give alike values to the members of a record: in whatever order, and whatever
else stands in them -/
inductive SameMembers (names : List String) (Alike : String → Json → Json → Prop) :
    Json → Json → Prop where
  | object {fs gs : List (String × Json)} (hfs : (Fields.keys fs).Nodup)
      (hgs : (Fields.keys gs).Nodup)
      (h : ∀ name ∈ names, Option.Rel (Alike name) (Fields.get? name fs) (Fields.get? name gs)) :
      SameMembers names Alike (.object fs) (.object gs)
  | refl (v : Json) : SameMembers names Alike v v

/-- arrays of alike items -/
inductive SameItems (Alike : Json → Json → Prop) : Json → Json → Prop where
  | array {vs ws : List Json} (h : List.Forall₂ Alike vs ws) :
      SameItems Alike (.array vs) (.array ws)
  | refl (v : Json) : SameItems Alike v v

theorem SameMembers.symm {names : List String} {Alike : String → Json → Json → Prop}
    (hsymm : ∀ name v w, Alike name v w → Alike name w v) {v w : Json}
    (h : SameMembers names Alike v w) : SameMembers names Alike w v := by
  cases h with
  | object hfs hgs h =>
    refine .object hgs hfs fun name hname => ?_
    exact rel_imp_of_mem (rel_flip (h name hname)) fun _ _ _ _ => hsymm name _ _
  | refl => exact .refl v

theorem SameItems.symm {Alike : Json → Json → Prop} (hsymm : ∀ v w, Alike v w → Alike w v)
    {v w : Json} (h : SameItems Alike v w) : SameItems Alike w v := by
  cases h with
  | array h => exact .array (h.flip.imp fun _ _ => hsymm _ _)
  | refl => exact .refl v

/-- **Objects with the same members are read as the same record.** -/
theorem reading_sameMembers {m : Members α} (hm : m.Checked)
    {Alike : String → Json → Json → Prop} (halike : m.Respects Alike) {record : String}
    {v w : Json} (h : SameMembers (Fields.keys m.checks) Alike v w) {x : α}
    (hv : m.reading record v = .ok x) : m.reading record w = .ok x := by
  cases h with
  | object hfs hgs h =>
    rw [Members.reading_object_eq_ok_iff hm hfs] at hv
    rw [Members.reading_object_eq_ok_iff hm hgs]
    exact halike _ _ h x hv
  | refl => exact hv

theorem list_sameItems {item : Reading α} {Alike : Json → Json → Prop}
    (halike : ∀ v w x, Alike v w → item v = .ok x → item w = .ok x) (v w : Json) (xs : List α)
    (h : SameItems Alike v w) (hv : list item v = .ok xs) : list item w = .ok xs := by
  cases h with
  | array h =>
    rw [list, items_eq_ok_iff] at hv ⊢
    refine (forall₂_comp h.flip hv).imp ?_
    rintro w x ⟨v, hvw, hv⟩
    exact halike v w x hvw hv
  | refl => exact hv

end Workflow.Record
