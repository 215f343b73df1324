import Workflow.Proofs.Calendar.ReadBack
import Workflow.Proofs.Document.Location
import Workflow.Proofs.Record.Members
import Workflow.Service.Message

/-!
# Messages come back from their JSON form

Every message is read from its JSON form as it was, if the moments in it are valid ones, and only
such moments are ever read. So what was read once, from whatever form, is read again from the form
that is written for it. Requests write no null at all: a member that is not set is left out, and an
empty list is set.

* `Record.Faithful`        a reading and a form that fit each other;
* `Json.NullFree`          no null stands anywhere in a value;
* `messages_come_back`     all messages, and what requests leave out.
-/

namespace Workflow

namespace Fields

variable {α : Type}

theorem get?_append (key : String) (fs gs : List (String × α)) :
    get? key (fs ++ gs) = (get? key fs).or (get? key gs) := by
  induction fs with
  | nil => rfl
  | cons f fs ih =>
    rw [List.cons_append, get?, get?]
    split
    · rfl
    · exact ih

end Fields

/-! ## values without null -/

namespace Json

/-- no null stands anywhere in the value -/
def NullFree (v : Json) : Prop := ∀ loc, v.at? loc ≠ some .null

theorem NullFree.of_parts {v : Json} (hne : v ≠ null)
    (h : ∀ s, ∀ w ∈ v.part? s, w.NullFree) : v.NullFree := by
  rintro (_ | ⟨s, rest⟩) hnull
  · exact hne (Option.some_inj.mp hnull)
  · rw [at?_cons] at hnull
    obtain ⟨w, hw, hrest⟩ := Option.bind_eq_some_iff.mp hnull
    exact h s w hw rest hrest

theorem nullFree_string (s : String) : (string s).NullFree := .of_parts nofun nofun

theorem NullFree.array {xs : List Json} (h : ∀ x ∈ xs, x.NullFree) : (Json.array xs).NullFree := by
  refine .of_parts nofun ?_
  rintro (name | i) w hw
  · cases hw
  · exact h w (List.mem_of_getElem? hw)

theorem NullFree.object {fs : List (String × Json)} (h : ∀ f ∈ fs, f.2.NullFree) :
    (Json.object fs).NullFree := by
  refine .of_parts nofun ?_
  rintro (name | i) w hw
  · exact h (name, w) (Fields.mem_of_get? hw)
  · cases hw

end Json

/-! ## readings and forms that fit each other -/

namespace Record

/-- what is written is read as what it was, and what is read is read again from what is written of
it -/
structure Faithful {α : Type} (reading : Reading α) (form : α → Json) (Legal : α → Prop) :
    Prop where
  reads_back : ∀ x, Legal x → reading (form x) = .ok x
  reads_again : ∀ v x, reading v = .ok x → reading (form x) = .ok x

variable {α : Type} {reading : Reading α} {form : α → Json} {Legal : α → Prop}

theorem Faithful.of_legal (hback : ∀ x, Legal x → reading (form x) = .ok x)
    (hlegal : ∀ v x, reading v = .ok x → Legal x) : Faithful reading form Legal :=
  ⟨hback, fun v x hv => hback x (hlegal v x hv)⟩

theorem Faithful.of_all (hback : ∀ x, reading (form x) = .ok x) :
    Faithful reading form fun _ => True :=
  .of_legal (fun x _ => hback x) fun _ _ _ => trivial

theorem optional_form {x : α} (hnull : form x ≠ .null) (h : reading (form x) = .ok x) :
    optional reading (form x) = .ok (some x) :=
  optional_eq_ok_iff.mpr (.inr ⟨hnull, x, h, rfl⟩)

/-- a member that is left out when it is not set -/
theorem Members.Builds.optional_map {given : Given} {name : String} {x? : Option α}
    (hv : given.value? name = x?.map form) (hnull : ∀ x, form x ≠ .null)
    (h : ∀ x ∈ x?, reading (form x) = .ok x) : (Members.optional name reading).Builds given x? := by
  cases x? with
  | none => exact builds_fallback_iff.mpr (.inl ⟨hv, rfl⟩)
  | some x => exact .fallback hv (optional_form (hnull x) (h x rfl))

end Record

namespace Service

open Record (Members Faithful)

/-! ## members that may be absent -/

section
variable {α : Type} {form : α → Json} {key : String} {x? : Option α}

theorem get?_ifSet (name : String) :
    Fields.get? name (ifSet key form x?) = if key = name then x?.map form else none := by
  cases x? with
  | none => simp [ifSet, Fields.get?]
  | some x => simp [ifSet, Fields.get?]

theorem keys_ifSet : (Fields.keys (ifSet key form x?)).Sublist [key] := by
  cases x? with
  | none => exact List.nil_sublist _
  | some x => exact List.Sublist.refl _

theorem keys_append {fs gs : List (String × Json)} {ks ls : List String}
    (hfs : (Fields.keys fs).Sublist ks) (hgs : (Fields.keys gs).Sublist ls) :
    (Fields.keys (fs ++ gs)).Sublist (ks ++ ls) := by
  rw [Fields.keys, List.map_append]
  exact hfs.append hgs

theorem forall_mem_ifSet {P : String × Json → Prop} (h : ∀ x ∈ x?, P (key, form x)) :
    ∀ f ∈ ifSet key form x?, P f := by
  cases x? with
  | none => exact nofun
  | some x => exact List.forall_mem_singleton.mpr (h x rfl)

theorem optional_orNull {reading : Record.Reading α} (hnull : ∀ x, form x ≠ .null)
    (h : ∀ x ∈ x?, reading (form x) = .ok x) :
    Record.optional reading (orNull form x?) = .ok x? := by
  cases x? with
  | none => rfl
  | some x => exact Record.optional_form (hnull x) (h x rfl)

end

theorem optional_text (s? : Option String) :
    Record.optional Record.text (orNull .string s?) = .ok s? :=
  optional_orNull nofun fun _ _ => rfl

theorem moment_momentJson {m : Calendar.Moment} (h : m.isValid = true) :
    Record.moment (momentJson m) = .ok m := by
  rw [momentJson, Record.moment, Calendar.Moment.ofText_text h]

theorem isValid_of_moment {v : Json} {m : Calendar.Moment} (h : Record.moment v = .ok m) :
    m.isValid = true := by
  cases v with
  | string s =>
    rw [Record.moment] at h
    split at h
    · rename_i hs
      exact Except.ok.inj h ▸ Calendar.Moment.isValid_of_ofText hs
    · cases h
  | _ => cases h

/-- if there is a moment, it is a valid one -/
def ValidIfSet (m? : Option Calendar.Moment) : Prop := ∀ m ∈ m?, m.isValid = true

theorem optional_moment {m? : Option Calendar.Moment} (h : ValidIfSet m?) :
    Record.optional Record.moment (orNull momentJson m?) = .ok m? :=
  optional_orNull nofun fun m hm => moment_momentJson (h m hm)

theorem ensures_moment (name : String) :
    (Members.optional name Record.moment).Ensures ValidIfSet := by
  intro given m? hm
  rcases Members.builds_fallback_iff.mp hm with ⟨-, rfl⟩ | ⟨v, -, hv⟩
  · exact nofun
  · rcases Record.optional_eq_ok_iff.mp hv with ⟨-, rfl⟩ | ⟨-, m, hread, rfl⟩
    · exact nofun
    · intro n hn
      obtain rfl := Option.some_inj.mp hn
      exact isValid_of_moment hread

/-! ## records of one or two texts -/

section
variable {α : Type} {record key key' : String}

theorem reading_text {build : String → α} (s : String) :
    (Members.pure build <*> Members.required key Record.text).reading record
      (.object [(key, .string s)]) = .ok (build s) := by
  have checked : (Members.pure build <*> Members.required key Record.text).Checked :=
    .seq .pure .required
  rw [Members.reading_object_eq_ok_iff checked (by simp [Fields.keys])]
  exact .seq .pure (.required (if_pos rfl) rfl)

theorem reading_texts {build : String → String → α} (hne : key ≠ key') (s t : String) :
    (Members.pure build <*> Members.required key Record.text <*>
      Members.required key' Record.text).reading record
        (.object [(key, .string s), (key', .string t)]) = .ok (build s t) := by
  have checked : (Members.pure build <*> Members.required key Record.text <*>
      Members.required key' Record.text).Checked := .seq (.seq .pure .required) .required
  have keys : (Fields.keys [(key, Json.string s), (key', .string t)]).Nodup := by
    simpa [Fields.keys] using hne
  have second : Fields.get? key' [(key, Json.string s), (key', .string t)] = some (.string t) :=
    Fields.get?_of_mem keys (List.mem_cons_of_mem _ List.mem_cons_self)
  rw [Members.reading_object_eq_ok_iff checked keys]
  exact .seq (.seq .pure (.required (if_pos rfl) rfl)) (.required second rfl)

theorem nullFree_texts (s t : String) :
    (Json.object [(key, .string s), (key', .string t)]).NullFree := by
  refine .object ?_
  simp only [List.forall_mem_cons]
  exact ⟨Json.nullFree_string s, Json.nullFree_string t, nofun⟩

end

theorem Refusal.reading_toJson (r : Refusal) : reading r.toJson = .ok r :=
  reading_texts (by decide) r.code r.message

theorem PipelineReceipt.reading_toJson (r : PipelineReceipt) : reading r.toJson = .ok r :=
  reading_text r.arn

theorem RunReceipt.reading_toJson (r : RunReceipt) : reading r.toJson = .ok r :=
  reading_text r.arn

theorem Tag.reading_toJson (t : Tag) : reading t.toJson = .ok t :=
  reading_texts (by decide) t.key t.value

theorem Override.reading_toJson (o : Override) : reading o.toJson = .ok o :=
  reading_texts (by decide) o.name o.value

/-! ## requests -/

theorem nullFree_arrayOf {α : Type} {form : α → Json} (h : ∀ x, (form x).NullFree) (xs : List α) :
    (arrayOf form xs).NullFree :=
  .array (List.forall_mem_map.mpr fun x _ => h x)

theorem list_arrayOf {α : Type} {reading : Record.Reading α} {form : α → Json} {xs : List α}
    (h : ∀ x, reading (form x) = .ok x) : Record.list reading (arrayOf form xs) = .ok xs :=
  Record.list_map_self fun x _ => h x

namespace PipelineRequest

/-- the optional members of a request are those that are set -/
theorem part?_toJson (r : PipelineRequest) :
    r.toJson.part? (.key "PipelineDescription") = r.description?.map .string ∧
      r.toJson.part? (.key "ExperimentName") = r.experiment?.map .string ∧
      r.toJson.part? (.key "Tags") = r.tags?.map (arrayOf Tag.toJson) := by
  simp [toJson, Json.part?, Fields.get?_append, get?_ifSet, Fields.get?]

theorem reading_toJson (r : PipelineRequest) : reading r.toJson = .ok r := by
  obtain ⟨hdescription, hexperiment, htags⟩ := r.part?_toJson
  obtain ⟨name, definition, role, description?, experiment?, tags?⟩ := r
  have checked : members.Checked :=
    .seq (.seq (.seq (.seq (.seq (.seq .pure .required) .required) .required) .fallback)
      .fallback) .fallback
  rw [reading, toJson, Members.reading_object_eq_ok_iff checked]
  · exact .seq (.seq (.seq (.seq (.seq (.seq .pure (.required rfl rfl)) (.required rfl rfl))
      (.required rfl rfl)) (.optional_map hdescription nofun fun _ _ => rfl))
        (.optional_map hexperiment nofun fun _ _ => rfl))
          (.optional_map htags nofun fun _ _ => list_arrayOf Tag.reading_toJson)
  · exact List.Sublist.nodup (keys_append (.refl _)
      (keys_append keys_ifSet (keys_append keys_ifSet keys_ifSet))) (by simp [Fields.keys])

theorem nullFree_toJson (r : PipelineRequest) : r.toJson.NullFree := by
  refine .object ?_
  simp only [List.forall_mem_append, List.forall_mem_cons]
  refine ⟨⟨Json.nullFree_string _, Json.nullFree_string _, Json.nullFree_string _, nofun⟩, ?_⟩
  exact ⟨forall_mem_ifSet fun _ _ => Json.nullFree_string _,
    forall_mem_ifSet fun _ _ => Json.nullFree_string _,
    forall_mem_ifSet fun _ _ => nullFree_arrayOf (fun _ => nullFree_texts _ _) _⟩

end PipelineRequest

namespace RunRequest

/-- the optional members of a request are those that are set -/
theorem part?_toJson (r : RunRequest) :
    r.toJson.part? (.key "PipelineParameters") = r.overrides?.map (arrayOf Override.toJson) ∧
      r.toJson.part? (.key "PipelineExecutionDescription") = r.description?.map .string := by
  simp [toJson, Json.part?, Fields.get?_append, get?_ifSet, Fields.get?]

theorem reading_toJson (r : RunRequest) : reading r.toJson = .ok r := by
  obtain ⟨hoverrides, hdescription⟩ := r.part?_toJson
  obtain ⟨pipeline, overrides?, description?⟩ := r
  have checked : members.Checked := .seq (.seq (.seq .pure .required) .fallback) .fallback
  rw [reading, toJson, Members.reading_object_eq_ok_iff checked]
  · exact .seq (.seq (.seq .pure (.required rfl rfl))
      (.optional_map hoverrides nofun fun _ _ => list_arrayOf Override.reading_toJson))
        (.optional_map hdescription nofun fun _ _ => rfl)
  · exact List.Sublist.nodup (.cons_cons _ (keys_append keys_ifSet keys_ifSet)) (by simp)

theorem nullFree_toJson (r : RunRequest) : r.toJson.NullFree := by
  refine .object ?_
  simp only [List.forall_mem_append, List.forall_mem_cons]
  exact ⟨Json.nullFree_string _,
    forall_mem_ifSet fun _ _ => nullFree_arrayOf (fun _ => nullFree_texts _ _) _,
    forall_mem_ifSet fun _ _ => Json.nullFree_string _⟩

end RunRequest

/-! ## records -/

namespace PipelineRecord

structure Dated (r : PipelineRecord) : Prop where
  created : ValidIfSet r.created?
  modified : ValidIfSet r.modified?

theorem reading_toJson {r : PipelineRecord} (h : r.Dated) : reading r.toJson = .ok r := by
  obtain ⟨hcreated, hmodified⟩ := h
  obtain ⟨arn, name, definition?, description?, role?, status?, created?, modified?⟩ := r
  have checked : members.Checked :=
    .seq (.seq (.seq (.seq (.seq (.seq (.seq (.seq .pure .required) .required) .fallback)
      .fallback) .fallback) .fallback) .fallback) .fallback
  rw [reading, toJson, Members.reading_object_eq_ok_iff checked (by simp [Fields.keys])]
  exact .seq (.seq (.seq (.seq (.seq (.seq (.seq (.seq .pure (.required rfl rfl))
    (.required rfl rfl)) (.fallback rfl (optional_text _))) (.fallback rfl (optional_text _)))
      (.fallback rfl (optional_text _))) (.fallback rfl (optional_text _)))
        (.fallback rfl (optional_moment hcreated))) (.fallback rfl (optional_moment hmodified))

theorem dated_of_reading {v : Json} {r : PipelineRecord} (h : reading v = .ok r) : r.Dated := by
  have ensures : members.Ensures Dated :=
    .seq (.seq (.seq (.seq (.seq (.seq (.seq (.seq (.pure fun _ _ _ _ _ _ _ _ _ _ _ _ _ hcreated _
      hmodified => ⟨hcreated, hmodified⟩) .any) .any) .any) .any) .any) .any) (ensures_moment _))
        (ensures_moment _)
  exact ensures.reading h

end PipelineRecord

namespace RunRecord

structure Dated (r : RunRecord) : Prop where
  created : ValidIfSet r.created?
  modified : ValidIfSet r.modified?

theorem reading_toJson {r : RunRecord} (h : r.Dated) : reading r.toJson = .ok r := by
  obtain ⟨hcreated, hmodified⟩ := h
  obtain ⟨arn, status, pipelineArn?, description?, failureReason?, created?, modified?⟩ := r
  have checked : members.Checked :=
    .seq (.seq (.seq (.seq (.seq (.seq (.seq .pure .required) .required) .fallback) .fallback)
      .fallback) .fallback) .fallback
  rw [reading, toJson, Members.reading_object_eq_ok_iff checked (by simp [Fields.keys])]
  exact .seq (.seq (.seq (.seq (.seq (.seq (.seq .pure (.required rfl rfl))
    (.required rfl status.reading_toJson)) (.fallback rfl (optional_text _)))
      (.fallback rfl (optional_text _))) (.fallback rfl (optional_text _)))
        (.fallback rfl (optional_moment hcreated))) (.fallback rfl (optional_moment hmodified))

theorem dated_of_reading {v : Json} {r : RunRecord} (h : reading v = .ok r) : r.Dated := by
  have ensures : members.Ensures Dated :=
    .seq (.seq (.seq (.seq (.seq (.seq (.seq (.pure fun _ _ _ _ _ _ _ _ _ _ _ hcreated _
      hmodified => ⟨hcreated, hmodified⟩) .any) .any) .any) .any) .any) (ensures_moment _))
        (ensures_moment _)
  exact ensures.reading h

end RunRecord

namespace StepRecord

structure Dated (r : StepRecord) : Prop where
  started : ValidIfSet r.started?
  ended : ValidIfSet r.ended?

theorem reading_toJson {r : StepRecord} (h : r.Dated) : reading r.toJson = .ok r := by
  obtain ⟨hstarted, hended⟩ := h
  obtain ⟨name, status, started?, ended?, failureReason?⟩ := r
  have checked : members.Checked :=
    .seq (.seq (.seq (.seq (.seq .pure .required) .required) .fallback) .fallback) .fallback
  rw [reading, toJson, Members.reading_object_eq_ok_iff checked (by simp [Fields.keys])]
  exact .seq (.seq (.seq (.seq (.seq .pure (.required rfl rfl))
    (.required rfl status.reading_toJson)) (.fallback rfl (optional_moment hstarted)))
      (.fallback rfl (optional_moment hended))) (.fallback rfl (optional_text _))

theorem dated_of_reading {v : Json} {r : StepRecord} (h : reading v = .ok r) : r.Dated := by
  have ensures : members.Ensures Dated :=
    .seq (.seq (.seq (.seq (.seq (.pure fun _ _ _ _ _ hstarted _ hended _ _ =>
      ⟨hstarted, hended⟩) .any) .any) (ensures_moment _)) (ensures_moment _)) .any
  exact ensures.reading h

end StepRecord

/-! ## all messages -/

/-- **Every message comes back from its JSON form.** The moments of a record have to be valid ones,
as those of every record that is read are. Requests write no null, and of their optional members
those that are set. -/
theorem messages_come_back :
    (Faithful Refusal.reading Refusal.toJson (fun _ => True) ∧
      Faithful PipelineReceipt.reading PipelineReceipt.toJson (fun _ => True) ∧
      Faithful RunReceipt.reading RunReceipt.toJson (fun _ => True) ∧
      Faithful Tag.reading Tag.toJson (fun _ => True) ∧
      Faithful Override.reading Override.toJson (fun _ => True) ∧
      Faithful PipelineRequest.reading PipelineRequest.toJson (fun _ => True) ∧
      Faithful RunRequest.reading RunRequest.toJson (fun _ => True) ∧
      Faithful PipelineRecord.reading PipelineRecord.toJson PipelineRecord.Dated ∧
      Faithful RunRecord.reading RunRecord.toJson RunRecord.Dated ∧
      Faithful StepRecord.reading StepRecord.toJson StepRecord.Dated) ∧
    (∀ r : PipelineRequest, r.toJson.NullFree ∧
      (r.toJson.part? (.key "PipelineDescription")).isSome = r.description?.isSome ∧
      (r.toJson.part? (.key "ExperimentName")).isSome = r.experiment?.isSome ∧
      (r.toJson.part? (.key "Tags")).isSome = r.tags?.isSome) ∧
    ∀ r : RunRequest, r.toJson.NullFree ∧
      (r.toJson.part? (.key "PipelineParameters")).isSome = r.overrides?.isSome ∧
      (r.toJson.part? (.key "PipelineExecutionDescription")).isSome = r.description?.isSome := by
  refine ⟨⟨.of_all Refusal.reading_toJson, .of_all PipelineReceipt.reading_toJson,
    .of_all RunReceipt.reading_toJson, .of_all Tag.reading_toJson,
    .of_all Override.reading_toJson, .of_all PipelineRequest.reading_toJson,
    .of_all RunRequest.reading_toJson, ?_, ?_, ?_⟩, ?_, ?_⟩
  · exact .of_legal (fun _ => PipelineRecord.reading_toJson)
      fun _ _ => PipelineRecord.dated_of_reading
  · exact .of_legal (fun _ => RunRecord.reading_toJson) fun _ _ => RunRecord.dated_of_reading
  · exact .of_legal (fun _ => StepRecord.reading_toJson) fun _ _ => StepRecord.dated_of_reading
  · intro r
    obtain ⟨hdescription, hexperiment, htags⟩ := r.part?_toJson
    rw [hdescription, hexperiment, htags]
    exact ⟨r.nullFree_toJson, Option.isSome_map, Option.isSome_map, Option.isSome_map⟩
  · intro r
    obtain ⟨hoverrides, hdescription⟩ := r.part?_toJson
    rw [hoverrides, hdescription]
    exact ⟨r.nullFree_toJson, Option.isSome_map, Option.isSome_map⟩

/-- a step that started in a leap second -/
def leapStep : StepRecord where
  name := "Train"
  status := .executing
  started? := some ⟨⟨2016, 12, 31⟩, 23, 59, 60, 500000000⟩
  ended? := none
  failureReason? := none

/-- what a service in another time zone tells of it -/
def leapStepTold : Json :=
  .object [("StepStatus", .string "Executing"),
    ("StartTime", .string "2017-01-01T01:59:60.5+02:00"), ("StepName", .string "Train")]

theorem messages_come_back_leapStep :
    StepRecord.reading leapStepTold = .ok leapStep ∧
      StepRecord.reading leapStep.toJson = .ok leapStep ∧
      ((RunRequest.toJson ⟨"P", some [], none⟩).part? (.key "PipelineParameters")).isSome = true := by
  obtain ⟨⟨-, -, -, -, -, -, -, -, -, hstep⟩, -, hrun⟩ := messages_come_back
  have told : StepRecord.reading leapStepTold = .ok leapStep := rfl
  have dated : leapStep.Dated := by
    refine ⟨?_, nofun⟩
    intro m hm
    obtain rfl := Option.some_inj.mp hm
    rfl
  exact ⟨told, hstep.reads_back leapStep dated, (hrun ⟨"P", some [], none⟩).2.1⟩

end Service

end Workflow
