import Workflow.Proofs.Session.Upsert
import Workflow.Proofs.Service.RoundTrip
import Workflow.Proofs.Json.RoundTrip
import Mathlib.Data.List.Forall2

/-!
# What a run is told of its parameters

A start carries its parameter values as texts: a string as it is, any other value as its text. From
such a text the value can be read again. So what gets lost is only whether there was a string:
the number 3 and the string `3` are sent alike, and so are any value and the string that spells it.

* `overrideText_eq_iff`, `overridesOf_eq_iff`   values, and lists of them, that are sent alike;
* `Carries`                     an override carries a value under its name;
* `forall₂_carries`             every override does, in order;
* `calls_start`                 the calls of a start that finds its pipeline;
* `overrides_reach_service`     what is given to a start is what its request carries.
-/

namespace Workflow

/-- any value but a string -/
def Json.NotString (v : Json) : Prop := ∀ s, v ≠ .string s

theorem Json.string_or_notString (v : Json) : (∃ s, v = .string s) ∨ v.NotString := by
  cases v with
  | string s => exact .inl ⟨s, rfl⟩
  | _ => exact .inr nofun

namespace Service

/-! ## texts of values -/

theorem overrideText_of_notString {v : Json} (h : v.NotString) : overrideText v = v.compact := by
  cases v with
  | string s => exact absurd rfl (h s)
  | _ => rfl

theorem read?_overrideText {v : Json} (h : v.NotString) (keyed : v.wellKeyed = true) :
    Json.read? (overrideText v) = some v := by
  rw [overrideText_of_notString h]
  exact Json.read?_text Json.Style.blank_compact ⟨v, keyed⟩

/-- values that become one text: the same value, or a value and the string that spells it -/
inductive SentAlike : Json → Json → Prop where
  | same (v : Json) : SentAlike v v
  | spelling {v : Json} (h : v.NotString) : SentAlike (.string v.compact) v
  | spelled {v : Json} (h : v.NotString) : SentAlike v (.string v.compact)

theorem overrideText_eq_iff {v w : Json} : overrideText v = overrideText w ↔ SentAlike v w := by
  constructor
  · intro h
    obtain ⟨s, rfl⟩ | hv := v.string_or_notString
    · obtain ⟨t, rfl⟩ | hw := w.string_or_notString
      · obtain rfl : s = t := h
        exact .same _
      · obtain rfl : s = w.compact := h.trans (overrideText_of_notString hw)
        exact .spelling hw
    · obtain ⟨t, rfl⟩ | hw := w.string_or_notString
      · obtain rfl : v.compact = t := (overrideText_of_notString hv).symm.trans h
        exact .spelled hv
      · rw [overrideText_of_notString hv, overrideText_of_notString hw] at h
        obtain rfl := (Json.text_inj Json.Style.blank_compact).mp h
        exact .same _
  · intro h
    cases h with
    | same => rfl
    | spelling h => exact (overrideText_of_notString h).symm
    | spelled h => exact overrideText_of_notString h

/-! ## lists of overrides -/

variable {values others : List (String × Json)}

/-- **Two lists of values are sent alike if the names are the same, and name by name the values are
sent alike.** -/
theorem overridesOf_eq_iff : overridesOf values = overridesOf others ↔
    List.Forall₂ (fun f g => f.1 = g.1 ∧ SentAlike f.2 g.2) values others := by
  rw [overridesOf, overridesOf, ← List.forall₂_eq_eq_eq, List.forall₂_map_left_iff,
    List.forall₂_map_right_iff]
  simp only [Override.mk.injEq, overrideText_eq_iff]

/-- an override gives a value its name and its text. Unless it is a string, the value can be read
again from the text: the one condition, that no object in it has a key twice, holds of every map. -/
structure Carries (f : String × Json) (o : Override) : Prop where
  name : o.name = f.1
  string : ∀ s, f.2 = .string s → o.value = s
  text : f.2.NotString → o.value = f.2.compact
  reading : f.2.NotString → f.2.wellKeyed = true → Json.read? o.value = some f.2

theorem carries_overrideText (f : String × Json) : Carries f ⟨f.1, overrideText f.2⟩ where
  name := rfl
  string s h := by rw [h, overrideText]
  text := overrideText_of_notString
  reading := read?_overrideText

theorem forall₂_carries (values : List (String × Json)) :
    List.Forall₂ Carries values (overridesOf values) :=
  List.forall₂_map_right_iff.mpr (List.forall₂_same.mpr fun f _ => carries_overrideText f)

end Service

namespace Session

open Service

/-! ## the request of a start -/

variable {σ : Type}

theorem calls_start (server : Server σ) (s : σ) (p : Pipeline) {record : PipelineRecord}
    (described : (server.answer (.describePipeline p.name) s).1 = .ok record)
    (values? : Option (List (String × Json))) (description? : Option String) :
    ((start p values? description?).run server s).calls =
      [.describePipeline p.name, .startRun (runRequest p values? description?)] := by
  have first : (describe p).run server s = ⟨.ok record,
      [.called (.describePipeline p.name) (.ok record)],
      (server.answer (.describePipeline p.name) s).2⟩ := run_request (Prod.ext described rfl)
  rw [start, Program.run_bind, first]
  simp only [Program.run_map, run_request rfl]
  rfl

/-- whatever the service answers, a start asks for no other run -/
theorem eq_runRequest_of_mem {server : Server σ} {s : σ} {p : Pipeline}
    {values? : Option (List (String × Json))} {description? : Option String} {request : RunRequest}
    (h : .startRun request ∈ ((start p values? description?).run server s).calls) :
    request = runRequest p values? description? := by
  rw [Run.calls_eq] at h
  obtain ⟨t, hevents, -⟩ | ⟨record, a, hevents, -⟩ :=
    yields_start_iff.mp (Program.yields_run server (start p values? description?) s)
  · rw [hevents] at h
    exact absurd h (by simp [exchanges, Event.exchange?])
  · rw [hevents] at h
    simpa [exchanges, Event.exchange?] using h

/-- **Parameter values reach the service.** A start that finds its pipeline sends no list if there
is none, and otherwise one override a value, in order, that carries it. Whatever any other start
sends, the two lists are the same exactly if the names are and the values are sent alike. -/
theorem overrides_reach_service (server : Server σ) (s : σ) (p : Pipeline) {record : PipelineRecord}
    (described : (server.answer (.describePipeline p.name) s).1 = .ok record)
    (values? : Option (List (String × Json))) (description? : Option String) :
    ∃ request : RunRequest,
      ((start p values? description?).run server s).calls =
          [.describePipeline p.name, .startRun request] ∧
        request.pipeline = p.name ∧ request.description? = description? ∧
        (request.overrides? = none ↔ values? = none) ∧
        (request.toJson.part? (.key "PipelineParameters") = none ↔ values? = none) ∧
        (∀ values ∈ values?, ∃ sent ∈ request.overrides?, List.Forall₂ Carries values sent) ∧
        ∀ {τ : Type} (server' : Server τ) (t : τ) (q : Pipeline)
          (others? : Option (List (String × Json))) (note? : Option String) (request' : RunRequest),
          .startRun request' ∈ ((start q others? note?).run server' t).calls →
            ∀ values ∈ values?, ∀ others ∈ others?,
              (request.overrides? = request'.overrides? ↔
                List.Forall₂ (fun f g => f.1 = g.1 ∧ SentAlike f.2 g.2) values others) := by
  refine ⟨runRequest p values? description?, calls_start server s p described values? description?,
    rfl, rfl, Option.map_eq_none_iff, ?_, ?_, ?_⟩
  · rw [(runRequest p values? description?).part?_toJson.1]
    simp only [runRequest, Option.map_eq_none_iff]
  · intro values hvalues
    exact ⟨overridesOf values, Option.mem_map_of_mem overridesOf hvalues, forall₂_carries values⟩
  · rintro τ server' t q others? note? request' h values rfl others rfl
    obtain rfl := eq_runRequest_of_mem h
    simp only [runRequest, Option.map_some, Option.some_inj]
    exact overridesOf_eq_iff

/-- a service that knows every pipeline and starts whatever it is asked to -/
def Server.starting (record : PipelineRecord) : Server Nat where
  answer
    | .describePipeline _, n => (.ok record, n)
    | .startRun _, n => (.ok ⟨Record.decimalText n⟩, n + 1)
    | _, n => (.error ⟨"UnknownOperation", ""⟩, n)

def knownRecord : PipelineRecord := ⟨"arn", "p", none, none, none, none, none, none⟩

def three : Json := .number (.integer 3 (by decide))

/-- a string, a number, and a value with values in it -/
def mixedValues : List (String × Json) :=
  [("Mode", .string "3"), ("Count", three), ("Nested", .array [.null, .object [("a", three)]])]

/-- the same with the string and the number exchanged, and the string that spells the last value -/
def spelledValues : List (String × Json) :=
  [("Mode", three), ("Count", .string "3"), ("Nested", .string "[null,\x7b\"a\":3\x7d]")]

def mixedOverrides : List Override :=
  [⟨"Mode", "3"⟩, ⟨"Count", "3"⟩, ⟨"Nested", "[null,\x7b\"a\":3\x7d]"⟩]

theorem overrides_reach_service_mixed :
    ((Server.starting knownRecord).answer (.describePipeline "p") 0).1 = .ok knownRecord ∧
      (∀ f ∈ mixedValues, f.2.wellKeyed = true) ∧
      ((start ⟨"p", [], [], []⟩ (some mixedValues) none).run (.starting knownRecord) 0).calls =
        [.describePipeline "p", .startRun ⟨"p", some mixedOverrides, none⟩] ∧
      List.Forall₂ Carries mixedValues mixedOverrides ∧
      List.Forall₂ (fun f g => f.1 = g.1 ∧ SentAlike f.2 g.2) mixedValues spelledValues := by
  have texts : overridesOf mixedValues = mixedOverrides := by decide +kernel
  have spelledTexts : overridesOf spelledValues = mixedOverrides := by decide +kernel
  obtain ⟨request, calls, -, -, -, -, carried, alike⟩ := overrides_reach_service
    (.starting knownRecord) 0 ⟨"p", [], [], []⟩ rfl (some mixedValues) none
  obtain rfl := eq_runRequest_of_mem (calls ▸ List.mem_cons_of_mem _ List.mem_cons_self)
  obtain ⟨sent, hsent, carries⟩ := carried mixedValues rfl
  obtain rfl : mixedOverrides = sent := texts.symm.trans (Option.some_inj.mp hsent)
  refine ⟨rfl, by decide, ?_, carries, ?_⟩
  · rw [calls, runRequest, Option.map_some, texts]
  · refine (alike (.starting knownRecord) 0 ⟨"p", [], [], []⟩ (some spelledValues) none
      (runRequest ⟨"p", [], [], []⟩ (some spelledValues) none) ?_ _ rfl _ rfl).mp ?_
    · rw [calls_start (.starting knownRecord) 0 ⟨"p", [], [], []⟩ rfl]
      exact List.mem_cons_of_mem _ List.mem_cons_self
    · rw [runRequest, runRequest, Option.map_some, Option.map_some, texts, spelledTexts]

end Session

end Workflow
