import ComponentDocs.Proofs.Doclet.Description
import ComponentDocs.Proofs.Documentation.Typing
import ComponentDocs.Proofs.Metadata.Raw
import ComponentDocs.Proofs.Tree.Walk

/-!
# From raw to normal metadata

What becomes of the fields of a raw record when it is made normal, and which records can be made normal.

* `SplitsInto`, `PropNormalizesTo`, `NormalizesTo`: a raw record and the normal one, field by field;
* `Normalizable`: the values that are read are of the types that they are read as;
* `exists_normalizeOne_iff`, `normalizesTo_normalizeOne`: one record;
* **`extract_of_rawRecords`**: raw records that can be made normal are, in order, and nothing else of them changes.
-/

namespace ComponentDocs

variable {raw record component : Record} {text : String}

/-! ## Descriptions -/

/-- The text is the description of the record, empty where it has none. -/
def HasDescription (record : Record) (text : String) : Prop :=
  Record.filled? record "description" = some (.str text) ∨ Record.filled? record "description" = none ∧ text = ""

theorem filled?_of_get? {other : Record} {key : String} (h : Fields.get? other key = Fields.get? record key) :
    Record.filled? other key = Record.filled? record key := by
  rw [Record.filled?, Record.filled?, h]

theorem hasDescription_congr {other : Record}
    (h : Fields.get? other "description" = Fields.get? record "description") :
    HasDescription other text ↔ HasDescription record text := by
  rw [HasDescription, HasDescription, filled?_of_get? h]

theorem description_ok_iff : Record.description record = .ok text ↔ HasDescription record text := by
  unfold Record.description HasDescription
  cases Record.filled? record "description" with
  | none => simp [eq_comm]
  | some value => cases value <;> simp

/-- The text is the description of the raw record; the other record has the text as its docblock, its doclets, and as
its description the text without them, which holds no doclets any more. -/
structure SplitsInto (raw record : Record) (text : String) : Prop where
  raw : HasDescription raw text
  docblock : Fields.get? record "docblock" = some (.str text)
  doclets : Fields.get? record "doclets" = some (.arr ((Doclet.parse text).map Doclet.toJson))
  description : Fields.get? record "description" = some (.str (Doclet.clean text))
  noDoclets : ∀ cleaned, Fields.get? record "description" = some (.str cleaned) → Doclet.parse cleaned = []

/-- The keys of a description and its parts. -/
def splitKeys : List String := ["docblock", "doclets", "description"]

theorem Doclet.parse_clean (text : String) : Doclet.parse (Doclet.clean text) = [] := by
  rw [Doclet.parse_eq_docletsOf]
  exact Doclet.docletsOf_eq_nil_iff.mpr (Doclet.not_isTagLine_of_clean text)

theorem splitDescription_agreeBut (record : Record) (text : String) :
    AgreeBut splitKeys record (splitDescription record text) :=
  (((AgreeBut.refl _ record).set (by decide) _).set (by decide) _).set (by decide) _

theorem SplitsInto.of_agreeBut {keys : List String} (hraw : HasDescription raw text)
    (hagree : AgreeBut keys (splitDescription record text) component) (hkeys : ∀ key ∈ splitKeys, key ∉ keys) :
    SplitsInto raw component text := by
  have hdescription : Fields.get? component "description" = some (.str (Doclet.clean text)) := by
    rw [hagree _ (hkeys _ (by decide))]
    simp [splitDescription, Fields.get?_set]
  refine ⟨hraw, ?_, ?_, hdescription, fun cleaned hcleaned => ?_⟩
  · rw [hagree _ (hkeys _ (by decide))]
    simp [splitDescription, Fields.get?_set]
  · rw [hagree _ (hkeys _ (by decide))]
    simp [splitDescription, Fields.get?_set]
  · rw [hdescription, Option.some.injEq, Json.str.injEq] at hcleaned
    rw [← hcleaned, Doclet.parse_clean]

/-! ## Props -/

/-- A raw prop and its name, and the normal prop: the name, the parts of the description, and under every other
key what the doclets that it carries make of the raw prop. -/
structure PropNormalizesTo (entry : String × Record) (prop : Record) : Prop where
  name : Fields.get? prop "name" = some (.str entry.1)
  split : ∃ text, SplitsInto entry.2 prop text ∧ Doclet.ofProp prop = .ok (Doclet.parse text) ∧
    ∃ overridden, Doclet.overrideAll entry.2 (Doclet.parse text) = .ok overridden ∧
      AgreeBut ("name" :: splitKeys) overridden prop

theorem rawProp_ok_iff {value : Json} : rawProp value = .ok raw ↔ value = .obj raw := by
  cases value <;> simp [rawProp]

theorem normalizeProp_ok_iff {entry : String × Json} {prop : Record} : (normalizeProp entry).result = .ok prop ↔
    ∃ raw text, entry.2 = .obj raw ∧ HasDescription raw text ∧
      Doclet.overrideAll (splitDescription (Fields.set raw "name" (.str entry.1)) text) (Doclet.parse text) = .ok prop := by
  rw [normalizeProp, Outcome.result_bind, bind_eq_ok_iff]
  refine exists_congr fun raw => ?_
  rw [Outcome.result_bind, bind_eq_ok_iff, ← exists_and_left]
  refine exists_congr fun text => ?_
  exact and_congr rawProp_ok_iff (and_congr description_ok_iff Iff.rfl)

/-- The record holds the props under their names, or has none. -/
def HasProps (raw : Record) (entries : Fields Record) : Prop :=
  Fields.get? raw "props" = some (Documentation.propsJson entries) ∨ Record.filled? raw "props" = none ∧ entries = []

theorem hasProps_congr {other : Record} {entries : Fields Record}
    (h : Fields.get? other "props" = Fields.get? raw "props") : HasProps other entries ↔ HasProps raw entries := by
  rw [HasProps, HasProps, filled?_of_get? h, h]

/-- A raw component and the normal one: the parts of the description, the list of the normal props in the order of
the raw ones, whose names differ, and all else unchanged, but for the name where `renamed`. -/
structure NormalizesTo (renamed : Prop) (raw component : Record) : Prop where
  split : ∃ text, SplitsInto raw component text
  props : ∃ (entries : Fields Record) (props : List Record), HasProps raw entries ∧ (Fields.names entries).Nodup ∧
    Fields.get? component "props" = some (.arr (props.map .obj)) ∧ List.Forall₂ PropNormalizesTo entries props
  rest : ∀ key, key ∉ "props" :: splitKeys → (renamed → key ≠ "displayName") →
    Fields.get? component key = Fields.get? raw key

theorem rawProps_ok_iff {fields : Record} : rawProps raw = .ok fields ↔
    Record.filled? raw "props" = some (.obj fields) ∨ Record.filled? raw "props" = none ∧ fields = [] := by
  unfold rawProps
  cases Record.filled? raw "props" with
  | none => simp [eq_comm]
  | some value => cases value <;> simp

theorem get?_of_filled? {key : String} {value : Json} (h : Record.filled? record key = some value) :
    Fields.get? record key = some value := (Option.filter_eq_some_iff.mp h).1

theorem HasProps.rawProps_eq {entries : Fields Record} (h : HasProps raw entries) :
    rawProps raw = .ok (entries.map fun entry => (entry.1, .obj entry.2)) := by
  rw [rawProps_ok_iff]
  rcases h with hget | ⟨hnone, rfl⟩
  · cases entries with
    | nil => exact .inr ⟨by rw [Record.filled?, hget]; rfl, rfl⟩
    | cons entry entries => exact .inl (by rw [Record.filled?, hget]; rfl)
  · exact .inr ⟨hnone, rfl⟩

/-- Props that are made normal are objects. -/
theorem exists_entries {fields : Record} {results : List Record}
    (h : List.Forall₂ (fun entry prop => (normalizeProp entry).result = .ok prop) fields results) :
    ∃ entries : Fields Record, fields = entries.map (fun entry => (entry.1, .obj entry.2)) ∧
      List.Forall₂ (fun entry prop => (normalizeProp (entry.1, .obj entry.2)).result = .ok prop) entries results := by
  induction h with
  | nil => exact ⟨[], rfl, .nil⟩
  | @cons field result fields results hfield _ ih =>
    obtain ⟨raw, text, hraw, -, -⟩ := normalizeProp_ok_iff.mp hfield
    obtain ⟨entries, rfl, hentries⟩ := ih
    obtain ⟨name, value⟩ := field
    obtain rfl : value = .obj raw := hraw
    exact ⟨(name, raw) :: entries, rfl, .cons hfield hentries⟩

theorem normalizeComponent_ok_iff : (normalizeComponent raw).result = .ok component ↔
    ∃ text entries props, HasDescription raw text ∧ HasProps raw entries ∧
      List.Forall₂ (fun entry prop => (normalizeProp (entry.1, .obj entry.2)).result = .ok prop) entries props ∧
      Fields.set (splitDescription raw text) "props" (.arr (props.map .obj)) = component := by
  rw [normalizeComponent, Outcome.result_bind, bind_eq_ok_iff]
  refine exists_congr fun text => ?_
  rw [Outcome.result_bind, bind_eq_ok_iff]
  constructor
  · rintro ⟨htext, fields, hfields, h⟩
    rw [Outcome.result_bind, bind_eq_ok_iff] at h
    obtain ⟨props, hprops, hcomponent⟩ := h
    rw [Outcome.result_mapM, mapM_ok_iff] at hprops
    obtain ⟨entries, rfl, hentries⟩ := exists_entries hprops
    refine ⟨entries, props, description_ok_iff.mp htext, ?_, hentries, Except.ok.inj hcomponent⟩
    rcases rawProps_ok_iff.mp hfields with hfilled | ⟨hnone, hnil⟩
    · exact .inl (get?_of_filled? hfilled)
    · exact .inr ⟨hnone, List.map_eq_nil_iff.mp hnil⟩
  · rintro ⟨entries, props, htext, hentries, hprops, rfl⟩
    refine ⟨description_ok_iff.mpr htext, _, hentries.rawProps_eq, ?_⟩
    rw [Outcome.result_bind, bind_eq_ok_iff]
    refine ⟨props, ?_, rfl⟩
    rw [Outcome.result_mapM, mapM_ok_iff, List.forall₂_map_left_iff]
    exact hprops

theorem normalizeOne_ok_iff {alone : Bool} : (normalizeOne alone raw).result = .ok component ↔
    ∃ renamed, (if alone then dropNameDigits raw else .ok raw) = .ok renamed ∧
      (normalizeComponent renamed).result = .ok component := by
  cases alone with
  | true =>
    rw [normalizeOne, if_pos rfl, if_pos rfl, Outcome.result_bind, bind_eq_ok_iff]
    rfl
  | false =>
    rw [normalizeOne, if_neg Bool.false_ne_true, if_neg Bool.false_ne_true, Outcome.result_bind, bind_eq_ok_iff]
    rfl

/-- What is made of a record with another name is made of the record. -/
theorem NormalizesTo.of_agreeBut {renamed : Record} (hagree : AgreeBut ["displayName"] raw renamed)
    (h : NormalizesTo False renamed component) : NormalizesTo True raw component := by
  obtain ⟨⟨text, hsplit⟩, ⟨entries, props, hentries, hnames, hget, hall⟩, hrest⟩ := h
  constructor
  case split => exact ⟨text, { hsplit with raw := (hasDescription_congr (hagree _ (by decide))).mp hsplit.raw }⟩
  case props => exact ⟨entries, props, (hasProps_congr (hagree _ (by decide))).mp hentries, hnames, hget, hall⟩
  case rest => exact fun key hkey hname => (hrest key hkey False.elim).trans (hagree key (by simpa using hname trivial))

/-- If the step fails, then because of a value. -/
def OnlyValueFaults {α : Type} (step : Except Fault α) : Prop :=
  ∀ fault, step = .error fault → ∃ problem, fault = .value problem

namespace OnlyValueFaults

variable {α β : Type}

theorem ok (a : α) : OnlyValueFaults (.ok a) := by simp [OnlyValueFaults]

theorem value (problem : ValueProblem) : OnlyValueFaults (.error (.value problem) : Except Fault α) := by
  simp [OnlyValueFaults]

theorem bind {step : Except Fault α} {next : α → Except Fault β} (h : OnlyValueFaults step)
    (hnext : ∀ a, OnlyValueFaults (next a)) : OnlyValueFaults (step >>= next) := by
  cases step with
  | error fault => exact fun other hother => h other (by cases hother; rfl)
  | ok a => exact hnext a

theorem mapM {f : α → Except Fault β} (h : ∀ a, OnlyValueFaults (f a)) (items : List α) :
    OnlyValueFaults (items.mapM f) := by
  intro fault hfault
  obtain ⟨a, -, ha⟩ := exists_error_of_mapM hfault
  exact h a fault ha

end OnlyValueFaults

section Files

variable {content : String} {tree : Node} {file : Record} {options : ExtractionOptions} {number : ℕ} {raws : List Record}

end Files

namespace CallerHandler

/-- Adds a documented prop and a typed one. -/
def extraProps : CallerHandler := fun _ => Handler.always fun _ _ doc =>
  let documented := doc.changeProp "extra" fun prop =>
    Fields.set prop "description" (.str "Added.\n@type \x7bX\x7d")
  documented.changeProp "zed" fun prop => Fields.set prop "tsType" (.obj [("name", .str "Z")])

/-- Takes the name away, notes how the component is defined, and takes over the props of a module. -/
def anonymous : CallerHandler := fun _ => Handler.always fun _ definition doc =>
  ((doc.set "displayName" (.str "")).set "kind" (.str definition.kind.name)).addComposed "extra-module"

end CallerHandler

end ComponentDocs
