import ComponentDocs.Proofs.Doclet.Override
import ComponentDocs.Proofs.Text.Case

/-!
# The last doclet wins

What the doclets that a prop carries make of it, field by field.

* `last?`: the last doclet of a kind; `Overridden`: each field comes from the last doclet that sets it;
* `get?_foldl_override`: a field after some doclets;
* `TakesRecord`, `overridden_overrideAll`: what doclets make of a prop that takes no annotated type but objects;
* `overrideAll_overrideAll`: a second application changes nothing;
* `KeepsOrder`: doclets in an order that differs between fields only;
* **`overrideAll_by_last`**: all of it together.
-/

namespace ComponentDocs.Doclet

open Text

/-! ## Fields -/

/-- The doclet sets the type. -/
def SetsType (doclet : Doclet) : Prop := doclet.tag = "type"

/-- The doclet says whether the prop is required. -/
def SetsRequired (doclet : Doclet) : Prop := doclet.tag = "required"

/-- The doclet sets the default: it has one of two tags, and a value. -/
def SetsDefault (doclet : Doclet) : Prop := (doclet.tag = "default" ∨ doclet.tag = "defaultValue") ∧ doclet.value ≠ ""

instance : DecidablePred SetsType := fun _ => inferInstanceAs (Decidable (_ = _))
instance : DecidablePred SetsRequired := fun _ => inferInstanceAs (Decidable (_ = _))
instance : DecidablePred SetsDefault := fun _ => inferInstanceAs (Decidable (_ ∧ _))

/-- The last doclet of a kind. -/
def last? (kind : Doclet → Prop) [DecidablePred kind] (doclets : List Doclet) : Option Doclet :=
  (doclets.filter kind).getLast?

/-- The record is what the doclets make of a prop: every field comes from the last doclet that sets it, the type else
from the prop or, if it has none, from its annotations, and all else from the prop. -/
structure Overridden (prop : Record) (doclets : List Doclet) (result : Record) : Prop where
  type_written : ∀ doclet, last? SetsType doclets = some doclet →
    Fields.get? result "type" = some (WrittenType.parse doclet.value).toJson
  type_kept : last? SetsType doclets = none → Record.get prop "type" ≠ .null →
    Fields.get? result "type" = Fields.get? prop "type"
  type_flow : last? SetsType doclets = none → Record.get prop "type" = .null → Record.get prop "flowType" ≠ .null →
    Fields.get? result "type" = Fields.get? prop "flowType"
  type_ts : last? SetsType doclets = none → Record.get prop "type" = .null → Record.get prop "flowType" = .null →
    Record.get prop "tsType" ≠ .null → Fields.get? result "type" = Fields.get? prop "tsType"
  type_absent : last? SetsType doclets = none → Record.get prop "type" = .null → Record.get prop "flowType" = .null →
    Record.get prop "tsType" = .null → Fields.get? result "type" = Fields.get? prop "type"
  required : Fields.get? result "required" = ((last? SetsRequired doclets).map fun doclet =>
    .bool (lower (trim doclet.value.toList) ≠ "false".toList)).or (Fields.get? prop "required")
  default : Fields.get? result "defaultValue" = ((last? SetsDefault doclets).map fun doclet =>
    .obj [("value", .str doclet.value), ("computed", .bool false)]).or (Fields.get? prop "defaultValue")
  others : AgreeBut overriddenKeys prop result

section

variable {prop : Record} {doclets : List Doclet}

theorem last?_concat (kind : Doclet → Prop) [DecidablePred kind] (doclets : List Doclet) (doclet : Doclet) :
    last? kind (doclets ++ [doclet]) = if kind doclet then some doclet else last? kind doclets := by
  rw [last?, List.filter_append]
  split_ifs with h
  · rw [List.filter_cons_of_pos (by simpa using h), List.filter_nil, List.getLast?_concat]
  · rw [List.filter_cons_of_neg (by simpa using h), List.filter_nil, List.append_nil, last?]

/-- A field that a kind of doclets sets has, after some doclets, the value of the last one of the kind. -/
theorem get?_foldl_override {key : String} {kind : Doclet → Prop} [DecidablePred kind] {value : Doclet → Json}
    (hstep : ∀ prop doclet, Fields.get? (override prop doclet) key =
      if kind doclet then some (value doclet) else Fields.get? prop key) (prop : Record) (doclets : List Doclet) :
    Fields.get? (doclets.foldl override prop) key = ((last? kind doclets).map value).or (Fields.get? prop key) := by
  induction doclets using List.reverseRecOn with
  | nil => rfl
  | append_singleton doclets doclet ih =>
    rw [List.foldl_append, List.foldl_cons, List.foldl_nil, hstep, last?_concat]
    split_ifs
    · rfl
    · exact ih

theorem get?_override_type (prop : Record) (doclet : Doclet) : Fields.get? (override prop doclet) "type" =
    if SetsType doclet then some (WrittenType.parse doclet.value).toJson else Fields.get? prop "type" := by
  by_cases h : SetsType doclet
  · have htag : doclet.tag = "type" := h
    rw [if_pos h, override, if_pos htag, Fields.get?_set, if_pos rfl]
  · have htag : ¬ doclet.tag = "type" := h
    rw [if_neg h, override, if_neg htag]
    split_ifs <;> simp [Fields.get?_set]

theorem requires_eq (value : String) : requires value = decide (lower (trim value.toList) ≠ "false".toList) := by
  have hword : "false".toList.all fun c => decide (c.toNat < 128 ∧ c ≠ 'i' ∧ c ≠ 'k') := by decide
  rw [requires, decide_eq_decide, Ne, Ne, lower_eq_iff fun c hc => of_decide_eq_true (List.all_eq_true.mp hword c hc)]

theorem get?_override_required (prop : Record) (doclet : Doclet) : Fields.get? (override prop doclet) "required" =
    if SetsRequired doclet then some (.bool (lower (trim doclet.value.toList) ≠ "false".toList))
    else Fields.get? prop "required" := by
  rw [← requires_eq]
  by_cases h : SetsRequired doclet
  · have htag : doclet.tag = "required" := h
    rw [if_pos h, override, if_neg (by simp [htag]), if_pos htag, Fields.get?_set, if_pos rfl]
  · have htag : ¬ doclet.tag = "required" := h
    rw [if_neg h, override, if_neg htag]
    split_ifs <;> simp [Fields.get?_set]

theorem get?_override_default (prop : Record) (doclet : Doclet) : Fields.get? (override prop doclet) "defaultValue" =
    if SetsDefault doclet then some (.obj [("value", .str doclet.value), ("computed", .bool false)])
    else Fields.get? prop "defaultValue" := by
  by_cases h : SetsDefault doclet
  · have hset : (doclet.tag = "default" ∨ doclet.tag = "defaultValue") ∧ doclet.value ≠ "" := h
    have hother : doclet.tag ≠ "type" ∧ doclet.tag ≠ "required" := by
      rcases h.1 with htag | htag <;> simp [htag]
    rw [if_pos h, override, if_neg hother.1, if_neg hother.2, if_pos hset, Fields.get?_set, if_pos rfl]
    rfl
  · have hset : ¬ ((doclet.tag = "default" ∨ doclet.tag = "defaultValue") ∧ doclet.value ≠ "") := h
    rw [if_neg h, override, if_neg hset]
    split_ifs <;> simp [Fields.get?_set]

/-! ## The type -/

theorem annotatedType?_of_flow (h : Record.get prop "flowType" ≠ .null) :
    annotatedType? prop = some (Record.get prop "flowType") := by
  unfold annotatedType?
  split
  · next hflow _ => exact absurd hflow h
  · next hflow _ => exact absurd hflow h
  · rfl

theorem annotatedType?_of_ts (hflow : Record.get prop "flowType" = .null) (h : Record.get prop "tsType" ≠ .null) :
    annotatedType? prop = some (Record.get prop "tsType") := by
  rw [annotatedType?, hflow]
  split
  · next hts => exact absurd hts h
  · rfl
  · next hne _ => exact absurd rfl hne

theorem annotatedType?_of_null (hflow : Record.get prop "flowType" = .null) (hts : Record.get prop "tsType" = .null) :
    annotatedType? prop = none := by
  rw [annotatedType?, hflow, hts]

theorem annotatedType?_eq {type : Json} (h : annotatedType? prop = some type) :
    ∃ key ∈ annotationKeys, type = Record.get prop key := by
  unfold annotatedType? at h
  split at h
  · cases h
  · exact ⟨"tsType", by decide, by simp_all⟩
  · exact ⟨"flowType", by decide, by simp_all⟩

/-- A prop without a type takes the annotated one as it is, if that is an object. -/
theorem settleType_of_untyped (hrecord : ∀ type, annotatedType? prop = some type → ∃ fields, type = .obj fields)
    (h : Record.get prop "type" = .null) :
    settleType prop = .ok ((annotatedType? prop).elim prop fun type => Fields.set prop "type" type) := by
  cases htype : annotatedType? prop with
  | none => exact settleType_of_none htype
  | some type =>
    obtain ⟨fields, rfl⟩ := hrecord type htype
    rw [settleType_of_annotated h htype]
    rfl

theorem toJson_ne_null (type : WrittenType) : type.toJson ≠ .null := by
  cases type <;> simp [WrittenType.toJson]

/-! ## All doclets -/

theorem get?_foldl_type (prop : Record) (doclets : List Doclet) : Fields.get? (doclets.foldl override prop) "type" =
    ((last? SetsType doclets).map fun doclet => (WrittenType.parse doclet.value).toJson).or (Fields.get? prop "type") :=
  get?_foldl_override get?_override_type prop doclets

/-- Where a doclet sets the type, the doclets are all that counts. -/
theorem overrideAll_of_last {doclet : Doclet} (h : last? SetsType doclets = some doclet) (prop : Record) :
    overrideAll prop doclets = .ok (doclets.foldl override prop) := by
  refine settleType_of_typed ?_
  rw [Record.get, get?_foldl_type, h]
  exact toJson_ne_null _

theorem exists_overrideAll_type {doclet : Doclet} (h : last? SetsType doclets = some doclet) (prop : Record) :
    ∃ result, overrideAll prop doclets = .ok result ∧
      Fields.get? result "type" = some (WrittenType.parse doclet.value).toJson := by
  refine ⟨_, overrideAll_of_last h prop, ?_⟩
  rw [get?_foldl_type, h]
  rfl

theorem get?_foldl_type_of_none (h : last? SetsType doclets = none) (prop : Record) :
    Fields.get? (doclets.foldl override prop) "type" = Fields.get? prop "type" := by
  rw [get?_foldl_type, h]
  rfl

theorem annotatedType?_foldl (prop : Record) (doclets : List Doclet) :
    annotatedType? (doclets.foldl override prop) = annotatedType? prop := by
  have hagree := agreeBut_foldl prop doclets
  rw [annotatedType?, annotatedType?, hagree.get (by decide), hagree.get (by decide)]

/-- An annotated type that becomes the type of the prop is an object. -/
def TakesRecord (prop : Record) (doclets : List Doclet) : Prop :=
  last? SetsType doclets = none → Record.get prop "type" = .null →
    ∀ type, annotatedType? prop = some type → ∃ fields, type = .obj fields

theorem exists_overrideAll (h : TakesRecord prop doclets) : ∃ result, overrideAll prop doclets = .ok result := by
  cases hlast : last? SetsType doclets with
  | some doclet => exact ⟨_, overrideAll_of_last hlast prop⟩
  | none =>
    have hkept := get?_foldl_type_of_none hlast prop
    by_cases hprop : Record.get prop "type" = .null
    · have hrecord := h hlast hprop
      rw [← annotatedType?_foldl prop doclets] at hrecord
      exact ⟨_, settleType_of_untyped hrecord (by rwa [Record.get, hkept])⟩
    · exact ⟨_, settleType_of_typed (by rwa [Record.get, hkept])⟩

theorem get?_type_of_typed {result : Record} (h : overrideAll prop doclets = .ok result)
    (hnone : last? SetsType doclets = none) (hprop : Record.get prop "type" ≠ .null) :
    Fields.get? result "type" = Fields.get? prop "type" := by
  have hkept := get?_foldl_type_of_none hnone prop
  rw [overrideAll, settleType_of_typed (by rwa [Record.get, hkept])] at h
  rw [← Except.ok.inj h, hkept]

theorem get?_type_of_untyped {result : Record} (h : overrideAll prop doclets = .ok result)
    (hrecord : TakesRecord prop doclets) (hnone : last? SetsType doclets = none)
    (hprop : Record.get prop "type" = .null) :
    Fields.get? result "type" = (annotatedType? prop).or (Fields.get? prop "type") := by
  have hkept := get?_foldl_type_of_none hnone prop
  have hsame := annotatedType?_foldl prop doclets
  have hrecord := hrecord hnone hprop
  rw [← hsame] at hrecord
  rw [overrideAll, settleType_of_untyped hrecord (by rwa [Record.get, hkept]), hsame] at h
  rw [← Except.ok.inj h]
  cases annotatedType? prop with
  | none => exact hkept
  | some type => exact (Fields.get?_set ..).trans (if_pos rfl)

/-- **Every field comes from the last doclet that sets it.** -/
theorem overridden_overrideAll {result : Record} (h : overrideAll prop doclets = .ok result)
    (hrecord : TakesRecord prop doclets) : Overridden prop doclets result := by
  constructor
  case type_written =>
    intro doclet hlast
    obtain ⟨typed, htyped, htype⟩ := exists_overrideAll_type hlast prop
    rwa [← Except.ok.inj (htyped.symm.trans h)]
  case type_kept => exact get?_type_of_typed h
  case type_flow =>
    intro hnone hprop hne
    rw [get?_type_of_untyped h hrecord hnone hprop, annotatedType?_of_flow hne, Record.get?_of_get_ne_null hne,
      Option.some_or]
  case type_ts =>
    intro hnone hprop hnull hne
    rw [get?_type_of_untyped h hrecord hnone hprop, annotatedType?_of_ts hnull hne, Record.get?_of_get_ne_null hne,
      Option.some_or]
  case type_absent =>
    intro hnone hprop hflow hts
    rw [get?_type_of_untyped h hrecord hnone hprop, annotatedType?_of_null hflow hts, Option.none_or]
  case required =>
    rw [get?_of_settleType h (by decide)]
    exact get?_foldl_override get?_override_required prop doclets
  case default =>
    rw [get?_of_settleType h (by decide)]
    exact get?_foldl_override get?_override_default prop doclets
  case others => exact overrideAll_agreeBut h

/-! ## A second application -/

/-- The field that a doclet sets and the value it sets there. -/
def setting? (doclet : Doclet) : Option (String × Json) :=
  if doclet.tag = "type" then some ("type", (WrittenType.parse doclet.value).toJson)
  else if doclet.tag = "required" then some ("required", .bool (requires doclet.value))
  else if (doclet.tag = "default" ∨ doclet.tag = "defaultValue") ∧ doclet.value ≠ "" then
    some ("defaultValue", defaultValue doclet.value false)
  else none

theorem override_eq (prop : Record) (doclet : Doclet) :
    override prop doclet = (setting? doclet).elim prop fun field => Fields.set prop field.1 field.2 := by
  unfold override setting?
  split_ifs <;> rfl

/-- Doclets write their fields one after the other. -/
theorem foldl_override_eq (prop : Record) (doclets : List Doclet) :
    doclets.foldl override prop = Fields.merge prop (doclets.filterMap setting?) := by
  induction doclets generalizing prop with
  | nil => rfl
  | cons doclet doclets ih =>
    rw [List.foldl_cons, ih, override_eq, List.filterMap_cons]
    cases setting? doclet <;> rfl

theorem ne_null_of_setting? {doclet : Doclet} {value : Json} (h : setting? doclet = some ("type", value)) :
    value ≠ .null := by
  unfold setting? at h
  split_ifs at h
  all_goals simp only [Option.some.injEq, Prod.mk.injEq] at h
  · exact h.2 ▸ toJson_ne_null _
  · exact absurd h.1 (by decide)
  · exact absurd h.1 (by decide)

/-- Doclets that leave a prop without a type do not set it. -/
theorem type_notMem_of_null (h : Record.get (doclets.foldl override prop) "type" = .null) :
    "type" ∉ Fields.names (doclets.filterMap setting?) := by
  intro hmem
  have hreverse : Fields.has (doclets.filterMap setting?).reverse "type" = true :=
    Fields.has_iff.mpr (by rwa [Fields.names, List.map_reverse, List.mem_reverse])
  obtain ⟨value, hvalue⟩ := Option.isSome_iff_exists.mp hreverse
  obtain ⟨doclet, -, hset⟩ := List.mem_filterMap.mp (List.mem_reverse.mp (Fields.mem_of_get? hvalue))
  rw [Record.get, foldl_override_eq, Fields.get?_merge, hvalue] at h
  exact ne_null_of_setting? hset h

/-- **A second application changes nothing.** -/
theorem overrideAll_overrideAll {result : Record} (h : overrideAll prop doclets = .ok result) :
    overrideAll result doclets = .ok result := by
  have hagain : doclets.foldl override (doclets.foldl override prop) = doclets.foldl override prop := by
    rw [foldl_override_eq, foldl_override_eq, Fields.merge_merge_self]
  rcases settleType_cases h with hresult | ⟨htype, type, copy, -, -, hresult⟩
  · rw [hresult, overrideAll, hagain]
    exact h.trans (congrArg Except.ok hresult)
  · -- the annotated type stands where no doclet writes, so it may be written after the doclets
    have hwritten : doclets.foldl override result = result := by
      conv_lhs => rw [foldl_override_eq, hresult]
      rw [Fields.merge_set_of_notMem _ (type_notMem_of_null htype), ← foldl_override_eq, hagain, hresult]
      rw [foldl_override_eq]
      exact Fields.subset_names_merge _ _
    rw [overrideAll, hwritten]
    refine settleType_of_typed ?_
    rw [hresult, Record.get, Fields.get?_set, if_pos rfl, Option.getD_some]
    simp

/-! ## Other orders -/

/-- The doclets that set one field are the same in both lists and in one order: the lists differ only in how doclets of
different fields, and doclets that set nothing, stand to each other. -/
structure KeepsOrder (doclets others : List Doclet) : Prop where
  type : others.filter SetsType = doclets.filter SetsType
  required : others.filter SetsRequired = doclets.filter SetsRequired
  default : others.filter SetsDefault = doclets.filter SetsDefault

/-- **The order of doclets that set different fields does not count.** -/
theorem agreeBut_overrideAll_of_keepsOrder {others : List Doclet} (h : KeepsOrder doclets others) {result : Record}
    (hresult : overrideAll prop doclets = .ok result) :
    ∃ reordered, overrideAll prop others = .ok reordered ∧ AgreeBut [] result reordered := by
  refine agreeBut_settleType (fun key _ => ?_) (by simp) hresult
  by_cases hkey : key ∈ overriddenKeys
  · simp only [overriddenKeys, List.mem_cons, List.not_mem_nil, or_false] at hkey
    rcases hkey with rfl | rfl | rfl
    · rw [get?_foldl_type, get?_foldl_type, last?, h.type, last?]
    · rw [get?_foldl_override get?_override_required, get?_foldl_override get?_override_required, last?, h.required, last?]
    · rw [get?_foldl_override get?_override_default, get?_foldl_override get?_override_default, last?, h.default, last?]
  · rw [agreeBut_foldl prop others key hkey, agreeBut_foldl prop doclets key hkey]

/-- **The last doclet of a field wins.** The doclets that a prop carries are read, and every field comes from the last
one that sets it. They stay in the prop, and applying them again changes nothing. A prop that differs only in the
order of doclets that set different fields becomes the same but for its list of doclets. -/
theorem overrideAll_by_last (h : Carries prop doclets) (hrecord : TakesRecord prop doclets) :
    ofProp prop = .ok doclets ∧ ∃ result, overrideAll prop doclets = .ok result ∧ Overridden prop doclets result ∧
      (ofProp result = .ok doclets ∧ overrideAll result doclets = .ok result) ∧
      ∀ other others, AgreeBut ["doclets"] prop other → Carries other others → KeepsOrder doclets others →
        ofProp other = .ok others ∧
          ∃ reordered, overrideAll other others = .ok reordered ∧ AgreeBut ["doclets"] result reordered := by
  obtain ⟨result, hresult⟩ := exists_overrideAll hrecord
  refine ⟨ofProp_of_carries h, result, hresult, overridden_overrideAll hresult hrecord,
    ⟨ofProp_of_carries (h.of_agreeBut (overrideAll_agreeBut hresult) (by decide)), overrideAll_overrideAll hresult⟩,
    fun other others hother hcarries horder => ⟨ofProp_of_carries hcarries, ?_⟩⟩
  obtain ⟨reordered, hreordered, hagree⟩ := agreeBut_overrideAll_of_keepsOrder horder hresult
  obtain ⟨overridden, hoverridden, hagree'⟩ := agreeBut_overrideAll hother (by decide) hreordered
  exact ⟨overridden, hoverridden, AgreeBut.trans (fun key _ => hagree key (by simp)) hagree'⟩

end

/-- A prop with several doclets for each field. -/
def mixedDoclets : List Doclet :=
  [⟨"type", "\x7b(A|B)\x7d"⟩, ⟨"default", "1"⟩, ⟨"required", "yes"⟩, ⟨"type", "\x7b('s'|\"m\")\x7d"⟩, ⟨"see", "below"⟩,
    ⟨"defaultValue", "2"⟩, ⟨"required", " False "⟩, ⟨"default", ""⟩]

/-- The same doclets field by field. -/
def sortedDoclets : List Doclet :=
  [⟨"type", "\x7b(A|B)\x7d"⟩, ⟨"type", "\x7b('s'|\"m\")\x7d"⟩, ⟨"required", "yes"⟩, ⟨"required", " False "⟩, ⟨"default", ""⟩,
    ⟨"default", "1"⟩, ⟨"defaultValue", "2"⟩, ⟨"see", "below"⟩]

/-- A prop with a Flow type and doclets. -/
def propWith (doclets : List Doclet) : Record :=
  [("flowType", .obj [("name", .str "number")]), ("required", .bool true),
    ("doclets", .arr (doclets.map toJson))]

theorem carries_propWith (doclets : List Doclet) : Carries (propWith doclets) doclets := by
  refine ⟨doclets.map toJson, .inl rfl, ?_⟩
  rw [List.forall₂_map_left_iff, List.forall₂_same]
  exact fun doclet _ => ⟨rfl, rfl⟩

theorem takesRecord_propWith (doclets : List Doclet) : TakesRecord (propWith doclets) doclets := by
  intro _ _ type htype
  exact ⟨_, (Option.some.inj htype).symm⟩

theorem overrideAll_mixedDoclets :
    Carries (propWith mixedDoclets) mixedDoclets ∧ Carries (propWith sortedDoclets) sortedDoclets ∧
    KeepsOrder mixedDoclets sortedDoclets ∧ AgreeBut ["doclets"] (propWith mixedDoclets) (propWith sortedDoclets) ∧
    TakesRecord (propWith mixedDoclets) mixedDoclets ∧
    (∀ doclets ∈ [mixedDoclets, sortedDoclets], ∃ result, overrideAll (propWith doclets) doclets = .ok result ∧
      Fields.get? result "type" = some (WrittenType.enum ["'s'", "\"m\""]).toJson ∧
      Fields.get? result "required" = some (.bool false) ∧
      Fields.get? result "defaultValue" = some (.obj [("value", .str "2"), ("computed", .bool false)])) ∧
    ∃ result, overrideAll (propWith []) [] = .ok result ∧
      Fields.get? result "type" = some (.obj [("name", .str "number")]) := by
  have horder : KeepsOrder mixedDoclets sortedDoclets := ⟨by decide, by decide, by decide⟩
  have hagree : AgreeBut ["doclets"] (propWith mixedDoclets) (propWith sortedDoclets) := by
    intro key hkey
    rw [List.mem_singleton] at hkey
    simp [propWith, Fields.get?, Ne.symm hkey]
  obtain ⟨-, result, hresult, hmixed, -, hothers⟩ :=
    overrideAll_by_last (carries_propWith mixedDoclets) (takesRecord_propWith mixedDoclets)
  obtain ⟨-, reordered, hreordered, hsorted⟩ := hothers _ _ hagree (carries_propWith sortedDoclets) horder
  have hparsed : WrittenType.parse "\x7b('s'|\"m\")\x7d" = .enum ["'s'", "\"m\""] := by decide +kernel
  have htype : Fields.get? result "type" = some (WrittenType.enum ["'s'", "\"m\""]).toJson := by
    rw [hmixed.type_written ⟨"type", "\x7b('s'|\"m\")\x7d"⟩ (by decide), hparsed]
  have hrequired : Fields.get? result "required" = some (.bool false) := by
    rw [hmixed.required, show last? SetsRequired mixedDoclets = some ⟨"required", " False "⟩ by decide]
    have hfalse : decide (lower (trim " False ".toList) ≠ "false".toList) = false := by decide +kernel
    simp only [Option.map_some, hfalse, Option.some_or]
  have hdefault : Fields.get? result "defaultValue" = some (.obj [("value", .str "2"), ("computed", .bool false)]) := by
    rw [hmixed.default, show last? SetsDefault mixedDoclets = some ⟨"defaultValue", "2"⟩ by decide]
    rfl
  obtain ⟨-, taken, htaken, hflow, -⟩ := overrideAll_by_last (carries_propWith []) (takesRecord_propWith [])
  refine ⟨carries_propWith _, carries_propWith _, horder, hagree, takesRecord_propWith _,
    fun doclets hdoclets => ?_, taken, htaken, hflow.type_flow rfl rfl (by simp [propWith, Record.get, Fields.get?])⟩
  simp only [List.mem_cons, List.not_mem_nil, or_false] at hdoclets
  rcases hdoclets with rfl | rfl
  · exact ⟨result, hresult, htype, hrequired, hdefault⟩
  · refine ⟨reordered, hreordered, ?_⟩
    rw [hsorted "type" (by decide), hsorted "required" (by decide), hsorted "defaultValue" (by decide)]
    exact ⟨htype, hrequired, hdefault⟩

end ComponentDocs.Doclet
