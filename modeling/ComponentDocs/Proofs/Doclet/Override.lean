import ComponentDocs.Doclet.Override
import ComponentDocs.Proofs.Fields
import ComponentDocs.Proofs.Traversal

/-!
# What doclets override

* `AgreeBut`: two records have the same values but for some keys;
* `Doclet.Carries`: the doclets that a prop carries; `Doclet.ofProp_of_carries`: they are read;
* `Doclet.overrideAll_agreeBut`: doclets override the type, the default and whether a prop is required;
* `Doclet.agreeBut_overrideAll`: what they make of a prop depends on little of it.
-/

namespace ComponentDocs

/-! ## Records that agree -/

/-- Two records have the same values under all keys but some. -/
def AgreeBut (keys : List String) (before after : Record) : Prop :=
  ∀ key, key ∉ keys → Fields.get? after key = Fields.get? before key

namespace AgreeBut

variable {keys : List String} {before middle after : Record}

theorem refl (keys : List String) (record : Record) : AgreeBut keys record record := fun _ _ => rfl

theorem trans (h : AgreeBut keys before middle) (h' : AgreeBut keys middle after) : AgreeBut keys before after :=
  fun key hkey => (h' key hkey).trans (h key hkey)

theorem set (h : AgreeBut keys before after) {key : String} (hkey : key ∈ keys) (value : Json) :
    AgreeBut keys before (Fields.set after key value) := by
  intro name hname
  rw [Fields.get?_set, if_neg fun heq : name = key => hname (heq ▸ hkey), h name hname]

theorem set_set (h : AgreeBut keys before after) (key : String) (value : Json) :
    AgreeBut keys (Fields.set before key value) (Fields.set after key value) := by
  intro name hname
  rw [Fields.get?_set, Fields.get?_set, h name hname]

theorem get (h : AgreeBut keys before after) {key : String} (hkey : key ∉ keys) :
    Record.get after key = Record.get before key := by
  rw [Record.get, Record.get, h key hkey]

end AgreeBut

/-! ## Values that are null -/

theorem Record.list_of_null {record : Record} {key : String} (h : Record.get record key = .null) :
    Record.list record key = [] := by
  rw [Record.get] at h
  rw [Record.list]
  cases hget : Fields.get? record key with
  | none => rfl
  | some value =>
    rw [hget, Option.getD_some] at h
    rw [h]
    rfl

theorem Record.get?_of_get_ne_null {record : Record} {key : String} (h : Record.get record key ≠ .null) :
    Fields.get? record key = some (Record.get record key) := by
  unfold Record.get at h ⊢
  cases hget : Fields.get? record key with
  | none => simp [hget] at h
  | some value => rfl

namespace Doclet

/-! ## Doclets of a prop -/

/-- The prop carries the doclets: its list holds records with their tags and values, or there is no list and there are
no doclets. -/
def Carries (prop : Record) (doclets : List Doclet) : Prop :=
  ∃ entries, (Fields.get? prop "doclets" = some (.arr entries) ∨ Record.get prop "doclets" = .null ∧ entries = []) ∧
    List.Forall₂ (fun entry doclet => Fields.get? (Json.fields entry) "tag" = some (.str doclet.tag) ∧
      Fields.get? (Json.fields entry) "value" = some (.str doclet.value)) entries doclets

theorem ofRecord_of_get? {record : Record} {tag value : String} (htag : Fields.get? record "tag" = some (.str tag))
    (hvalue : Fields.get? record "value" = some (.str value)) : ofRecord record = .ok ⟨tag, value⟩ := by
  simp [ofRecord, Record.requireText, Record.require, htag, hvalue, Except.map, Json.display, bind, Except.bind, pure,
    Except.pure]

theorem ofProp_of_carries {prop : Record} {doclets : List Doclet} (h : Carries prop doclets) :
    ofProp prop = .ok doclets := by
  obtain ⟨entries, hentries, hall⟩ := h
  have hlist : Record.list prop "doclets" = entries := by
    rcases hentries with hget | ⟨hnull, rfl⟩
    · rw [Record.list, hget]
      rfl
    · exact Record.list_of_null hnull
  rw [ofProp, hlist, mapM_ok_iff]
  exact hall.imp fun entry doclet hread => ofRecord_of_get? hread.1 hread.2

theorem Carries.of_agreeBut {prop other : Record} {doclets : List Doclet} {keys : List String}
    (h : Carries prop doclets) (hagree : AgreeBut keys prop other) (hkeys : "doclets" ∉ keys) : Carries other doclets := by
  obtain ⟨entries, hentries, hall⟩ := h
  refine ⟨entries, ?_, hall⟩
  rwa [hagree "doclets" hkeys, hagree.get hkeys]

/-! ## Doclets -/

variable {keys : List String} {prop other : Record}

/-- The keys that doclets override. -/
def overriddenKeys : List String := ["type", "required", "defaultValue"]

/-- The keys under which a prop has its annotated type. -/
def annotationKeys : List String := ["flowType", "tsType"]

/-- The keys under which a prop has its type and its annotated type. -/
def typeKeys : List String := "type" :: annotationKeys

theorem override_agreeBut (prop : Record) (doclet : Doclet) : AgreeBut overriddenKeys prop (override prop doclet) := by
  unfold override
  split_ifs
  · exact (AgreeBut.refl _ prop).set (by decide) _
  · exact (AgreeBut.refl _ prop).set (by decide) _
  · exact (AgreeBut.refl _ prop).set (by decide) _
  · exact AgreeBut.refl _ prop

theorem agreeBut_foldl (prop : Record) (doclets : List Doclet) :
    AgreeBut overriddenKeys prop (doclets.foldl override prop) :=
  List.foldlRecOn doclets override (AgreeBut.refl _ prop) fun now hnow doclet _ =>
    hnow.trans (override_agreeBut now doclet)

theorem agreeBut_override (h : AgreeBut keys prop other) (doclet : Doclet) :
    AgreeBut keys (override prop doclet) (override other doclet) := by
  unfold override
  split_ifs
  · exact h.set_set _ _
  · exact h.set_set _ _
  · exact h.set_set _ _
  · exact h

theorem agreeBut_foldl_override (h : AgreeBut keys prop other) (doclets : List Doclet) :
    AgreeBut keys (doclets.foldl override prop) (doclets.foldl override other) := by
  induction doclets generalizing prop other with
  | nil => exact h
  | cons doclet doclets ih => exact ih (agreeBut_override h doclet)

/-! ## The settled type -/

theorem settleType_of_typed (h : Record.get prop "type" ≠ .null) : settleType prop = .ok prop := by
  unfold settleType
  split
  · next htype _ => exact absurd htype h
  · rfl

theorem settleType_of_none (h : annotatedType? prop = none) : settleType prop = .ok prop := by
  unfold settleType
  split
  · next hannotated =>
    rw [h] at hannotated
    cases hannotated
  · rfl

theorem settleType_of_annotated (h : Record.get prop "type" = .null) {type : Json}
    (hannotated : annotatedType? prop = some type) :
    settleType prop = (fun copy => Fields.set prop "type" (.obj copy)) <$> type.copied.mapError Fault.value := by
  rw [settleType, h, hannotated]
  dsimp only
  cases type.copied <;> rfl

/-- A prop whose type is settled is as before, or the copy of its annotated type is its type. -/
theorem settleType_cases {result : Record} (h : settleType prop = .ok result) :
    result = prop ∨ Record.get prop "type" = .null ∧ ∃ type copy, annotatedType? prop = some type ∧
      type.copied = .ok copy ∧ result = Fields.set prop "type" (.obj copy) := by
  by_cases htype : Record.get prop "type" = .null
  · cases hannotated : annotatedType? prop with
    | none =>
      rw [settleType_of_none hannotated] at h
      exact .inl (Except.ok.inj h).symm
    | some type =>
      rw [settleType_of_annotated htype hannotated] at h
      cases hcopy : type.copied with
      | error problem =>
        rw [hcopy] at h
        cases h
      | ok copy =>
        rw [hcopy] at h
        exact .inr ⟨htype, type, copy, rfl, hcopy, (Except.ok.inj h).symm⟩
  · rw [settleType_of_typed htype] at h
    exact .inl (Except.ok.inj h).symm

theorem get?_of_settleType {result : Record} (h : settleType prop = .ok result) {key : String} (hkey : key ≠ "type") :
    Fields.get? result key = Fields.get? prop key := by
  rcases settleType_cases h with rfl | ⟨-, type, copy, -, -, rfl⟩
  · rfl
  · rw [Fields.get?_set, if_neg hkey]

theorem agreeBut_settleType (h : AgreeBut keys prop other) (hkeys : ∀ key ∈ typeKeys, key ∉ keys) {result : Record}
    (hresult : settleType prop = .ok result) :
    ∃ settled, settleType other = .ok settled ∧ AgreeBut keys result settled := by
  have htype := h.get (hkeys "type" (by decide))
  have hannotated : annotatedType? other = annotatedType? prop := by
    rw [annotatedType?, annotatedType?, h.get (hkeys "flowType" (by decide)), h.get (hkeys "tsType" (by decide))]
  unfold settleType at hresult ⊢
  rw [htype, hannotated]
  split at hresult
  · obtain ⟨copy, hcopy, hset⟩ := bind_eq_ok_iff.mp hresult
    cases hset
    exact ⟨_, bind_eq_ok_iff.mpr ⟨copy, hcopy, rfl⟩, h.set_set _ _⟩
  · cases hresult
    exact ⟨other, rfl, h⟩

/-! ## All doclets -/

theorem overrideAll_agreeBut {doclets : List Doclet} {result : Record} (h : overrideAll prop doclets = .ok result) :
    AgreeBut overriddenKeys prop result :=
  (agreeBut_foldl prop doclets).trans fun _ hkey => get?_of_settleType h fun heq => hkey (heq ▸ by decide)

/-- What doclets make of a prop depends on nothing but the keys that they override and the annotated types. -/
theorem agreeBut_overrideAll (h : AgreeBut keys prop other) (hkeys : ∀ key ∈ typeKeys, key ∉ keys)
    {doclets : List Doclet} {result : Record} (hresult : overrideAll prop doclets = .ok result) :
    ∃ overridden, overrideAll other doclets = .ok overridden ∧ AgreeBut keys result overridden :=
  agreeBut_settleType (agreeBut_foldl_override h doclets) hkeys hresult

end Doclet

end ComponentDocs
