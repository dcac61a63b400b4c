import ComponentDocs.Json.Basic
import ComponentDocs.Proofs.Fields

/-!
# Sound values

Values that a text can hold: no object has a name twice, and decimals have no needless zeros.

* `Json.Sound`, `Record.Sound`;
* `Record.Sound.set`, `Record.Sound.merge`, `Record.Sound.get`: writing and reading fields.
-/

namespace ComponentDocs

/-- The decimal has a place, and zeros at its end only in its first place. -/
def Decimal.Canonical (d : Decimal) : Prop := 0 < d.places ∧ (d.digits % 10 = 0 → d.places = 1)

namespace Json

mutual

/-- No object inside the value has a name twice, and its decimals are canonical. -/
def Sound : Json → Prop
  | null => True
  | bool _ => True
  | int _ => True
  | decimal value => value.Canonical
  | str _ => True
  | arr items => SoundItems items
  | obj fields => (Fields.names fields).Nodup ∧ SoundFields fields

def SoundItems : List Json → Prop
  | [] => True
  | item :: rest => item.Sound ∧ SoundItems rest

def SoundFields : List (String × Json) → Prop
  | [] => True
  | (_, value) :: rest => value.Sound ∧ SoundFields rest

end

theorem sound_str (s : String) : (str s).Sound := by simp [Sound]

theorem sound_bool (b : Bool) : (bool b).Sound := by simp [Sound]

theorem sound_arr_iff {items : List Json} : (arr items).Sound ↔ ∀ item ∈ items, item.Sound := by
  simp only [Sound]
  induction items with
  | nil => simp [SoundItems]
  | cons item rest ih => simp [SoundItems, ih]

end Json

namespace Record

/-- No name is there twice, and the values are sound. -/
structure Sound (record : Record) : Prop where
  nodup : (Fields.names record).Nodup
  values : ∀ field ∈ record, field.2.Sound

theorem sound_obj_iff {record : Record} : (Json.obj record).Sound ↔ Sound record := by
  have hfields : Json.SoundFields record ↔ ∀ field ∈ record, field.2.Sound := by
    induction record with
    | nil => simp [Json.SoundFields]
    | cons field rest ih => simp [Json.SoundFields, ih]
  rw [Json.Sound, hfields]
  exact ⟨fun h => ⟨h.1, h.2⟩, fun h => ⟨h.nodup, h.values⟩⟩

variable {record more : Record} {key : String} {value : Json}

theorem sound_nil : Sound [] := ⟨List.nodup_nil, fun _ h => absurd h List.not_mem_nil⟩

theorem Sound.cons (h : Sound record) (hkey : key ∉ Fields.names record) (hvalue : value.Sound) :
    Sound ((key, value) :: record) := by
  constructor
  · rw [Fields.names_cons]
    exact List.nodup_cons.mpr ⟨hkey, h.nodup⟩
  · intro field hfield
    rcases List.mem_cons.mp hfield with rfl | hfield
    · exact hvalue
    · exact h.values field hfield

theorem Sound.value_of_get? (h : Sound record) (hget : Fields.get? record key = some value) : value.Sound :=
  h.values _ (Fields.mem_of_get? hget)

theorem Sound.get (h : Sound record) (key : String) : (Record.get record key).Sound := by
  unfold Record.get
  cases hget : Fields.get? record key with
  | none => simp [Json.Sound]
  | some value => exact h.value_of_get? hget

theorem Sound.set (h : Sound record) (hvalue : value.Sound) : Sound (Fields.set record key value) := by
  constructor
  · exact Fields.nodup_names_set h.nodup key value
  · intro field hfield
    rcases Fields.mem_set hfield with rfl | hfield
    · exact hvalue
    · exact h.values field hfield

theorem Sound.merge (h : Sound record) (hmore : ∀ field ∈ more, field.2.Sound) : Sound (Fields.merge record more) := by
  induction more generalizing record with
  | nil => exact h
  | cons field more ih =>
    rw [Fields.merge_cons]
    exact ih (h.set (hmore field List.mem_cons_self)) fun other hother => hmore other (List.mem_cons_of_mem _ hother)

theorem Sound.setNew (h : Sound record) (hvalue : value.Sound) : Sound (Fields.setNew record key value) := by
  unfold Fields.setNew
  split_ifs with hhas
  · exact h
  · have hkey : key ∉ Fields.names record := fun hmem => hhas (Fields.has_iff.mpr hmem)
    rw [← Fields.set_of_notMem hkey]
    exact h.set hvalue

end Record

end ComponentDocs
