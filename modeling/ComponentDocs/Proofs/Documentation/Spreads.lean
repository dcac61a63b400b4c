import ComponentDocs.Documentation.Members
import ComponentDocs.Proofs.Source.Chain
import Mathlib.Data.ENat.Basic

/-!
# Literals in literals

What an object literal consists of when other literals of the source are spread into it.

* `SourceFile.SpreadsObject`: an entry spreads an object literal that its argument stands for;
* `SourceFile.FlatPairs`: the keyed values of a literal, those of the literals in it in their place;
* `entryMembers_object`, `entryMembers_argument`: what a spread stands for, by what its argument stands for;
* **`flatPairs_membersWithin`**: the keyed values are found if the literals are nested deep enough only;
* **`length_members_le`**: however names refer to each other, there is a last entry.
-/

namespace ComponentDocs.SourceFile

variable (src : SourceFile)

/-! ## What is spread -/

/-- The entry spreads an object literal: its argument stands for the literal when at most `limit` names are replaced by
their values. -/
def SpreadsObject (limit : ℕ∞) (entry object : Cursor) : Prop :=
  entry.kind = "spread_element" ∧ object.kind = "object" ∧
    ∃ (argument : Cursor) (count : ℕ), entry.parts.head? = some argument ∧ count ≤ limit ∧
      src.BindingChain count argument object

/-- The literals that are spread into an object literal are nested at most `depth` deep. -/
def NestsWithin (limit : ℕ∞) : ℕ → Cursor → Prop
  | 0, object => ∀ entry ∈ object.namedChildren, ∀ inner, ¬ src.SpreadsObject limit entry inner
  | depth + 1, object => ∀ entry ∈ object.namedChildren, ∀ inner, src.SpreadsObject limit entry inner →
      NestsWithin limit depth inner

/-- The keyed values of some entries, those of each literal that is spread in the place of its spread. -/
inductive FlatPairs (limit : ℕ∞) : List Cursor → List Cursor → Prop
  | nil : FlatPairs limit [] []
  | keyed {entry : Cursor} {rest pairs : List Cursor} (hkind : entry.kind = "pair") (h : FlatPairs limit rest pairs) :
      FlatPairs limit (entry :: rest) (entry :: pairs)
  | spread {entry object : Cursor} {rest inner pairs : List Cursor} (hspread : src.SpreadsObject limit entry object)
      (hinner : FlatPairs limit object.namedChildren inner) (h : FlatPairs limit rest pairs) :
      FlatPairs limit (entry :: rest) (inner ++ pairs)
  | other {entry : Cursor} {rest pairs : List Cursor} (hkind : entry.kind ≠ "pair")
      (hspread : ∀ object, ¬ src.SpreadsObject limit entry object) (h : FlatPairs limit rest pairs) :
      FlatPairs limit (entry :: rest) pairs

variable {src} {limit : ℕ∞} {entry object argument : Cursor} {depth : ℕ}

theorem isChainEnd_of_object (h : object.kind = "object") : src.IsChainEnd object :=
  isChainEnd_of_kind (by rw [h]; decide) (by rw [h]; decide)

theorem SpreadsObject.eq {other : Cursor} (h : src.SpreadsObject limit entry object)
    (hother : src.SpreadsObject limit entry other) : object = other := by
  obtain ⟨-, hkind, argument, count, hargument, -, hobject⟩ := h
  obtain ⟨-, hkind', argument', count', hargument', -, hobject'⟩ := hother
  rw [hargument] at hargument'
  cases hargument'
  exact hobject.eq_of_isChainEnd (isChainEnd_of_object hkind) hobject' (isChainEnd_of_object hkind')

theorem SpreadsObject.not_pair (h : src.SpreadsObject limit entry object) : entry.kind ≠ "pair" := by
  exact fun hpair => absurd (h.1.symm.trans hpair) (by decide)

/-- Entries have one list of keyed values. -/
theorem FlatPairs.eq {entries pairs others : List Cursor} (h : src.FlatPairs limit entries pairs)
    (hothers : src.FlatPairs limit entries others) : others = pairs := by
  induction h generalizing others with
  | nil => cases hothers; rfl
  | keyed hkind _ ih =>
    cases hothers with
    | keyed _ hothers => rw [ih hothers]
    | spread hspread => exact absurd hkind hspread.not_pair
    | other hother => exact absurd hkind hother
  | spread hspread _ _ ihinner ih =>
    cases hothers with
    | keyed hkind => exact absurd hkind hspread.not_pair
    | spread hspread' hinner hothers =>
      obtain rfl := hspread.eq hspread'
      rw [ihinner hinner, ih hothers]
    | other _ hnone => exact absurd hspread (hnone _)
  | other hkind hnone _ ih =>
    cases hothers with
    | keyed hkind' => exact absurd hkind' hkind
    | spread hspread => exact absurd hspread (hnone _)
    | other _ _ hothers => exact ih hothers

theorem SpreadsObject.mem_walk (h : src.SpreadsObject limit entry object) (hentry : entry ∈ src.top.walk) :
    object ∈ src.top.walk := by
  obtain ⟨-, -, argument, count, hargument, -, hobject⟩ := h
  exact hobject.mem_walk (Cursor.parts_subset_walk hentry (List.mem_of_mem_head? hargument))

theorem nestsWithin_of_not_spread (h : ∀ entry ∈ object.namedChildren, entry.kind ≠ "spread_element") :
    src.NestsWithin limit depth object := by
  cases depth with
  | zero => exact fun entry hentry _ hspread => h entry hentry hspread.1
  | succ depth => exact fun entry hentry _ hspread => absurd hspread.1 (h entry hentry)

theorem FlatPairs.mem_walk {entries pairs : List Cursor} (h : src.FlatPairs limit entries pairs)
    (hentries : ∀ entry ∈ entries, entry ∈ src.top.walk) : ∀ pair ∈ pairs, pair ∈ src.top.walk ∧ pair.kind = "pair" := by
  induction h with
  | nil => exact fun _ hpair => absurd hpair List.not_mem_nil
  | keyed hkind _ ih =>
    obtain ⟨hentry, hrest⟩ := List.forall_mem_cons.mp hentries
    exact List.forall_mem_cons.mpr ⟨⟨hentry, hkind⟩, ih hrest⟩
  | spread hspread _ _ ihinner ih =>
    obtain ⟨hentry, hrest⟩ := List.forall_mem_cons.mp hentries
    exact List.forall_mem_append.mpr
      ⟨ihinner fun _ => Cursor.namedChildren_subset_walk (hspread.mem_walk hentry), ih hrest⟩
  | other _ _ _ ih => exact ih (List.forall_mem_cons.mp hentries).2

/-- A literal is spread if it is the value behind the argument. -/
theorem spreadsObject_iff : src.SpreadsObject resolveLimit entry object ↔ entry.kind = "spread_element" ∧
    object.kind = "object" ∧ ∃ argument, entry.parts.head? = some argument ∧ src.resolve argument = object := by
  refine and_congr_right fun _ => and_congr_right fun hkind => exists_congr fun argument => ?_
  rw [resolve_eq_iff (isChainEnd_of_object hkind)]
  simp only [Nat.cast_le, exists_and_left]

/-! ## Entry by entry -/

theorem entryMembers_keyed (spread : Cursor → List Member) (hkind : entry.kind = "pair") :
    entryMembers spread entry = [.keyed entry] := if_pos hkind

theorem entryMembers_spread (spread : Cursor → List Member) (hkind : entry.kind = "spread_element") :
    entryMembers spread entry = (entry.parts.head?.map spread).getD [] := by
  rw [entryMembers, if_neg (by rw [hkind]; decide), if_neg (by rw [hkind]; decide), if_pos hkind]

theorem entryMembers_other (spread : Cursor → List Member) (hpair : entry.kind ≠ "pair")
    (hspread : entry.kind ≠ "spread_element") : entryMembers spread entry =
      if entry.kind = "shorthand_property_identifier" then [.shorthand entry] else [] := by
  rw [entryMembers, if_neg hpair, if_neg hspread]

/-- A literal is entered in the place of its spread. -/
theorem entryMembers_object (h : src.SpreadsObject resolveLimit entry object) :
    entryMembers (src.spreadMembers (depth + 1)) entry = src.membersWithin depth object := by
  obtain ⟨hkind, hobject, argument, hargument, rfl⟩ := spreadsObject_iff.mp h
  rw [entryMembers_spread _ hkind, hargument]
  exact if_pos hobject

/-- A spread that is not entered stays. -/
theorem entryMembers_argument (hkind : entry.kind = "spread_element") (hargument : entry.parts.head? = some argument)
    (h : depth = 0 ∨ ∀ object, ¬ src.SpreadsObject resolveLimit entry object) :
    entryMembers (src.spreadMembers depth) entry = [.spread argument] := by
  rw [entryMembers_spread _ hkind, hargument]
  cases depth with
  | zero => rfl
  | succ depth =>
    refine if_neg fun hobject => ?_
    exact h.resolve_left (Nat.succ_ne_zero depth) _ (spreadsObject_iff.mpr ⟨hkind, hobject, argument, hargument, rfl⟩)

/-! ## Keyed values -/

/-- The keyed value that an entry is. -/
def pair? : Member → Option Cursor
  | .keyed pair => some pair
  | _ => none

theorem filterMap_entryMembers_other (hpair : entry.kind ≠ "pair")
    (h : depth = 0 ∨ ∀ object, ¬ src.SpreadsObject resolveLimit entry object) :
    (entryMembers (src.spreadMembers depth) entry).filterMap pair? = [] := by
  by_cases hkind : entry.kind = "spread_element"
  · cases hargument : entry.parts.head? with
    | none =>
      rw [entryMembers_spread _ hkind, hargument]
      rfl
    | some argument =>
      rw [entryMembers_argument hkind hargument h]
      rfl
  · rw [entryMembers_other _ hpair hkind]
    split_ifs <;> rfl

theorem FlatPairs.append {entries more pairs others : List Cursor} (h : src.FlatPairs limit entries pairs)
    (hmore : src.FlatPairs limit more others) : src.FlatPairs limit (entries ++ more) (pairs ++ others) := by
  induction h with
  | nil => exact hmore
  | keyed hkind _ ih => exact .keyed hkind ih
  | spread hspread hinner _ _ ih =>
    rw [List.append_assoc]
    exact .spread hspread hinner ih
  | other hkind hspread _ ih => exact .other hkind hspread ih

theorem FlatPairs.flatMap {spread : Cursor → List Member} {entries : List Cursor}
    (h : ∀ entry ∈ entries, src.FlatPairs limit [entry] ((entryMembers spread entry).filterMap pair?)) :
    src.FlatPairs limit entries ((entries.flatMap (entryMembers spread)).filterMap pair?) := by
  induction entries with
  | nil => exact .nil
  | cons entry rest ih =>
    rw [List.flatMap_cons, List.filterMap_append]
    exact (h entry List.mem_cons_self).append (ih fun other hother => h other (List.mem_cons_of_mem _ hother))

/-- **The keyed values of a literal are found if literals are nested in it at most as deep as they are entered.** -/
theorem flatPairs_membersWithin (h : src.NestsWithin resolveLimit depth object) :
    src.FlatPairs resolveLimit object.namedChildren ((src.membersWithin depth object).filterMap pair?) := by
  induction depth generalizing object with
  | zero =>
    refine FlatPairs.flatMap fun entry hentry => ?_
    by_cases hkind : entry.kind = "pair"
    · rw [entryMembers_keyed _ hkind]
      exact .keyed hkind .nil
    · rw [filterMap_entryMembers_other hkind (.inl rfl)]
      exact .other hkind (h entry hentry) .nil
  | succ depth ih =>
    refine FlatPairs.flatMap fun entry hentry => ?_
    by_cases hkind : entry.kind = "pair"
    · rw [entryMembers_keyed _ hkind]
      exact .keyed hkind .nil
    by_cases hspread : ∃ inner, src.SpreadsObject resolveLimit entry inner
    · obtain ⟨inner, hinner⟩ := hspread
      rw [entryMembers_object hinner, ← List.append_nil (List.filterMap _ _)]
      exact .spread hinner (ih (h entry hentry inner hinner)) .nil
    · have hnone : ∀ inner, ¬ src.SpreadsObject resolveLimit entry inner := not_exists.mp hspread
      rw [filterMap_entryMembers_other hkind (.inr hnone)]
      exact .other hkind hnone .nil

/-! ## How many entries -/

theorem length_flatMap_le {entries : List Cursor} {spread : Cursor → List Member} {bound : ℕ} (hbound : 0 < bound)
    (h : ∀ entry ∈ entries, ∀ argument, entry.parts.head? = some argument → (spread argument).length ≤ bound) :
    (entries.flatMap (entryMembers spread)).length ≤ entries.length * bound := by
  induction entries with
  | nil => exact Nat.zero_le _
  | cons entry rest ih =>
    have hentry : (entryMembers spread entry).length ≤ bound := by
      rw [entryMembers]
      split_ifs
      · exact hbound
      · exact hbound
      · cases hargument : entry.parts.head? with
        | none => exact Nat.zero_le _
        | some argument => exact h entry List.mem_cons_self argument hargument
      · exact Nat.zero_le _
    have hrest := ih fun other hother => h other (List.mem_cons_of_mem _ hother)
    rw [List.flatMap_cons, List.length_append, List.length_cons, Nat.succ_mul]
    omega

theorem length_entries_le (hobject : object ∈ src.top.walk)
    (h : ∀ argument ∈ src.top.walk, (src.spreadMembers depth argument).length ≤ src.root.size ^ depth) :
    (src.membersWithin depth object).length ≤ src.root.size ^ (depth + 1) := by
  have hle : (src.membersWithin depth object).length ≤ object.namedChildren.length * src.root.size ^ depth := by
    refine length_flatMap_le (Nat.pow_pos src.root.size_pos) fun entry hentry argument hargument => h argument ?_
    have hplace := Cursor.namedChildren_subset_walk hobject hentry
    exact Cursor.parts_subset_walk hplace (List.mem_of_mem_head? hargument)
  rw [Nat.pow_succ, Nat.mul_comm]
  exact hle.trans (Nat.mul_le_mul_right _ (Cursor.length_namedChildren_le hobject))

theorem length_spreadMembers_le (hargument : argument ∈ src.top.walk) :
    (src.spreadMembers depth argument).length ≤ src.root.size ^ depth := by
  induction depth generalizing argument with
  | zero => exact Nat.le_refl 1
  | succ depth ih =>
    rw [spreadMembers]
    split_ifs
    · exact length_entries_le (resolve_mem_walk hargument) fun _ => ih
    · exact Nat.pow_pos src.root.size_pos

/-- **However names refer to each other, there is a last entry**: the size of the tree bounds the entries of a
literal. -/
theorem length_members_le (hobject : object ∈ src.top.walk) :
    (src.members object).length ≤ src.root.size ^ (spreadDepth + 1) :=
  length_entries_le hobject fun _ => length_spreadMembers_le

end ComponentDocs.SourceFile
