import ComponentDocs.Documentation.Handler
import ComponentDocs.Proofs.Documentation.Spreads
import ComponentDocs.Proofs.Fields
import ComponentDocs.Proofs.Outcome

/-!
# Props of an object literal

What two handlers make of the keyed values of the literal that declares the types of the props.

* `Documentation.get?_changeProps`: of several changes of a prop that overwrite each other the last counts;
* `Handler.foldlM_propType`, `Handler.propDocblocks_eq`: the handlers change one prop for each keyed value;
* `Definition.member?_mem_walk`: the value of a member is a place of the tree;
* `Handler.DocumentsPairs`: the props are the names of some keyed values, with what the last of each name says;
* **`Handler.propsFollowPairs`**: so they are for the keyed values of a literal.
-/

namespace ComponentDocs

/-! ## Changes of props -/

namespace Documentation

open Fields

/-- The documentation after changes of props, one after another. -/
def changeProps (doc : Documentation) (changes : Fields (Record → Record)) : Documentation :=
  changes.foldl (fun doc change => doc.changeProp change.1 change.2) doc

variable {doc : Documentation} {changes : Fields (Record → Record)}

theorem changeProps_concat (doc : Documentation) (changes : Fields (Record → Record)) (change : String × (Record → Record)) :
    doc.changeProps (changes ++ [change]) = (doc.changeProps changes).changeProp change.1 change.2 :=
  List.foldl_concat ..

theorem names_changeProps (h : (names doc.props).Nodup) :
    names (doc.changeProps changes).props = (names doc.props ++ names changes).eraseDups := by
  induction changes using List.reverseRecOn with
  | nil =>
    have hnames : names doc.props ++ names ([] : Fields (Record → Record)) = names doc.props := List.append_nil _
    rw [hnames, eraseDups_of_nodup h]
    rfl
  | append_singleton changes change ih =>
    have hnames : names (changes ++ [change]) = names changes ++ [change.1] := List.map_append
    rw [changeProps_concat, changeProp, names_modify, ih, hnames, ← List.append_assoc, eraseDups_concat]
    simp only [List.mem_eraseDups]

/-- **Of several changes of a prop that overwrite each other the last counts.** -/
theorem get?_changeProps (h : ∀ first ∈ changes, ∀ later ∈ changes, ∀ prop, later.2 (first.2 prop) = later.2 prop)
    (name : String) : get? (doc.changeProps changes).props name =
      ((get? changes.reverse name).map fun change => change (doc.prop name)).or (get? doc.props name) := by
  induction changes using List.reverseRecOn with
  | nil => rfl
  | append_singleton changes change ih =>
    have hold := ih fun first hfirst later hlater =>
      h first (List.mem_append_left _ hfirst) later (List.mem_append_left _ hlater)
    rw [changeProps_concat, changeProp, get?_modify, hold, List.reverse_concat, get?_cons]
    by_cases hname : name = change.1
    · subst hname
      rw [if_pos rfl, if_pos rfl, hold]
      cases hlast : get? changes.reverse change.1 with
      | none => rfl
      | some old =>
        have hmem : (change.1, old) ∈ changes := List.mem_reverse.mp (mem_of_get? hlast)
        exact congrArg some
          (h _ (List.mem_append_left _ hmem) change (List.mem_append_right _ (List.mem_singleton_self _)) _)
    · rw [if_neg hname, if_neg (Ne.symm hname)]

end Documentation

/-! ## Places of members -/

namespace Definition

variable {src : SourceFile} {definition : Definition} {value : Cursor}

theorem returnedValue_mem_walk {body : Cursor} (hbody : body ∈ src.top.walk) (h : returnedValue body = some value) :
    value ∈ src.top.walk := by
  obtain ⟨statement, hstatement, hvalue⟩ := Option.bind_eq_some_iff.mp h
  have hmem := Cursor.namedChildren_subset_walk hbody (List.mem_of_find?_eq_some hstatement)
  exact Cursor.parts_subset_walk hmem (List.mem_of_mem_head? hvalue)

theorem staticValue?_mem_walk {c : Cursor} {member : String} (hc : c ∈ src.top.walk)
    (h : staticValue? src member c = some (some value)) : value ∈ src.top.walk := by
  rw [staticValue?] at h
  split_ifs at h
  · exact Cursor.child?_mem_walk hc (Option.some.inj h)
  · obtain ⟨body, hbody, hvalue⟩ := Option.bind_eq_some_iff.mp (Option.some.inj h)
    exact returnedValue_mem_walk (Cursor.child?_mem_walk hc hbody) hvalue

theorem memberAssignment?_mem_walk {statement : Cursor} {name property : String} (hstatement : statement ∈ src.top.walk)
    (h : src.memberAssignment? name statement = some (property, some value)) : value ∈ src.top.walk := by
  rw [SourceFile.memberAssignment?] at h
  obtain ⟨assignment, hassignment, h⟩ := Option.bind_eq_some_iff.mp h
  obtain ⟨left, -, h⟩ := Option.bind_eq_some_iff.mp h
  obtain ⟨text, -, h⟩ := Option.bind_eq_some_iff.mp h
  split_ifs at h
  · rw [SourceFile.assignment?] at hassignment
    split_ifs at hassignment
    · have hhead := (Option.filter_eq_some_iff.mp hassignment).1
      have hmem := Cursor.namedChildren_subset_walk hstatement (List.mem_of_mem_head? hhead)
      exact Cursor.child?_mem_walk hmem (Prod.mk.inj (Option.some.inj h)).2

theorem memberValues_subset_walk {member : String} (hplace : definition.place ∈ src.top.walk)
    (h : some value ∈ definition.memberValues src member) : value ∈ src.top.walk := by
  rw [memberValues, List.mem_append, List.mem_append] at h
  rcases h with (h | h) | h
  · obtain ⟨c, hc, hvalue⟩ := List.mem_filterMap.mp h
    refine staticValue?_mem_walk ?_ hvalue
    rw [classMembers] at hc
    split_ifs at hc
    · cases hbody : definition.place.child? "body" with
      | none => rw [hbody] at hc; exact absurd hc List.not_mem_nil
      | some body =>
        rw [hbody] at hc
        exact Cursor.namedChildren_subset_walk (Cursor.child?_mem_walk hplace hbody) hc
    · exact absurd hc List.not_mem_nil
  · obtain ⟨c, hc, hvalue⟩ := List.mem_filterMap.mp h
    rw [specMembers] at hc
    split_ifs at hc
    · have hmem := Cursor.namedChildren_subset_walk hplace (List.mem_filter.mp hc).1
      rw [specValue?] at hvalue
      split_ifs at hvalue
      · exact Cursor.child?_mem_walk hmem (Option.some.inj hvalue)
    · exact absurd hc List.not_mem_nil
  · rw [assignedValues] at h
    split at h
    · split_ifs at h
      · exact absurd h List.not_mem_nil
      · obtain ⟨⟨property, assigned⟩, hmem, rfl⟩ := List.mem_map.mp h
        obtain ⟨statement, hstatement, hvalue⟩ := List.mem_filterMap.mp (List.mem_filter.mp hmem).1
        exact memberAssignment?_mem_walk (Cursor.namedChildren_subset_walk (Cursor.self_mem_walk _) hstatement) hvalue
    · exact absurd h List.not_mem_nil

theorem member?_mem_walk {member : String} (hplace : definition.place ∈ src.top.walk)
    (h : definition.member? src member = some value) : value ∈ src.top.walk := by
  obtain ⟨given, hgiven, rfl⟩ := Option.map_eq_some_iff.mp h
  have hlast := Option.join_eq_some_iff.mp hgiven
  exact SourceFile.resolve_mem_walk (memberValues_subset_walk hplace (List.mem_of_getLast? hlast))

end Definition

/-! ## The two handlers -/

namespace Handler

open Fields SourceFile

variable (src : SourceFile)

/-- The type that the value of a keyed value declares, and whether it is required. -/
def DeclaresType (pair : Cursor) (type : PropType) (required : Bool) : Prop :=
  ∃ value, pair.child? "value" = some value ∧ (unwrapRequired src value).2 = required ∧
    PropType.describe src (unwrapRequired src value).1 = .ok type

/-- The changes that some keyed values make, each to the prop of its name. -/
def changesOf (change : Cursor → Record → Record) (pairs : List Cursor) : Fields (Record → Record) :=
  pairs.filterMap fun pair => (keyName? src pair).map fun name => (name, change pair)

/-- What the value of a keyed value makes of its prop. -/
def typeChange (pair : Cursor) (prop : Record) : Record :=
  match pair.child? "value" with
  | none => prop
  | some value =>
    match PropType.describe src (unwrapRequired src value).1 with
    | .error _ => prop
    | .ok type => Fields.set (Fields.set prop "type" type.toJson) "required" (.bool (unwrapRequired src value).2)

/-- What the docblock of a keyed value makes of its prop. -/
def descriptionChange (pair : Cursor) (prop : Record) : Record :=
  Fields.set prop "description" (.str ((src.docblockBefore pair).getD ""))

variable {src} {pair : Cursor} {pairs : List Cursor} {name : String} {type : PropType} {required : Bool}

theorem DeclaresType.typeChange_eq (h : DeclaresType src pair type required) (prop : Record) :
    typeChange src pair prop =
      Fields.set (Fields.set prop "type" type.toJson) "required" (.bool required) := by
  obtain ⟨value, hvalue, rfl, htype⟩ := h
  rw [typeChange, hvalue]
  simp only [htype]

theorem DeclaresType.exists_describe (h : DeclaresType src pair type required) : ∀ value, pair.child? "value" = some value →
    ∃ type, PropType.describe src (unwrapRequired src value).1 = .ok type := by
  obtain ⟨given, hgiven, -, htype⟩ := h
  intro value hvalue
  obtain rfl := Option.some.inj (hgiven.symm.trans hvalue)
  exact ⟨type, htype⟩

theorem names_changesOf (change : Cursor → Record → Record) (pairs : List Cursor) :
    names (changesOf src change pairs) = pairs.filterMap (keyName? src) := by
  rw [names, changesOf, List.map_filterMap]
  simp only [Option.map_map, Function.comp_def, Option.map_id']

theorem mem_changesOf {change : Cursor → Record → Record} {entry : String × (Record → Record)}
    (h : entry ∈ changesOf src change pairs) : ∃ pair ∈ pairs, keyName? src pair = some entry.1 ∧ entry.2 = change pair := by
  obtain ⟨pair, hpair, hentry⟩ := List.mem_filterMap.mp h
  obtain ⟨name, hname, rfl⟩ := Option.map_eq_some_iff.mp hentry
  exact ⟨pair, hpair, hname, rfl⟩

theorem propType_keyed (doc : Documentation) (hname : keyName? src pair = some name)
    (h : DeclaresType src pair type required) :
    propType src doc (.keyed pair) = .ok (doc.changeProp name (typeChange src pair)) := by
  have hchange := funext h.typeChange_eq
  obtain ⟨value, hvalue, hrequired, htype⟩ := h
  have hunwrapped : unwrapRequired src value = ((unwrapRequired src value).1, required) := Prod.ext rfl hrequired
  rw [hchange, propType, hname, hvalue]
  dsimp only
  rw [hunwrapped]
  dsimp only
  rw [htype]
  rfl

/-- The handler of types changes one prop for each keyed value whose type is known. -/
theorem foldlM_propType {members : List Member} (doc : Documentation)
    (h : ∀ pair ∈ members.filterMap pair?, ∀ name, keyName? src pair = some name →
      ∃ type required, DeclaresType src pair type required) :
    members.foldlM (propType src) doc =
      .ok (doc.changeProps (changesOf src (typeChange src) (members.filterMap pair?))) := by
  induction members generalizing doc with
  | nil => rfl
  | cons member members ih =>
    cases member with
    | shorthand place => exact ih doc h
    | spread argument => exact ih doc h
    | keyed pair =>
      have hrest := fun doc => ih doc fun other hother => h other (List.mem_cons_of_mem _ hother)
      have hpairs : (Member.keyed pair :: members).filterMap pair? = pair :: members.filterMap pair? := rfl
      rw [List.foldlM_cons, hpairs, changesOf, List.filterMap_cons]
      cases hname : keyName? src pair with
      | none =>
        rw [propType, hname]
        exact hrest doc
      | some name =>
        obtain ⟨type, required, hpair⟩ := h pair List.mem_cons_self name hname
        rw [propType_keyed doc hname hpair]
        exact hrest _

/-- The handler of docblocks changes one prop for each keyed value. -/
theorem propDocblocks_eq (definition : Definition) (doc : Documentation) : propDocblocks src definition doc =
    .ok (doc.changeProps (changesOf src (descriptionChange src)
      ((propTypeMembers src definition).filterMap pair?))) := by
  rw [propDocblocks, always]
  congr 1
  induction propTypeMembers src definition generalizing doc with
  | nil => rfl
  | cons member members ih =>
    rw [List.foldl_cons, ih]
    cases member with
    | shorthand place => rfl
    | spread argument => rfl
    | keyed pair =>
      have hpairs : (Member.keyed pair :: members).filterMap pair? = pair :: members.filterMap pair? := rfl
      rw [hpairs]
      dsimp only
      cases hname : keyName? src pair with
      | none => simp only [changesOf, List.filterMap_cons, hname, Option.map_none]
      | some name => simp only [changesOf, List.filterMap_cons, hname, Option.map_some]; rfl

/-! ## The last keyed value of a name -/

variable (src) in
/-- Of some keyed values, the last one of a name. -/
def IsLastNamed (pairs : List Cursor) (name : String) (pair : Cursor) : Prop :=
  ∃ before after, pairs = before ++ pair :: after ∧ keyName? src pair = some name ∧
    ∀ later ∈ after, keyName? src later ≠ some name

theorem IsLastNamed.mem (h : IsLastNamed src pairs name pair) : pair ∈ pairs := by
  obtain ⟨before, after, rfl, -⟩ := h
  exact List.mem_append_right _ List.mem_cons_self

theorem IsLastNamed.get?_changesOf (h : IsLastNamed src pairs name pair) (change : Cursor → Record → Record) :
    get? (changesOf src change pairs).reverse name = some (change pair) := by
  obtain ⟨before, after, rfl, hname, hafter⟩ := h
  have hnone : get? (changesOf src change after).reverse name = none := by
    rw [get?_eq_none_iff, names, List.map_reverse, List.mem_reverse]
    change name ∉ names (changesOf src change after)
    rw [names_changesOf, List.mem_filterMap]
    rintro ⟨later, hlater, heq⟩
    exact hafter later hlater heq
  have hpair : changesOf src change (pair :: after) = (name, change pair) :: changesOf src change after := by
    rw [changesOf, List.filterMap_cons, hname]
    rfl
  have happend : changesOf src change (before ++ pair :: after) =
      changesOf src change before ++ changesOf src change (pair :: after) := List.filterMap_append
  rw [happend, hpair, List.reverse_append, List.reverse_cons, get?_append, get?_append, hnone, get?_cons, if_pos rfl]
  rfl

/-- A type that is written again takes the place of the one before it. -/
theorem typeChange_typeChange {first : Cursor} {firstType : PropType} {firstRequired : Bool}
    (hfirst : DeclaresType src first firstType firstRequired) (h : DeclaresType src pair type required) (prop : Record) :
    typeChange src pair (typeChange src first prop) = typeChange src pair prop := by
  have htype : "type" ∈ names (Fields.set prop "type" firstType.toJson) := mem_names_of_get? (by rw [get?_set, if_pos rfl])
  rw [h.typeChange_eq, h.typeChange_eq, hfirst.typeChange_eq, ← set_comm htype (by decide), set_set, set_set]

/-! ## Together -/

variable (src) in
/-- The props of the documentation are the names of some keyed values, each once and in the order in which they first
come, and what is said of a prop is what the last keyed value of its name says. -/
structure DocumentsPairs (pairs : List Cursor) (doc : Documentation) : Prop where
  names_eq : names doc.props = (pairs.filterMap (keyName? src)).eraseDups
  get?_eq : ∀ name pair, IsLastNamed src pairs name pair → ∃ type required, DeclaresType src pair type required ∧
    get? doc.props name = some [("type", type.toJson), ("required", .bool required),
      ("description", .str ((src.docblockBefore pair).getD ""))]

theorem documentsPairs_changeProps
    (h : ∀ pair ∈ pairs, ∀ name, keyName? src pair = some name → ∃ type required, DeclaresType src pair type required) :
    DocumentsPairs src pairs ((Documentation.empty.changeProps (changesOf src (typeChange src) pairs)).changeProps
      (changesOf src (descriptionChange src) pairs)) := by
  have htypes : names (Documentation.empty.changeProps (changesOf src (typeChange src) pairs)).props =
      (pairs.filterMap (keyName? src)).eraseDups := by
    have hempty : (names Documentation.empty.props).Nodup := List.nodup_nil
    rw [Documentation.names_changeProps hempty, names_changesOf]
    rfl
  refine ⟨?_, fun name pair hlast => ?_⟩
  · rw [Documentation.names_changeProps (htypes ▸ nodup_eraseDups _), htypes, names_changesOf, eraseDups_append_of_subset,
      eraseDups_of_nodup (nodup_eraseDups _)]
    exact fun name hname => List.mem_eraseDups.mpr hname
  · have hname : keyName? src pair = some name := by
      obtain ⟨before, after, -, hname, -⟩ := hlast
      exact hname
    obtain ⟨type, required, hpair⟩ := h pair hlast.mem name hname
    refine ⟨type, required, hpair, ?_⟩
    have htyped : get? (Documentation.empty.changeProps (changesOf src (typeChange src) pairs)).props name =
        some [("type", type.toJson), ("required", .bool required)] := by
      rw [Documentation.get?_changeProps, hlast.get?_changesOf, Option.map_some, hpair.typeChange_eq]
      · rfl
      · intro first hfirst later hlater prop
        obtain ⟨firstPair, hfirstPair, hfirstName, hfirst⟩ := mem_changesOf hfirst
        obtain ⟨laterPair, hlaterPair, hlaterName, hlater⟩ := mem_changesOf hlater
        obtain ⟨_, _, hfirstType⟩ := h firstPair hfirstPair first.1 hfirstName
        obtain ⟨_, _, hlaterType⟩ := h laterPair hlaterPair later.1 hlaterName
        rw [hfirst, hlater, typeChange_typeChange hfirstType hlaterType]
    rw [Documentation.get?_changeProps, hlast.get?_changesOf, Option.map_some, Documentation.prop, htyped]
    · rfl
    · intro first hfirst later hlater prop
      obtain ⟨firstPair, -, -, hfirst⟩ := mem_changesOf hfirst
      obtain ⟨laterPair, -, -, hlater⟩ := mem_changesOf hlater
      rw [hfirst, hlater]
      exact set_set prop "description" _ _

/-- The two handlers document the keyed values of the literal that declares the types of the props, those of each
literal that is spread in the place of its spread, if at most `limit` names lead to it. -/
def PropsFollowPairs (limit : ℕ∞) : Prop :=
  ∀ (src : SourceFile) (definition : Definition) (object : Cursor), definition.place ∈ src.top.walk →
    (∀ pair ∈ src.top.walk, pair.kind = "pair" → ∃ value, pair.child? "value" = some value) →
    propTypesObject? src definition = some object → src.NestsWithin limit spreadDepth object →
      ∃ flat, src.FlatPairs limit object.namedChildren flat ∧
        (∀ other, src.FlatPairs limit object.namedChildren other → other = flat) ∧
        ((∀ pair ∈ flat, ∀ name, keyName? src pair = some name → ∀ value, pair.child? "value" = some value →
            ∃ type, PropType.describe src (unwrapRequired src value).1 = .ok type) →
          ∃ doc, (run [propTypes, propDocblocks] src definition).result = .ok doc ∧ DocumentsPairs src flat doc)

/-- **The props are what the keyed values say when as many names lead to a literal as are followed, and there are only
so many entries.** -/
theorem propsFollowPairs : PropsFollowPairs resolveLimit ∧ ∀ (src : SourceFile) (object : Cursor),
    object ∈ src.top.walk → (src.members object).length ≤ src.root.size ^ (spreadDepth + 1) := by
  refine ⟨fun src definition object hplace hvalues hobject hnests => ?_, fun src object => length_members_le⟩
  have hplaceObject : object ∈ src.top.walk :=
    Definition.member?_mem_walk hplace (Option.filter_eq_some_iff.mp hobject).1
  have hflat := flatPairs_membersWithin hnests
  refine ⟨_, hflat, fun other => hflat.eq, fun hdescribed => ?_⟩
  have htypes : ∀ pair ∈ (src.members object).filterMap pair?, ∀ name, keyName? src pair = some name →
      ∃ type required, DeclaresType src pair type required := by
    intro pair hpair name hname
    obtain ⟨hmem, hkind⟩ := hflat.mem_walk (fun _ => Cursor.namedChildren_subset_walk hplaceObject) pair hpair
    obtain ⟨value, hvalue⟩ := hvalues pair hmem hkind
    obtain ⟨type, htype⟩ := hdescribed pair hpair name hname value hvalue
    exact ⟨type, _, value, hvalue, rfl, htype⟩
  have hmembers : propTypeMembers src definition = src.members object := by
    rw [propTypeMembers, hobject]
    rfl
  refine ⟨_, ?_, documentsPairs_changeProps htypes⟩
  have htyped : propTypes src definition .empty = .ok (Documentation.empty.changeProps
      (changesOf src (typeChange src) ((src.members object).filterMap pair?))) := by
    rw [propTypes, hmembers]
    exact foldlM_propType .empty htypes
  rw [result_run, List.foldlM_cons, htyped]
  change propDocblocks src definition _ >>= pure = _
  rw [propDocblocks_eq, hmembers]
  rfl

/-! ## A chain of names -/

/-- The tree of `const f = g` from some offset on, for names of one letter. -/
def aliasTree (start : ℕ) : Node :=
  .mk "lexical_declaration" true false "" start (start + 11)
    [.leaf "const" false "kind" start (start + 5),
      .mk "variable_declarator" true false "" (start + 6) (start + 11)
        [.leaf "identifier" true "name" (start + 6) (start + 7), .leaf "=" false "" (start + 8) (start + 9),
          .leaf "identifier" true "value" (start + 10) (start + 11)]]

/-- The tree of the literal at the end of the chain. -/
def literalTree : Node :=
  .mk "lexical_declaration" true false "" 0 31
    [.leaf "const" false "kind" 0 5,
      .mk "variable_declarator" true false "" 6 31
        [.leaf "identifier" true "name" 6 7, .leaf "=" false "" 8 9,
          .mk "object" true false "value" 10 31
            [.leaf "\x7b" false "" 10 11,
              .mk "pair" true false "" 11 30
                [.leaf "property_identifier" true "key" 11 12, .leaf ":" false "" 12 13,
                  .mk "member_expression" true false "value" 14 30
                    [.leaf "identifier" true "object" 14 23, .leaf "." false "" 23 24,
                      .leaf "property_identifier" true "property" 24 30]],
              .leaf "\x7d" false "" 30 31]]]

def componentTree : Node :=
  .mk "class_declaration" true false "" 104 132
    [.leaf "class" false "" 104 109, .leaf "identifier" true "name" 110 111,
      .mk "class_heritage" true false "" 112 129
        [.leaf "extends" false "" 112 119, .leaf "identifier" true "" 120 129],
      .mk "class_body" true false "body" 130 132 [.leaf "\x7b" false "" 130 131, .leaf "\x7d" false "" 131 132]]

/-- The tree of the assignment of a literal with one spread. -/
def assignmentTree : Node :=
  .mk "expression_statement" true false "" 133 153
    [.mk "assignment_expression" true false "" 133 153
      [.mk "member_expression" true false "left" 133 144
        [.leaf "identifier" true "object" 133 134, .leaf "." false "" 134 135,
          .leaf "property_identifier" true "property" 135 144],
        .leaf "=" false "" 145 146,
        .mk "object" true false "right" 147 153
          [.leaf "\x7b" false "" 147 148,
            .mk "spread_element" true false "" 148 152
              [.leaf "..." false "" 148 151, .leaf "identifier" true "" 151 152],
            .leaf "\x7d" false "" 152 153]]]

/-- A component whose types are spread from a name. -/
def chainSource (name : String) : SourceFile :=
  .ofTree (some "p.js")
    ("const g = \x7bx: PropTypes.string\x7d\nconst f = g\nconst e = f\nconst d = e\nconst c = d\nconst b = c\n" ++
      "const a = b\nclass W extends Component \x7b\x7d\nW.propTypes = \x7b..." ++ name ++ "\x7d\n") .none
    (.mk "program" true false "" 0 154
      [literalTree, aliasTree 32, aliasTree 44, aliasTree 56, aliasTree 68, aliasTree 80, aliasTree 92, componentTree,
        assignmentTree])

def chainDefinition (name : String) : Definition :=
  { kind := .byClass, place := (chainSource name).top.enter componentTree, name := some "W", exported := false }

/-- The literal that declares the types of the props. -/
def chainObject (name : String) : Cursor :=
  (propTypesObject? (chainSource name) (chainDefinition name)).getD (chainSource name).top

/-- What the argument of its spread leads to when `count` names are replaced. -/
def chainValue (name : String) (count : ℕ) : Option Cursor :=
  ((chainObject name).namedChildren.head?.bind (·.parts.head?)).map ((chainSource name).resolveUpTo count)

/-- The entries of the literal to which the spread leads: their kinds and names, and whether their types are known. -/
def chainEntries (name : String) (count : ℕ) : Option (List (String × Option String × Bool)) :=
  ((chainValue name count).filter (·.kind == "object")).map fun value => value.namedChildren.map fun pair =>
    (pair.kind, keyName? (chainSource name) pair, (pair.child? "value").any fun value =>
      (PropType.describe (chainSource name) (unwrapRequired (chainSource name) value).1).isOk)

/-- The names that may be spread, with the number of names that lead from them to the literal. -/
def chains : List (String × ℕ) := [("a", 7), ("b", 6)]

theorem chain_checked : ∀ chain ∈ chains,
    (propTypesObject? (chainSource chain.1) (chainDefinition chain.1)).isSome = true ∧
      (∀ pair ∈ (chainSource chain.1).top.walk, pair.kind = "pair" → (pair.child? "value").isSome = true) ∧
      (chainObject chain.1).namedChildren.map (·.kind) = ["spread_element"] ∧
      chainEntries chain.1 chain.2 = some [("pair", some "x", true)] := by
  decide +kernel

/-- The spread leads to a literal of one keyed value, whose type is known. -/
theorem exists_chain {name : String} {count : ℕ} (h : (name, count) ∈ chains) :
    ∃ entry inner pair, (chainObject name).namedChildren = [entry] ∧ inner.namedChildren = [pair] ∧
      (chainSource name).SpreadsObject count entry inner ∧ pair.kind = "pair" ∧
      keyName? (chainSource name) pair = some "x" ∧ ∃ type required, DeclaresType (chainSource name) pair type required := by
  obtain ⟨-, -, hkinds, hentries⟩ := chain_checked _ h
  obtain ⟨entry, hentry, hkind⟩ := List.map_eq_singleton_iff.mp hkinds
  obtain ⟨inner, hinner, hpairs⟩ := Option.map_eq_some_iff.mp hentries
  obtain ⟨hvalue, hobject⟩ := Option.filter_eq_some_iff.mp hinner
  obtain ⟨argument, hargument, rfl⟩ := Option.map_eq_some_iff.mp hvalue
  obtain ⟨pair, hpair, hknown⟩ := List.map_eq_singleton_iff.mp hpairs
  simp only [Prod.mk.injEq] at hknown
  obtain ⟨hpairKind, hname, htype⟩ := hknown
  obtain ⟨value, hvalue, hdescribed⟩ := (Option.any_eq_true _ _).mp htype
  have hdeclared : ∃ type required, DeclaresType (chainSource name) pair type required := by
    cases hresult : PropType.describe (chainSource name) (unwrapRequired (chainSource name) value).1 with
    | ok type => exact ⟨type, _, value, hvalue, rfl, hresult⟩
    | error fault =>
      rw [hresult] at hdescribed
      cases hdescribed
  obtain ⟨used, hused, hchain, -⟩ := exists_chain_resolveUpTo (chainSource name) count argument
  rw [hentry] at hargument
  exact ⟨entry, _, pair, hentry, hpair,
    ⟨hkind, eq_of_beq hobject, argument, used, hargument, Nat.cast_le.mpr hused, hchain⟩, hpairKind, hname, hdeclared⟩

/-- What is known of the chain however many names may be replaced, if they are enough. -/
theorem chain_flatPairs {name : String} {count : ℕ} (h : (name, count) ∈ chains)
    {limit : ℕ∞} (hlimit : count ≤ limit) : (chainSource name).NestsWithin limit spreadDepth (chainObject name) ∧
      ∃ pair, (chainSource name).FlatPairs limit (chainObject name).namedChildren [pair] ∧
        keyName? (chainSource name) pair = some "x" ∧ ∃ type required, DeclaresType (chainSource name) pair type required := by
  obtain ⟨entry, inner, pair, hentry, hpair, ⟨hkind, hobject, argument, used, hargument, hused, hchain⟩, hpairKind,
    hname, hdeclared⟩ := exists_chain h
  have hspread : (chainSource name).SpreadsObject limit entry inner :=
    ⟨hkind, hobject, argument, used, hargument, hused.trans hlimit, hchain⟩
  refine ⟨?_, pair, ?_, hname, hdeclared⟩
  · intro other hother found hfound
    rw [hentry, List.mem_singleton] at hother
    obtain rfl := hspread.eq (hother ▸ hfound)
    refine nestsWithin_of_not_spread fun part hpart => ?_
    rw [hpair, List.mem_singleton] at hpart
    rw [hpart, hpairKind]
    decide
  · have hinner : (chainSource name).FlatPairs limit inner.namedChildren [pair] := by
      rw [hpair]
      exact .keyed hpairKind .nil
    rw [hentry]
    exact .spread hspread hinner .nil

theorem chain_place (name : String) : (chainDefinition name).place ∈ (chainSource name).top.walk := by
  refine Cursor.enter_mem_walk (Cursor.self_mem_walk _) ?_
  simp [chainSource, SourceFile.ofTree, SourceFile.top, Cursor.root, Node.children]

theorem chain_object {name : String} {count : ℕ} (h : (name, count) ∈ chains) :
    propTypesObject? (chainSource name) (chainDefinition name) = some (chainObject name) := by
  obtain ⟨object, hobject⟩ := Option.isSome_iff_exists.mp (chain_checked _ h).1
  rw [chainObject, hobject]
  rfl

theorem chain_values {name : String} {count : ℕ} (h : (name, count) ∈ chains) :
    ∀ pair ∈ (chainSource name).top.walk, pair.kind = "pair" → ∃ value, pair.child? "value" = some value :=
  fun pair hpair hkind => Option.isSome_iff_exists.mp ((chain_checked _ h).2.1 pair hpair hkind)

/-- Six names lead to the literal, and its keyed value is documented. -/
theorem propsFollowPairs_chain : (chainDefinition "b").place ∈ (chainSource "b").top.walk ∧
    propTypesObject? (chainSource "b") (chainDefinition "b") = some (chainObject "b") ∧
    (chainSource "b").NestsWithin resolveLimit spreadDepth (chainObject "b") ∧
    ∃ doc, (run [propTypes, propDocblocks] (chainSource "b") (chainDefinition "b")).result = .ok doc ∧
      names doc.props = ["x"] := by
  have hchain : ("b", 6) ∈ chains := by decide
  have hplace := chain_place "b"
  have hobject := chain_object hchain
  obtain ⟨hnests, pair, hpair, hname, type, required, htype⟩ := chain_flatPairs hchain (Nat.cast_le.mpr (Nat.le_refl 6))
  refine ⟨hplace, hobject, hnests, ?_⟩
  obtain ⟨flat, hflat, hunique, hdocuments⟩ :=
    propsFollowPairs.1 _ _ _ hplace (chain_values hchain) hobject hnests
  obtain rfl := hunique _ hpair
  obtain ⟨doc, hrun, hdoc⟩ := hdocuments fun other hother _ _ =>
    List.mem_singleton.mp hother ▸ htype.exists_describe
  refine ⟨doc, hrun, ?_⟩
  rw [hdoc.names_eq, List.filterMap_cons, hname]
  rfl

/-- **With no limit on the names the keyed values of a literal may be missing**: seven names lead to the literal, and
its keyed value is not documented. -/
theorem not_propsFollowPairs_top : ¬ PropsFollowPairs ⊤ := by
  intro h
  have hchain : ("a", 7) ∈ chains := by decide
  obtain ⟨hnests, pair, hpair, hname, type, required, htype⟩ := chain_flatPairs hchain le_top
  obtain ⟨flat, hflat, hunique, hdocuments⟩ :=
    h _ _ _ (chain_place "a") (chain_values hchain) (chain_object hchain) hnests
  obtain rfl := hunique _ hpair
  obtain ⟨doc, hrun, hdoc⟩ := hdocuments fun other hother _ _ =>
    List.mem_singleton.mp hother ▸ htype.exists_describe
  have hprops : (run [propTypes, propDocblocks] (chainSource "a") (chainDefinition "a")).result.toOption.map
      (fun doc => names doc.props) = some [] := by decide +kernel
  have hnames : names doc.props = ["x"] := by
    rw [hdoc.names_eq, List.filterMap_cons, hname]
    rfl
  rw [hrun] at hprops
  exact absurd (hnames.symm.trans (Option.some.inj hprops)) (by decide)

end Handler

end ComponentDocs
