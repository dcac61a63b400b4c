import ComponentDocs.Proofs.Documentation.PropPairs
import ComponentDocs.Proofs.Source.Alike

/-!
# Defaults of a specification

A specification may give `getDefaultProps` as a method or as a key with a function, and an arrow function may return an
object literal from its block or be the literal itself, in parentheses. What is recorded of the literal is the same for
all but the last.

* `Spelling`, `SpecifiesDefaults`: a specification with the method in one of these ways, and the literal it returns;
* `returnedValue_eq_some`: the value that the body returns;
* `Handler.defaultsObject?_of_spelling`: a body that is no block returns none, and the member `defaultProps` counts;
* `Handler.defaultChange?_alike`: alike entries record the same default;
* **`Handler.defaultProps_of_spelling`**: the defaults are those of the literal, however the method is written as long
  as its body is a block.
-/

namespace ComponentDocs

/-! ## Spellings -/

/-- A way to write a method that returns an expression. -/
inductive Spelling where
  | method
  | function
  | arrowBlock
  | arrowExpression
deriving DecidableEq, Repr

namespace Spelling

/-- The kinds of functions that a key has as its value. -/
def functionKinds : Spelling → List String
  | method => []
  | function => ["function_expression", "function"]
  | arrowBlock | arrowExpression => ["arrow_function"]

/-- The body returns an object, in parentheses or not: from the first `return` among its statements, or as the body
itself. -/
def Returns : Spelling → Cursor → Cursor → Prop
  | arrowExpression, body, object =>
    body.kind = "parenthesized_expression" ∧ body.unwrapParens = object ∧
      ∀ part ∈ body.namedChildren, part.kind ≠ "return_statement"
  | _, body, object =>
    ∃ before statement after value, body.namedChildren = before ++ statement :: after ∧
      (∀ earlier ∈ before, earlier.kind ≠ "return_statement") ∧ statement.kind = "return_statement" ∧
      statement.parts.head? = some value ∧ value.unwrapParens = object

end Spelling

variable (src : SourceFile)

/-- A member of a specification is a method that returns an object, written in some way. -/
inductive SpellsMethod (name : String) (c : Cursor) : Spelling → Cursor → Prop
  | method {body object : Cursor} (hkind : c.kind = "method_definition")
      (hname : (c.node.child? "name").map src.text = some name) (hbody : c.child? "body" = some body)
      (hreturns : Spelling.method.Returns body object) : SpellsMethod name c .method object
  | key {way : Spelling} {value body object : Cursor} (hkind : c.kind = "pair")
      (hkey : (c.node.child? "key").map (fun key => Text.unquote (src.text key)) = some name)
      (hvalue : c.child? "value" = some value) (hfunction : value.kind ∈ way.functionKinds)
      (hbody : value.child? "body" = some body) (hreturns : way.Returns body object) : SpellsMethod name c way object

/-- The first member of a specification that gives `getDefaultProps` a body is written in some way and returns an object
literal. -/
structure SpecifiesDefaults (definition : Definition) (way : Spelling) (object : Cursor) : Prop where
  kind : definition.kind = .bySpecification
  spells : ∃ before member after, definition.specMembers = before ++ member :: after ∧
    (∀ earlier ∈ before, Definition.methodBody? src "getDefaultProps" earlier = none) ∧
    SpellsMethod src "getDefaultProps" member way object
  object_kind : object.kind = "object"

variable {src} {definition : Definition} {way : Spelling} {body object c : Cursor} {name : String}

/-! ## What a body returns -/

theorem returnedValue_eq_some (hway : way ≠ .arrowExpression) (h : way.Returns body object) :
    ∃ value, returnedValue body = some value ∧ value.unwrapParens = object := by
  have hblock : Spelling.method.Returns body object := by
    cases way <;> first | exact h | exact absurd rfl hway
  obtain ⟨before, statement, after, value, hchildren, hbefore, hkind, hvalue, hobject⟩ := hblock
  refine ⟨value, ?_, hobject⟩
  have hnone : before.find? (·.kind == "return_statement") = none :=
    List.find?_eq_none.mpr fun earlier hearlier => by simpa using hbefore earlier hearlier
  rw [returnedValue, hchildren, List.find?_append, hnone, Option.none_or,
    List.find?_cons_of_pos (by simpa using hkind)]
  exact hvalue

/-- An expression has no statement that returns something. -/
theorem returnedValue_eq_none (h : Spelling.arrowExpression.Returns body object) : returnedValue body = none := by
  obtain ⟨-, -, hparts⟩ := h
  have hnone : body.namedChildren.find? (·.kind == "return_statement") = none :=
    List.find?_eq_none.mpr fun part hpart => by simpa using hparts part hpart
  rw [returnedValue, hnone]
  rfl

theorem SpellsMethod.methodBody? (h : SpellsMethod src name c way object) :
    ∃ body, Definition.methodBody? src name c = some (some body) ∧ way.Returns body object := by
  cases h with
  | @method body _ hkind hname hbody hreturns =>
    refine ⟨body, ?_, hreturns⟩
    rw [Definition.methodBody?, if_pos (by rw [Cursor.isMethod, hkind]; rfl), SourceFile.fieldIs, SourceFile.text?,
      hname, if_pos (beq_self_eq_true _), hbody]
  | @key way value body _ hkind hkey hvalue hfunction hbody hreturns =>
    refine ⟨body, ?_, hreturns⟩
    have hvalueKind : value.isFunction = true := by
      have hsubset : way.functionKinds ⊆ functionKinds := by cases way <;> decide
      exact List.contains_iff_mem.mpr (hsubset hfunction)
    rw [Definition.methodBody?, if_neg (by rw [Cursor.isMethod, hkind]; decide), hvalue]
    simp only [Definition.keyIs, hkey, beq_self_eq_true, hvalueKind, and_self, if_true, hbody]

theorem SpecifiesDefaults.specMethod? (h : SpecifiesDefaults src definition way object) :
    ∃ body, definition.specMethod? src "getDefaultProps" = some body ∧ way.Returns body object := by
  obtain ⟨before, member, after, hmembers, hbefore, hmember⟩ := h.spells
  obtain ⟨body, hbody, hreturns⟩ := hmember.methodBody?
  refine ⟨body, ?_, hreturns⟩
  rw [Definition.specMethod?, hmembers, List.findSome?_append, List.findSome?_eq_none_iff.mpr hbefore,
    List.findSome?_cons, hbody]
  rfl

namespace Handler

open SourceFile

/-- **The literal that counts**: the one that the method returns from a block; otherwise the member `defaultProps`. -/
theorem defaultsObject?_of_spelling (h : SpecifiesDefaults src definition way object) :
    defaultsObject? src definition =
      if way = .arrowExpression then definition.member? src "defaultProps" else some object := by
  obtain ⟨body, hbody, hreturns⟩ := h.specMethod?
  rw [defaultsObject?, if_pos h.kind, hbody, Option.bind_some]
  split_ifs with hway
  · subst hway
    rw [returnedValue_eq_none hreturns]
  · obtain ⟨value, hvalue, rfl⟩ := returnedValue_eq_some hway hreturns
    rw [hvalue]
    have hchain : src.BindingChain 0 value value.unwrapParens := (chain_unwrapParens src value).1
    exact congrArg some ((resolve_eq_iff (isChainEnd_of_object h.object_kind)).mpr ⟨0, Nat.zero_le _, hchain⟩)

/-! ## What is recorded -/

/-- The change of a prop that an entry of a literal with defaults makes. -/
def defaultChange? (src : SourceFile) (member : Member) : Option (String × (Record → Record)) :=
  (memberDefault? src member).map fun entry => (entry.1, fun prop =>
    Fields.set prop "defaultValue" (Doclet.defaultValue (src.text entry.2.node) (isComputed entry.2)))

/-- The documentation with the defaults of a value that may be an object literal. -/
def recordDefaults (src : SourceFile) (value : Option Cursor) (doc : Documentation) : Documentation :=
  doc.changeProps ((((value.filter (·.kind == "object")).map src.members).getD []).filterMap (defaultChange? src))

theorem recordDefaults_none (src : SourceFile) (doc : Documentation) : recordDefaults src none doc = doc := rfl

theorem defaultProps_eq (hkind : definition.kind = .bySpecification) (doc : Documentation) :
    defaultProps src definition doc = .ok (recordDefaults src (defaultsObject? src definition) doc) := by
  have hparameter : parameterDefaults src definition = [] := by
    rw [parameterDefaults, Definition.propsParameter?, if_neg (by rw [hkind]; decide)]
    rfl
  have hchange : defaultChange? src = fun member => (memberDefault? src member).map _ := rfl
  rw [defaultProps, always, defaults, hparameter, List.append_nil, recordDefaults, Documentation.changeProps, hchange,
    ← List.map_filterMap, List.foldl_map]

variable {s t : SourceFile} {member other : Member} {members others : List Member}

theorem keyName?_alike {pair same : Cursor} (h : s.Alike t pair same) : keyName? s pair = keyName? t same := by
  have hkey := alike_child? h "key"
  rw [keyName?, keyName?]
  generalize pair.node.child? "key" = key at hkey ⊢
  generalize same.node.child? "key" = other at hkey ⊢
  cases hkey with
  | none => simp only [Option.filter_none, Option.map_none]
  | some hab =>
    obtain ⟨hkind, -, -, htext⟩ := (alike_iff.mp hab).1
    rw [Option.filter_some, Option.filter_some, hkind]
    split_ifs
    · rw [Option.map_some, Option.map_some, htext]
    · simp only [Option.map_none]

theorem defaultChange?_alike (h : s.AlikeMember t member other) : defaultChange? s member = defaultChange? t other := by
  have hrecorded : ∀ (name : String) {c d : Cursor}, s.Alike t c d →
      (name, fun prop => Fields.set prop "defaultValue" (Doclet.defaultValue (s.text c.node) (isComputed c))) =
        (name, fun prop => Fields.set prop "defaultValue" (Doclet.defaultValue (t.text d.node) (isComputed d))) :=
    fun name c d hcd => by rw [hcd.text, isComputed, isComputed, hcd.kind]
  cases h with
  | @keyed pair same h =>
    have hvalue := h.child? "value"
    rw [defaultChange?, defaultChange?, memberDefault?, memberDefault?, keyName?_alike h]
    generalize pair.child? "value" = value at hvalue ⊢
    generalize same.child? "value" = other at hvalue ⊢
    cases keyName? t same with
    | none => rfl
    | some name =>
      cases hvalue with
      | none => rfl
      | some hcd => exact congrArg some (hrecorded name hcd)
  | shorthand h =>
    rw [defaultChange?, defaultChange?, memberDefault?, memberDefault?, h.text]
    exact congrArg some (hrecorded _ h)
  | spread => simp only [defaultChange?, memberDefault?, Option.map_none]

theorem filterMap_defaultChange?_alike (h : List.Forall₂ (s.AlikeMember t) members others) :
    members.filterMap (defaultChange? s) = others.filterMap (defaultChange? t) := by
  induction h with
  | nil => rw [List.filterMap_nil, List.filterMap_nil]
  | cons hmember _ ih => rw [List.filterMap_cons, List.filterMap_cons, defaultChange?_alike hmember, ih]

theorem recordDefaults_alike {object same : Cursor} (hkind : object.kind = "object") (h : s.Alike t object same)
    (hnames : ∀ name, s.Involves object name → s.BoundAlike t name) (doc : Documentation) :
    recordDefaults s (some object) doc = recordDefaults t (some same) doc := by
  rw [recordDefaults, recordDefaults, Option.filter_some_pos (by simpa using hkind),
    Option.filter_some_pos (by simpa using h.kind ▸ hkind), Option.map_some, Option.map_some, Option.getD_some,
    Option.getD_some, filterMap_defaultChange?_alike (members_alike hkind h hnames)]

/-- **The defaults recorded do not depend on how the method is written as long as its body is a block**: two sources
that return alike literals, with the same values for the names involved in them, document the same, and what they record
are the defaults of the literal. From an arrow function whose body is the literal nothing of it is recorded: there the
member `defaultProps` counts alone. -/
theorem defaultProps_of_spelling {definition same : Definition} {way spelling : Spelling} {object literal : Cursor}
    (h : SpecifiesDefaults s definition way object) (hsame : SpecifiesDefaults t same spelling literal)
    (halike : s.Alike t object literal) (hnames : ∀ name, s.Involves object name → s.BoundAlike t name)
    (doc : Documentation) :
    (way ≠ .arrowExpression → spelling ≠ .arrowExpression →
      defaultProps s definition doc = defaultProps t same doc) ∧
    (way ≠ .arrowExpression → defaultProps s definition doc = .ok (recordDefaults s (some object) doc)) ∧
    (way = .arrowExpression →
      defaultProps s definition doc = .ok (recordDefaults s (definition.member? s "defaultProps") doc)) := by
  have hrecorded : way ≠ .arrowExpression → defaultProps s definition doc = .ok (recordDefaults s (some object) doc) :=
    fun hway => by rw [defaultProps_eq h.kind, defaultsObject?_of_spelling h, if_neg hway]
  refine ⟨fun hway hspelling => ?_, hrecorded, fun hway => ?_⟩
  · rw [hrecorded hway, recordDefaults_alike h.object_kind halike hnames, defaultProps_eq hsame.kind,
      defaultsObject?_of_spelling hsame, if_neg hspelling]
  · rw [defaultProps_eq h.kind, defaultsObject?_of_spelling h, if_pos hway]

/-! ## One literal in three spellings -/

/-- The tree of `{...B, a: 1}` at some offset. -/
def spreadLiteral (start : ℕ) : Node :=
  .mk "object" true false "" start (start + 12)
    [.leaf "\x7b" false "" start (start + 1),
      .mk "spread_element" true false "" (start + 1) (start + 5)
        [.leaf "..." false "" (start + 1) (start + 4), .leaf "identifier" true "" (start + 4) (start + 5)],
      .leaf "," false "" (start + 5) (start + 6),
      .mk "pair" true false "" (start + 7) (start + 11)
        [.leaf "property_identifier" true "key" (start + 7) (start + 8), .leaf ":" false "" (start + 8) (start + 9),
          .leaf "number" true "value" (start + 10) (start + 11)],
      .leaf "\x7d" false "" (start + 11) (start + 12)]

/-- The tree of a block that returns it. -/
def returnBlock (start : ℕ) : Node :=
  .mk "statement_block" true false "body" start (start + 23)
    [.leaf "\x7b" false "" start (start + 1),
      .mk "return_statement" true false "" (start + 2) (start + 21)
        [.leaf "return" false "" (start + 2) (start + 8), spreadLiteral (start + 9)],
      .leaf "\x7d" false "" (start + 22) (start + 23)]

def emptyParameters (start : ℕ) : Node :=
  .mk "formal_parameters" true false "parameters" start (start + 2)
    [.leaf "(" false "" start (start + 1), .leaf ")" false "" (start + 1) (start + 2)]

/-- The tree of `getDefaultProps() { return {...B, a: 1} }`. -/
def methodMember : Node :=
  .mk "method_definition" true false "" 40 81
    [.leaf "property_identifier" true "name" 40 55, emptyParameters 55, returnBlock 58]

/-- The tree of a key with an arrow function. -/
def arrowMember (body : Node) : Node :=
  .mk "pair" true false "" 40 body.stop
    [.leaf "property_identifier" true "key" 40 55, .leaf ":" false "" 55 56,
      .mk "arrow_function" true false "value" 57 body.stop [emptyParameters 57, .leaf "=>" false "" 60 62, body]]

/-- The tree of the literal in parentheses. -/
def literalBody : Node :=
  .mk "parenthesized_expression" true false "body" 63 77
    [.leaf "(" false "" 63 64, spreadLiteral 64, .leaf ")" false "" 76 77]

/-- The tree of the specification. -/
def specificationTree (member : Node) : Node :=
  .mk "object" true false "" 39 (member.stop + 1)
    [.leaf "\x7b" false "" 39 40, member, .leaf "\x7d" false "" member.stop (member.stop + 1)]

/-- A variable `B` with a literal, and a component whose specification has one member. -/
def specifiedSource (content : String) (member : Node) : SourceFile :=
  .ofTree none content .none
    (.mk "program" true false "" 0 (member.stop + 3)
      [.mk "lexical_declaration" true false "" 0 16
        [.leaf "const" false "kind" 0 5,
          .mk "variable_declarator" true false "" 6 16
            [.leaf "identifier" true "name" 6 7, .leaf "=" false "" 8 9,
              .mk "object" true false "value" 10 16
                [.leaf "\x7b" false "" 10 11,
                  .mk "pair" true false "" 11 15
                    [.leaf "property_identifier" true "key" 11 12, .leaf ":" false "" 12 13,
                      .leaf "identifier" true "value" 14 15],
                  .leaf "\x7d" false "" 15 16]]],
        .mk "lexical_declaration" true false "" 17 (member.stop + 2)
          [.leaf "const" false "kind" 17 22,
            .mk "variable_declarator" true false "" 23 (member.stop + 2)
              [.leaf "identifier" true "name" 23 24, .leaf "=" false "" 25 26,
                .mk "call_expression" true false "value" 27 (member.stop + 2)
                  [.leaf "identifier" true "function" 27 38,
                    .mk "arguments" true false "arguments" 38 (member.stop + 2)
                      [.leaf "(" false "" 38 39, specificationTree member,
                        .leaf ")" false "" (member.stop + 1) (member.stop + 2)]]]]])

/-- Its component. -/
def specifiedDefinition (src : SourceFile) : Definition :=
  { kind := .bySpecification, name := some "A", exported := false,
    place := (src.top.walk.find? fun c => c.kind == "object" && c.node.start == 39).getD src.top }

/-- The place of the literal that the method returns. -/
def returnedLiteral (src : SourceFile) : Cursor :=
  (src.top.walk.find? fun c => c.kind == "object" && c.node.start > 39).getD src.top

def methodSource : SourceFile :=
  specifiedSource
    "const B = \x7bb: f\x7d\nconst A = createClass(\x7bgetDefaultProps() \x7b return \x7b...B, a: 1\x7d \x7d\x7d)\n"
    methodMember

def blockSource : SourceFile :=
  specifiedSource
    "const B = \x7bb: f\x7d\nconst A = createClass(\x7bgetDefaultProps: () => \x7b return \x7b...B, a: 1\x7d \x7d\x7d)\n"
    (arrowMember (returnBlock 63))

def literalSource : SourceFile :=
  specifiedSource
    "const B = \x7bb: f\x7d\nconst A = createClass(\x7bgetDefaultProps: () => (\x7b...B, a: 1\x7d)\x7d)\n"
    (arrowMember literalBody)

/-- The method and the arrow function with a block record the defaults of both literals, the arrow function without a
block none. -/
theorem defaultProps_specifiedSource :
    SpecifiesDefaults methodSource (specifiedDefinition methodSource) .method (returnedLiteral methodSource) ∧
    SpecifiesDefaults blockSource (specifiedDefinition blockSource) .arrowBlock (returnedLiteral blockSource) ∧
    SpecifiesDefaults literalSource (specifiedDefinition literalSource) .arrowExpression
      (returnedLiteral literalSource) ∧
    defaultProps methodSource (specifiedDefinition methodSource) .empty =
      defaultProps blockSource (specifiedDefinition blockSource) .empty ∧
    (∃ doc, defaultProps methodSource (specifiedDefinition methodSource) .empty = .ok doc ∧
      Fields.names doc.props = ["b", "a"]) ∧
    defaultProps literalSource (specifiedDefinition literalSource) .empty = .ok .empty := by
  have hmethod : SpecifiesDefaults methodSource (specifiedDefinition methodSource) .method
      (returnedLiteral methodSource) :=
    ⟨rfl, ⟨[], _, [], rfl, nofun, .method rfl (by decide +kernel) rfl ⟨[], _, [], _, rfl, nofun, rfl, rfl, rfl⟩⟩, rfl⟩
  have hblock : SpecifiesDefaults blockSource (specifiedDefinition blockSource) .arrowBlock
      (returnedLiteral blockSource) :=
    ⟨rfl, ⟨[], _, [], rfl, nofun,
      .key rfl (by decide +kernel) rfl (by decide +kernel) rfl ⟨[], _, [], _, rfl, nofun, rfl, rfl, rfl⟩⟩, rfl⟩
  have hliteral : SpecifiesDefaults literalSource (specifiedDefinition literalSource) .arrowExpression
      (returnedLiteral literalSource) :=
    ⟨rfl, ⟨[], _, [], rfl, nofun,
      .key rfl (by decide +kernel) rfl (by decide +kernel) rfl ⟨rfl, rfl, by decide +kernel⟩⟩, rfl⟩
  have hsame : ∀ name, methodSource.BoundAlike blockSource name := boundAlike_of_declarators (by decide +kernel)
  have hother : ∀ name, literalSource.BoundAlike blockSource name := boundAlike_of_declarators (by decide +kernel)
  obtain ⟨heq, hrecorded, -⟩ :=
    defaultProps_of_spelling hmethod hblock (by decide +kernel) (fun name _ => hsame name) .empty
  obtain ⟨-, -, hmember⟩ :=
    defaultProps_of_spelling hliteral hblock (by decide +kernel) (fun name _ => hother name) .empty
  have hnames : Fields.names (recordDefaults methodSource (some (returnedLiteral methodSource)) .empty).props =
      ["b", "a"] := by decide +kernel
  have hnone : (specifiedDefinition literalSource).member? literalSource "defaultProps" = none :=
    Option.isNone_iff_eq_none.mp (by decide +kernel)
  rw [hnone, recordDefaults_none] at hmember
  exact ⟨hmethod, hblock, hliteral, heq (by decide) (by decide), ⟨_, hrecorded (by decide), hnames⟩, hmember rfl⟩

end Handler

end ComponentDocs
