import ComponentDocs.Graph.Basic
import ComponentDocs.Proofs.Fields
import Mathlib.Logic.Relation

/-!
# Reachable nodes

What `Graph.descendants` finds is what edges lead to.

* `Joined`, `Leads`: an edge and a way along edges between two nodes;
* `Graph.Closed`: every edge leads to a node;
* `spread_closed`: as many rounds as there are nodes to find leave no edge that leads elsewhere;
* **`mem_descendants_iff`**: the descendants of a node are the others that it reaches.
-/

namespace ComponentDocs

/-! ## Ways along edges -/

/-- An edge leads from `a` to `b`. -/
def Joined (edges : List Edge) (a b : String) : Prop := ∃ e ∈ edges, e.source = a ∧ e.target = b

/-- Edges lead from `a` to `b`, maybe none. -/
def Leads (edges : List Edge) : String → String → Prop := Relation.ReflTransGen (Joined edges)

theorem Leads.snoc {edges : List Edge} {a : String} {e : Edge} (h : Leads edges a e.source) (he : e ∈ edges) :
    Leads edges a e.target :=
  Relation.ReflTransGen.tail h ⟨e, he, rfl, rfl⟩

theorem Leads.mono {edges more : List Edge} (hsub : edges ⊆ more) {a b : String} (h : Leads edges a b) :
    Leads more a b := by
  have hjoined : Joined edges ≤ Joined more := fun _ _ ⟨e, he, hends⟩ => ⟨e, hsub he, hends⟩
  exact Relation.ReflTransGen.mono hjoined a b h

/-- What is closed under edges holds all that is reached from it. -/
theorem Leads.induction {edges : List Edge} {S : String → Prop} (hS : ∀ e ∈ edges, S e.source → S e.target)
    {a b : String} (hab : Leads edges a b) (ha : S a) : S b := by
  induction hab with
  | refl => exact ha
  | tail _ hjoined ih =>
    obtain ⟨e, he, rfl, rfl⟩ := hjoined
    exact hS e he ih

namespace Graph

/-- The identifiers of the nodes. -/
def ids (g : Graph) : List String := Fields.names g.nodes

/-- Every edge leads to a node. -/
def Closed (g : Graph) : Prop := ∀ e ∈ g.edges, e.target ∈ g.ids

variable {g : Graph}

/-! ## One round -/

theorem mem_successors_iff {found : List String} {x : String} :
    x ∈ g.successors found ↔ (∃ a ∈ found, Joined g.edges a x) ∧ x ∉ found := by
  rw [successors, List.mem_eraseDups, List.mem_filter, List.mem_map, Bool.not_eq_true',
    ← Bool.not_eq_true, List.contains_iff_mem]
  refine and_congr_left fun _ => ⟨?_, ?_⟩
  · rintro ⟨e, he, rfl⟩
    rw [List.mem_filter, List.contains_iff_mem] at he
    exact ⟨e.source, he.2, e, he.1, rfl, rfl⟩
  · rintro ⟨a, ha, e, he, rfl, rfl⟩
    exact ⟨e, List.mem_filter.mpr ⟨he, List.contains_iff_mem.mpr ha⟩, rfl⟩

/-! ## All rounds -/

theorem subset_spread (rounds : ℕ) (found : List String) : found ⊆ g.spread rounds found := by
  induction rounds generalizing found with
  | zero => exact fun _ h => h
  | succ rounds ih =>
    rw [spread]
    split
    · exact fun _ h => h
    · exact fun x hx => ih _ (List.mem_append_left _ hx)

theorem reaches_of_mem_spread {rounds : ℕ} {found : List String} {x : String} (hx : x ∈ g.spread rounds found) :
    ∃ a ∈ found, Leads g.edges a x := by
  induction rounds generalizing found with
  | zero => exact ⟨x, hx, Relation.ReflTransGen.refl⟩
  | succ rounds ih =>
    rw [spread] at hx
    split at hx
    · exact ⟨x, hx, Relation.ReflTransGen.refl⟩
    · obtain ⟨a, ha, hax⟩ := ih hx
      rcases List.mem_append.mp ha with ha | ha
      · exact ⟨a, ha, hax⟩
      · obtain ⟨⟨b, hb, hba⟩, -⟩ := mem_successors_iff.mp ha
        exact ⟨b, hb, Relation.ReflTransGen.head hba hax⟩

/-- The nodes that are not found yet. -/
def missing (g : Graph) (found : List String) : List String := g.ids.filter (· ∉ found)

/-- A round that finds a node leaves fewer to find. -/
theorem length_missing_lt (hclosed : g.Closed) {found : List String} {x : String}
    (hx : x ∈ g.successors found) :
    (g.missing (found ++ g.successors found)).length < (g.missing found).length := by
  obtain ⟨⟨a, -, e, he, -, rfl⟩, hnew⟩ := mem_successors_iff.mp hx
  have hsub : (g.missing (found ++ g.successors found)).Sublist (g.missing found) := by
    refine List.monotone_filter_right _ fun y hy => ?_
    rw [decide_eq_true_eq, List.mem_append, not_or] at hy
    exact decide_eq_true hy.1
  refine Nat.lt_of_le_of_ne hsub.length_le fun hlen => ?_
  have hmem : e.target ∈ g.missing found :=
    List.mem_filter.mpr ⟨hclosed e he, decide_eq_true hnew⟩
  rw [← hsub.eq_of_length hlen, missing, List.mem_filter, decide_eq_true_eq] at hmem
  exact hmem.2 (List.mem_append_right _ hx)

/-- **Enough rounds leave no edge that leads elsewhere.** -/
theorem spread_closed (hclosed : g.Closed) {rounds : ℕ} {found : List String}
    (hrounds : (g.missing found).length ≤ rounds) :
    ∀ e ∈ g.edges, e.source ∈ g.spread rounds found → e.target ∈ g.spread rounds found := by
  induction rounds generalizing found with
  | zero =>
    intro e he _
    have hnil : g.missing found = [] := List.length_eq_zero_iff.mp (Nat.le_zero.mp hrounds)
    have hmem := List.filter_eq_nil_iff.mp hnil e.target (hclosed e he)
    rw [decide_eq_true_eq, not_not] at hmem
    exact hmem
  | succ rounds ih =>
    rw [spread]
    split
    · rename_i hnone
      intro e he hsource
      by_contra htarget
      have hfound := mem_successors_iff.mpr ⟨⟨e.source, hsource, e, he, rfl, rfl⟩, htarget⟩
      rw [hnone] at hfound
      exact List.not_mem_nil hfound
    · rename_i hsome
      obtain ⟨x, hx⟩ := List.exists_mem_of_ne_nil _ hsome
      have hlt := length_missing_lt hclosed hx
      exact ih (by omega)

/-! ## Descendants -/

/-- **The descendants of a node are the other nodes that it reaches.** -/
theorem mem_descendants_iff (hclosed : g.Closed) {a x : String} :
    x ∈ g.descendants a ↔ x ≠ a ∧ Leads g.edges a x := by
  rw [descendants, List.mem_filter, decide_eq_true_eq, and_comm]
  refine and_congr_right fun _ => ⟨fun hx => ?_, fun hx => ?_⟩
  · obtain ⟨b, hb, hbx⟩ := reaches_of_mem_spread hx
    rwa [List.mem_singleton.mp hb] at hbx
  · have hrounds : (g.missing [a]).length ≤ g.nodes.length :=
      Nat.le_trans (List.length_filter_le ..) (Nat.le_of_eq (List.length_map ..))
    exact hx.induction (spread_closed hclosed hrounds) (subset_spread _ _ (List.mem_singleton_self a))

end Graph

end ComponentDocs
