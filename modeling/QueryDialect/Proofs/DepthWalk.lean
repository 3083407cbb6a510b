import Mathlib.Data.List.Basic
import Mathlib.Order.MinMax
import QueryDialect.Source.Depth

namespace QueryDialect

theorem Clause.lt_depthBelow_iff {children : List Clause} {n : Nat} :
    n < Clause.depthBelow children ↔ ∃ child ∈ children, n < child.depth + 1 := by
  induction children with
  | nil => simp [Clause.depthBelow]
  | cons child rest ih =>
    rw [Clause.depthBelow, lt_max_iff, ih]
    simp only [List.exists_mem_cons_iff]

theorem Clause.depthBelow_le_iff {children : List Clause} {n : Nat} :
    Clause.depthBelow children ≤ n ↔ ∀ child ∈ children, child.depth < n := by
  rw [← not_lt, Clause.lt_depthBelow_iff]
  simp only [not_exists, not_and, not_lt, Nat.succ_le_iff]

/-- An inclusion is too deep for the filter that holds it if its scope is for the level below. -/
def Inclusion.TooDeep (limit : Nat) : Inclusion Filter → Prop
  | .relation _ => False
  | .scoped _ scope => limit < scope.depth + 1

theorem Filter.lt_scopesDepth_iff {inclusions : List (Inclusion Filter)} {n : Nat} :
    n < Filter.scopesDepth inclusions ↔ ∃ inclusion ∈ inclusions, inclusion.TooDeep n := by
  induction inclusions with
  | nil => simp [Filter.scopesDepth]
  | cons inclusion rest ih =>
    rw [List.exists_mem_cons_iff, ← ih]
    obtain name | ⟨name, scope⟩ := inclusion
    · simp only [Filter.scopesDepth, Inclusion.TooDeep, false_or]
    · simp only [Filter.scopesDepth, Inclusion.TooDeep, lt_max_iff]

theorem Filter.scopesDepth_le_iff {inclusions : List (Inclusion Filter)} {n : Nat} :
    Filter.scopesDepth inclusions ≤ n ↔ ∀ inclusion ∈ inclusions, ¬ inclusion.TooDeep n := by
  rw [← not_lt, Filter.lt_scopesDepth_iff]
  simp only [not_exists, not_and]

/-- A filter's own clause is on the filter's level, so that it adds nothing to its own depth. -/
theorem Filter.lt_depth_iff {filter : Filter} {n : Nat} :
    n < filter.depth ↔
      n < Filter.scopesDepth (filter.inclusions.getD []) ∨
        ∃ tree, filter.condition = some tree ∧ n < tree.depth := by
  obtain ⟨fields, inclusions, offset, skip, limit, order, condition⟩ := filter
  have hs : Filter.scopesDepth? inclusions = Filter.scopesDepth (inclusions.getD []) := by
    cases inclusions <;> rfl
  rw [Filter.depth, hs, lt_max_iff]
  cases condition <;> simp

theorem Filter.depth_le_iff {filter : Filter} {n : Nat} :
    filter.depth ≤ n ↔
      (∀ inclusions, filter.inclusions = some inclusions → Filter.scopesDepth inclusions ≤ n) ∧
        ∀ tree, filter.condition = some tree → tree.depth ≤ n := by
  rw [← not_lt, Filter.lt_depth_iff]
  cases filter.inclusions <;> simp [Filter.scopesDepth]

namespace Node

def depth : Node → Nat
  | .filter root => root.depth
  | .clause root => root.depth

/-- The depth of a node is reached inside one of the nodes that are directly inside it. -/
theorem lt_depth_iff {node : Node} {n : Nat} :
    n < node.depth ↔ ∃ part ∈ node.inner, n < part.2 + part.1.depth := by
  cases node with
  | filter root =>
    rw [depth, Filter.lt_depth_iff, Filter.lt_scopesDepth_iff]
    simp only [inner, List.mem_append, List.mem_map, Option.mem_toList, List.mem_filterMap]
    constructor
    · intro h
      obtain ⟨inclusion, hm, h⟩ | ⟨tree, ht, h⟩ := h
      · obtain name | ⟨name, scope⟩ := inclusion
        · exact h.elim
        · have hd : n < 1 + scope.depth := by rw [Nat.add_comm]; exact h
          exact ⟨(.filter scope, 1), .inr ⟨_, hm, rfl⟩, hd⟩
      · exact ⟨(.clause tree, 0), .inl ⟨tree, ht, rfl⟩, by simp only [depth]; omega⟩
    · intro h
      obtain ⟨part, ⟨tree, ht, rfl⟩ | ⟨inclusion, hm, hp⟩, h⟩ := h
      · exact .inr ⟨tree, ht, by simpa only [depth, Nat.zero_add] using h⟩
      · obtain name | ⟨name, scope⟩ := inclusion
        · cases hp
        · cases hp
          have hd : n < scope.depth + 1 := by rw [Nat.add_comm]; exact h
          exact .inl ⟨_, hm, hd⟩
  | clause root =>
    cases root with
    | and children | or children =>
      simp only [depth, Clause.depth, Clause.lt_depthBelow_iff, inner, List.mem_map]
      constructor
      · intro h
        obtain ⟨child, hm, h⟩ := h
        exact ⟨_, ⟨child, hm, rfl⟩, by simp only; omega⟩
      · intro h
        obtain ⟨part, ⟨child, hm, rfl⟩, h⟩ := h
        exact ⟨child, hm, by simp only at h; omega⟩
    | field name condition => simp [depth, Clause.depth, inner]

/-- Some node of what is pending lies above the limit, however deep inside. -/
def AnyTooDeep (limit : Nat) (pending : List (Node × Nat)) : Prop :=
  ∃ item ∈ pending, limit < item.2 + item.1.depth

/-- Replacing a node within the limit by the nodes directly inside it loses nothing. -/
theorem anyTooDeep_step {limit level : Nat} {node : Node} {rest : List (Node × Nat)}
    (hl : ¬ limit < level) :
    AnyTooDeep limit ((node, level) :: rest) ↔
      AnyTooDeep limit ((node.inner.map fun part => (part.1, level + part.2)) ++ rest) := by
  have hn : limit < level + node.depth ↔
      ∃ part ∈ node.inner, limit < level + part.2 + part.1.depth := by
    have hd : limit < level + node.depth ↔ limit - level < node.depth := by omega
    rw [hd, lt_depth_iff]
    constructor
    · intro h
      obtain ⟨part, hm, h⟩ := h
      exact ⟨part, hm, by omega⟩
    · intro h
      obtain ⟨part, hm, h⟩ := h
      exact ⟨part, hm, by omega⟩
  simp only [AnyTooDeep, List.exists_mem_cons_iff, List.mem_append, List.mem_map, hn]
  constructor
  · intro h
    obtain ⟨part, hm, h⟩ | ⟨item, hm, h⟩ := h
    · exact ⟨_, .inl ⟨part, hm, rfl⟩, h⟩
    · exact ⟨item, .inr hm, h⟩
  · intro h
    obtain ⟨item, ⟨part, hm, rfl⟩ | hm, h⟩ := h
    · exact .inl ⟨part, hm, h⟩
    · exact .inr ⟨item, hm, h⟩

theorem anyAbove_iff (limit : Nat) (pending : List (Node × Nat)) :
    anyAbove limit pending = true ↔ AnyTooDeep limit pending := by
  fun_induction anyAbove limit pending with
  | case1 => simp [AnyTooDeep]
  | case2 node level rest hl =>
    have hd : limit < level + node.depth := by omega
    exact iff_of_true rfl ⟨(node, level), List.mem_cons_self .., hd⟩
  | case3 node level rest hl ih => rw [ih, anyTooDeep_step hl]

theorem anyTooDeep_root_iff {limit : Nat} {root : Node} :
    AnyTooDeep limit [(root, 0)] ↔ limit < root.depth := by
  simp [AnyTooDeep]

theorem anyAbove_root_iff (limit : Nat) (root : Node) :
    anyAbove limit [(root, 0)] = true ↔ limit < root.depth :=
  (anyAbove_iff limit _).trans anyTooDeep_root_iff

end Node

theorem Filter.exceedsDepth_iff {filter : Filter} {limit : Nat} :
    filter.exceedsDepth limit = true ↔ limit < filter.depth :=
  Node.anyAbove_root_iff limit (.filter filter)

theorem Clause.exceedsDepth_iff {clause : Clause} {limit : Nat} :
    clause.exceedsDepth limit = true ↔ limit < clause.depth :=
  Node.anyAbove_root_iff limit (.clause clause)

end QueryDialect
