import QueryDialect.Source.Filter

namespace QueryDialect

mutual

def Clause.depth : Clause → Nat
  | .and children => Clause.depthBelow children
  | .or children => Clause.depthBelow children
  | .field .. => 0

/-- The depth that children give to the combinator above them. -/
def Clause.depthBelow : List Clause → Nat
  | [] => 0
  | child :: rest => max (child.depth + 1) (Clause.depthBelow rest)

end

mutual

/-- The greatest level of a node: each scope and each combinator is one level below what holds it, and
a filter's own clause is on the filter's level. -/
def Filter.depth : Filter → Nat
  | { inclusions, condition, .. } =>
    max (Filter.scopesDepth? inclusions) (condition.elim 0 Clause.depth)

/-- The depth that scopes give to the filter above them. -/
def Filter.scopesDepth? : Option (List (Inclusion Filter)) → Nat
  | none => 0
  | some inclusions => Filter.scopesDepth inclusions

def Filter.scopesDepth : List (Inclusion Filter) → Nat
  | [] => 0
  | .relation _ :: rest => Filter.scopesDepth rest
  | .scoped _ scope :: rest => max (scope.depth + 1) (Filter.scopesDepth rest)

end

/-- What the walk visits. -/
inductive Node where
  | filter (root : Filter)
  | clause (root : Clause)

namespace Node

/-- The nodes directly inside a node, each with its level relative to the node's. -/
def inner : Node → List (Node × Nat)
  | .filter root =>
    (root.condition.toList.map fun tree => (.clause tree, 0)) ++
      (root.inclusions.getD []).filterMap fun
        | .relation _ => none
        | .scoped _ scope => some (.filter scope, 1)
  | .clause (.and children) | .clause (.or children) =>
    children.map fun child => (.clause child, 1)
  | .clause (.field ..) => []

/-- The measure of the walk: how much there is to visit in these nodes. -/
noncomputable def total : List (Node × Nat) → Nat
  | [] => 0
  | (node, _) :: rest => sizeOf node + total rest

theorem total_append (xs ys : List (Node × Nat)) : total (xs ++ ys) = total xs + total ys := by
  induction xs with
  | nil => simp [total]
  | cons x rest ih => simp only [List.cons_append, total, ih, Nat.add_assoc]

theorem total_clauses_le (children : List Clause) :
    total (children.map fun child => (.clause child, 1)) ≤ sizeOf children := by
  induction children with
  | nil => simp [total]
  | cons child rest ih =>
    simp only [total, List.map_cons, Node.clause.sizeOf_spec, List.cons.sizeOf_spec]
    omega

theorem total_scopes_le (inclusions : List (Inclusion Filter)) :
    total (inclusions.filterMap fun
      | .relation _ => none
      | .scoped _ scope => some (.filter scope, 1)) ≤ sizeOf inclusions := by
  induction inclusions with
  | nil => simp [total]
  | cons inclusion rest ih =>
    cases inclusion <;> simp [total] at ih ⊢ <;> omega

theorem total_inner_lt (node : Node) : total node.inner < sizeOf node := by
  cases node with
  | filter root =>
    obtain ⟨fields, inclusions, offset, skip, limit, order, condition⟩ := root
    simp only [inner, total_append, Node.filter.sizeOf_spec, Filter.mk.sizeOf_spec]
    have hc : total (condition.toList.map fun tree => (.clause tree, 0)) ≤ sizeOf condition := by
      cases condition <;> simp [total]
    have hs := total_scopes_le (inclusions.getD [])
    have hi : sizeOf (inclusions.getD []) ≤ sizeOf inclusions := by
      cases inclusions <;> simp
    omega
  | clause root =>
    cases root with
    | and children | or children =>
      have := total_clauses_le children
      simp only [inner, Node.clause.sizeOf_spec, Clause.and.sizeOf_spec, Clause.or.sizeOf_spec]
      omega
    | field name condition =>
      simp only [inner, total, Node.clause.sizeOf_spec]
      omega

theorem total_shift (level : Nat) (nodes : List (Node × Nat)) :
    total (nodes.map fun node => (node.1, level + node.2)) = total nodes := by
  induction nodes with
  | nil => rfl
  | cons node rest ih => simp only [List.map_cons, total, ih]

/-- Is a node among those pending, or inside one of them, on a level above the limit? -/
def anyAbove (limit : Nat) : (pending : List (Node × Nat)) → Bool
  | [] => false
  | (node, level) :: rest =>
    if limit < level then true
    else anyAbove limit ((node.inner.map fun part => (part.1, level + part.2)) ++ rest)
termination_by pending => total pending
decreasing_by
  have := total_inner_lt node
  rw [total_append, total_shift]
  simp [total] at this ⊢
  omega

end Node

def Filter.exceedsDepth (filter : Filter) (limit : Nat) : Bool :=
  Node.anyAbove limit [(.filter filter, 0)]

def Clause.exceedsDepth (clause : Clause) (limit : Nat) : Bool :=
  Node.anyAbove limit [(.clause clause, 0)]

end QueryDialect
