import Mathlib.Data.List.Enum
import QueryDialect.Proofs.ClauseLeaves
import QueryDialect.Proofs.DepthWalk
import QueryDialect.Proofs.OrderEntries
import QueryDialect.Proofs.Scopes

namespace QueryDialect

/-- The operators that the target dialect has an equivalent for. -/
def Operator.convertible : List Operator :=
  [eq, neq, gt, gte, lt, lte, inq, matching]

/-- Where nesting goes too far, nothing else is looked at. -/
def violationsAt (limit level : Nat) (found : List FilterError) : List FilterError :=
  if limit < level then [.depthLimitExceeded limit] else found

theorem violationsAt_of_lt {limit level : Nat} (h : limit < level) (found : List FilterError) :
    violationsAt limit level found = [.depthLimitExceeded limit] :=
  if_pos h

theorem violationsAt_of_le {limit level : Nat} (h : level ≤ limit) (found : List FilterError) :
    violationsAt limit level found = found :=
  if_neg (Nat.not_lt.mpr h)

theorem violationsAt_eq_nil_iff {limit level : Nat} {found : List FilterError} :
    violationsAt limit level found = [] ↔ level ≤ limit ∧ found = [] := by
  unfold violationsAt
  split
  next h => simp [Nat.not_le.mpr h]
  next h => simp [Nat.not_lt.mp h]

def Condition.violations (field : String) : Condition → List FilterError
  | .literal _ => []
  | .operator kind _ =>
    if kind ∈ Operator.convertible then [] else [.unsupportedOperator field kind]

mutual

/-- A clause goes before its children. -/
def Clause.violations (limit level : Nat) : Clause → List FilterError
  | .and children => violationsAt limit level (Clause.listViolations limit (level + 1) children)
  | .or children => violationsAt limit level (Clause.listViolations limit (level + 1) children)
  | .field name condition => violationsAt limit level (condition.violations name)

def Clause.listViolations (limit level : Nat) : List Clause → List FilterError
  | [] => []
  | child :: rest => child.violations limit level ++ Clause.listViolations limit level rest

end

def orderEntryViolations (place : Path) (entry : String) : List FilterError :=
  let (field, rest) := Text.cut (· = ' ') entry
  let direction := Text.trim rest
  if field = "" then [.malformed place .missingFieldName]
  else if Direction.Named direction then []
  else [.invalidOrderDirection field direction]

def orderViolations (path : Path) (order : List String) : List FilterError :=
  order.zipIdx.flatMap fun entry =>
    orderEntryViolations (path ++ [.key "order", .index entry.2]) entry.1

mutual

/-- A filter with two projections is not looked into. -/
def Filter.violations (limit level : Nat) (path : Path) : Filter → List FilterError
  | { fields, inclusions, order, condition, .. } =>
    violationsAt limit level <|
      if fields.isSome ∧ inclusions.isSome then [.conflictingProjection]
      else
        Filter.scopesViolations? limit level path inclusions ++
          (order.elim [] (orderViolations path) ++
            condition.elim [] (Clause.violations limit level))

def Filter.scopesViolations? (limit level : Nat) (path : Path) :
    Option (List (Inclusion Filter)) → List FilterError
  | none => []
  | some inclusions => Filter.scopesViolations limit level path 0 inclusions

/-- The inclusions are numbered from `position` on. -/
def Filter.scopesViolations (limit level : Nat) (path : Path) (position : Nat) :
    List (Inclusion Filter) → List FilterError
  | [] => []
  | .relation _ :: rest => Filter.scopesViolations limit level path (position + 1) rest
  | .scoped _ scope :: rest =>
    scope.violations limit (level + 1) (path ++ [.key "include", .index position, .key "scope"]) ++
      Filter.scopesViolations limit level path (position + 1) rest

end

theorem Clause.listViolations_eq_flatMap (limit level : Nat) (children : List Clause) :
    Clause.listViolations limit level children = children.flatMap (Clause.violations limit level) := by
  induction children with
  | nil => rfl
  | cons child rest ih => rw [Clause.listViolations, ih, List.flatMap_cons]

def Inclusion.violations (limit level : Nat) (place : Path) : Inclusion Filter → List FilterError
  | .relation _ => []
  | .scoped _ scope => scope.violations limit level place

theorem Filter.scopesViolations_eq_flatMap (limit level : Nat) (path : Path) (position : Nat)
    (inclusions : List (Inclusion Filter)) :
    Filter.scopesViolations limit level path position inclusions =
      (inclusions.zipIdx position).flatMap fun item => item.1.violations limit (level + 1)
        (path ++ [.key "include", .index item.2, .key "scope"]) := by
  induction inclusions generalizing position with
  | nil => rfl
  | cons inclusion rest ih =>
    cases inclusion <;>
      simp only [Filter.scopesViolations, ih, List.zipIdx_cons, List.flatMap_cons,
        Inclusion.violations, List.nil_append]

/-- A literal, or an operator that the target dialect has an equivalent for. -/
def Condition.Convertible (condition : Condition) : Prop :=
  ∀ kind operand, condition = .operator kind operand → kind ∈ Operator.convertible

/-- What a conversion asks of a filter on its own level. -/
structure Filter.Convertible (filter : Filter) : Prop where
  one_projection : ¬ (filter.fields.isSome ∧ filter.inclusions.isSome)
  order_valid : ∀ order, filter.order = some order → ∀ entry ∈ order, ValidOrderEntry entry
  condition_convertible : ∀ tree, filter.condition = some tree →
    tree.AllLeaves fun _ condition => condition.Convertible

theorem Condition.violations_eq_nil_iff {name : String} {condition : Condition} :
    condition.violations name = [] ↔ condition.Convertible := by
  cases condition with
  | literal value => simp [violations, Convertible]
  | operator kind operand => simp [violations, Convertible]

theorem Clause.add_depthBelow_le_iff {limit level : Nat} {children : List Clause} :
    level + Clause.depthBelow children ≤ limit ↔
      level ≤ limit ∧ ∀ child ∈ children, level + 1 + child.depth ≤ limit := by
  have hd : level + Clause.depthBelow children ≤ limit ↔
      level ≤ limit ∧ Clause.depthBelow children ≤ limit - level := by omega
  rw [hd, Clause.depthBelow_le_iff]
  refine and_congr_right fun hl => forall₂_congr fun child _ => ?_
  omega

theorem Clause.combinator_violations_eq_nil_iff {limit level : Nat} {children : List Clause}
    (ih : ∀ child ∈ children, ∀ {level : Nat}, child.violations limit level = [] ↔
      (child.AllLeaves fun _ condition => condition.Convertible) ∧ level + child.depth ≤ limit) :
    violationsAt limit level (Clause.listViolations limit (level + 1) children) = [] ↔
      (∀ child ∈ children, child.AllLeaves fun _ condition => condition.Convertible) ∧
        level + Clause.depthBelow children ≤ limit := by
  have hc : (∀ child ∈ children, child.violations limit (level + 1) = []) ↔
      (∀ child ∈ children, child.AllLeaves fun _ condition => condition.Convertible) ∧
        ∀ child ∈ children, level + 1 + child.depth ≤ limit := by
    rw [← forall₂_and]
    exact forall₂_congr fun child hm => ih child hm
  rw [violationsAt_eq_nil_iff, listViolations_eq_flatMap, List.flatMap_eq_nil_iff, hc,
    add_depthBelow_le_iff, and_left_comm]

theorem Clause.violations_eq_nil_iff {limit level : Nat} {clause : Clause} :
    clause.violations limit level = [] ↔
      (clause.AllLeaves fun _ condition => condition.Convertible) ∧ level + clause.depth ≤ limit := by
  induction clause generalizing level with
  | and children ih => rw [violations, combinator_violations_eq_nil_iff ih, allLeaves_and_iff, depth]
  | or children ih => rw [violations, combinator_violations_eq_nil_iff ih, allLeaves_or_iff, depth]
  | field name condition =>
    rw [violations, violationsAt_eq_nil_iff, Condition.violations_eq_nil_iff, allLeaves_field_iff,
      depth, and_comm, Nat.add_zero]

theorem orderEntryViolations_eq_nil_iff {place : Path} {entry : String} :
    orderEntryViolations place entry = [] ↔ ValidOrderEntry entry := by
  obtain ⟨field, rest, hp⟩ := exists_entryParts entry
  have hv : ValidOrderEntry entry ↔ field ≠ "" ∧ Direction.Named (Text.trim rest) := by
    constructor
    · rintro ⟨field', rest', hp', h⟩
      cases hp.cut_eq.symm.trans hp'.cut_eq
      exact h
    · intro h
      exact ⟨field, rest, hp, h⟩
  rw [hv, orderEntryViolations, hp.cut_eq]
  by_cases hf : field = "" <;> simp [hf]

theorem orderViolations_eq_nil_iff {path : Path} {order : List String} :
    orderViolations path order = [] ↔ ∀ entry ∈ order, ValidOrderEntry entry := by
  rw [orderViolations, List.flatMap_eq_nil_iff]
  simp only [orderEntryViolations_eq_nil_iff]
  rw [List.forall_mem_zipIdx', List.forall_mem_iff_getElem]

namespace Filter

theorem violations_eq (limit level : Nat) (path : Path) (filter : Filter) :
    filter.violations limit level path = violationsAt limit level
      (if filter.fields.isSome ∧ filter.inclusions.isSome then [.conflictingProjection]
      else
        scopesViolations? limit level path filter.inclusions ++
          (filter.order.elim [] (orderViolations path) ++
            filter.condition.elim [] (Clause.violations limit level))) := by
  cases filter
  rw [violations]

/-- If it does not depend on the place of a scope whether something is wrong with it, then nothing is
wrong with the inclusions just when nothing is wrong with any scope. -/
theorem scopesViolations_eq_nil_iff {limit level : Nat} {p : Filter → Prop}
    {inclusions : List (Inclusion Filter)}
    (hp : ∀ scope : Filter, scope.IsScopeIn inclusions → ∀ path,
      scope.violations limit (level + 1) path = [] ↔ p scope) (path : Path) :
    scopesViolations limit level path 0 inclusions = [] ↔
      ∀ scope : Filter, scope.IsScopeIn inclusions → p scope := by
  rw [scopesViolations_eq_flatMap, List.flatMap_eq_nil_iff, List.forall_mem_zipIdx']
  constructor
  · intro h scope hs
    obtain ⟨name, hm⟩ := hs
    obtain ⟨i, hi, he⟩ := List.getElem_of_mem hm
    have hv := h i hi
    rw [he] at hv
    exact (hp scope ⟨name, hm⟩ _).mp hv
  · intro h i hi
    rcases he : inclusions[i] with name | ⟨name, scope⟩
    · rfl
    · have hs : scope.IsScopeIn inclusions := ⟨name, he ▸ List.getElem_mem hi⟩
      exact (hp scope hs _).mpr (h scope hs)

theorem scopesDepth_le_iff_forall_scope {n : Nat} {inclusions : List (Inclusion Filter)} :
    scopesDepth inclusions ≤ n ↔ ∀ scope : Filter, scope.IsScopeIn inclusions → scope.depth < n := by
  rw [scopesDepth_le_iff]
  constructor
  · rintro h scope ⟨name, hm⟩
    exact Nat.not_lt.mp (h _ hm)
  · intro h inclusion hm
    obtain name | ⟨name, scope⟩ := inclusion
    · exact id
    · exact Nat.not_lt.mpr (h scope ⟨name, hm⟩)

theorem add_depth_le_iff {limit level : Nat} {filter : Filter} :
    level + filter.depth ≤ limit ↔
      level ≤ limit ∧
        (∀ inclusions, filter.inclusions = some inclusions →
          ∀ scope : Filter, scope.IsScopeIn inclusions → level + 1 + scope.depth ≤ limit) ∧
        ∀ tree, filter.condition = some tree → level + tree.depth ≤ limit := by
  have hd : level + filter.depth ≤ limit ↔ level ≤ limit ∧ filter.depth ≤ limit - level := by omega
  rw [hd, depth_le_iff]
  refine and_congr_right fun hl => and_congr (forall₂_congr fun inclusions _ => ?_)
    (forall₂_congr fun tree _ => by omega)
  rw [scopesDepth_le_iff_forall_scope]
  exact forall₂_congr fun scope _ => by omega

theorem elim_nil_eq_nil_iff {α β : Type} {value? : Option α} {f : α → List β} :
    value?.elim [] f = [] ↔ ∀ value, value? = some value → f value = [] := by
  cases value? <;> simp

theorem scopesViolations?_eq_nil_iff {limit level : Nat} {p : Filter → Prop}
    {inclusions? : Option (List (Inclusion Filter))}
    (hp : ∀ inclusions, inclusions? = some inclusions → ∀ scope : Filter,
      scope.IsScopeIn inclusions → ∀ path, scope.violations limit (level + 1) path = [] ↔ p scope)
    (path : Path) :
    scopesViolations? limit level path inclusions? = [] ↔
      ∀ inclusions, inclusions? = some inclusions →
        ∀ scope : Filter, scope.IsScopeIn inclusions → p scope := by
  cases inclusions? with
  | none => simp [scopesViolations?]
  | some inclusions =>
    rw [scopesViolations?, scopesViolations_eq_nil_iff (hp inclusions rfl)]
    simp

theorem violations_eq_nil_iff {limit level : Nat} {path : Path} {filter : Filter} :
    filter.violations limit level path = [] ↔
      (∀ part, filter.Reaches part → part.Convertible) ∧ level + filter.depth ≤ limit := by
  induction filter using Filter.induction generalizing level path with
  | step filter ih =>
    have hs : scopesViolations? limit level path filter.inclusions = [] ↔ _ :=
      scopesViolations?_eq_nil_iff (fun inclusions hi scope hm _ => ih inclusions hi scope hm) path
    rw [violations_eq, violationsAt_eq_nil_iff, forall_reaches_iff, add_depth_le_iff]
    by_cases hp : filter.fields.isSome ∧ filter.inclusions.isSome
    · -- The conflict hides what else there is, but a filter with it is not convertible anyway.
      rw [if_pos hp]
      constructor
      · rintro ⟨-, h⟩
        cases h
      · rintro ⟨⟨h, -⟩, -⟩
        exact absurd hp h.one_projection
    · rw [if_neg hp, List.append_eq_nil_iff, List.append_eq_nil_iff, hs, elim_nil_eq_nil_iff,
        elim_nil_eq_nil_iff]
      simp only [orderViolations_eq_nil_iff, Clause.violations_eq_nil_iff]
      constructor
      · rintro ⟨hl, hs, ho, hc⟩
        have hf : filter.Convertible := ⟨hp, ho, fun tree ht => (hc tree ht).1⟩
        have hr := fun inclusions hi scope hm => (hs inclusions hi scope hm).1
        have hd := fun inclusions hi scope hm => (hs inclusions hi scope hm).2
        exact ⟨⟨hf, hr⟩, hl, hd, fun tree ht => (hc tree ht).2⟩
      · rintro ⟨⟨hf, hr⟩, hl, hd, hc⟩
        have hs := fun inclusions hi scope hm =>
          And.intro (hr inclusions hi scope hm) (hd inclusions hi scope hm)
        exact ⟨hl, hs, hf.order_valid, fun tree ht =>
          ⟨hf.condition_convertible tree ht, hc tree ht⟩⟩

end Filter
end QueryDialect
