import QueryDialect.Json.Nesting
import QueryDialect.Proofs.Meaning
import QueryDialect.Proofs.Nesting

namespace QueryDialect

mutual

/-- The greatest number of clauses, arrays and objects that lie one inside the other. -/
def Clause.nesting : Clause → Nat
  | .and children => Clause.nestingOfChildren children + 1
  | .or children => Clause.nestingOfChildren children + 1
  | .field _ condition => condition.value.nesting + 1

def Clause.nestingOfChildren : List Clause → Nat
  | [] => 0
  | child :: rest => max child.nesting (Clause.nestingOfChildren rest)

end

mutual

/-- The greatest number of scopes, clauses, arrays and objects that lie one inside the other. -/
def Filter.nesting : Filter → Nat
  | { inclusions, condition, .. } =>
    max (Filter.nestingOfScopes? inclusions) (condition.elim 0 Clause.nesting)

def Filter.nestingOfScopes? : Option (List (Inclusion Filter)) → Nat
  | none => 0
  | some inclusions => Filter.nestingOfScopes inclusions

def Filter.nestingOfScopes : List (Inclusion Filter) → Nat
  | [] => 0
  | .relation _ :: rest => Filter.nestingOfScopes rest
  | .scoped _ scope :: rest => max (scope.nesting + 1) (Filter.nestingOfScopes rest)

end

/-- The values at the leaves of the clause are nested at most this deep. -/
def Clause.ValuesWithin (n : Nat) (clause : Clause) : Prop :=
  clause.AllLeaves fun _ condition => condition.value.nesting ≤ n

/-- The values at the leaves of the filter and of its scopes are nested at most this deep. -/
def Filter.ValuesWithin (n : Nat) (filter : Filter) : Prop :=
  ∀ part, filter.Reaches part → ∀ tree, part.condition = some tree → tree.ValuesWithin n

namespace Clause

theorem nestingOfChildren_le_iff {children : List Clause} {n : Nat} :
    nestingOfChildren children ≤ n ↔ ∀ child ∈ children, child.nesting ≤ n := by
  induction children with
  | nil => simp [nestingOfChildren]
  | cons child rest ih => rw [nestingOfChildren, Nat.max_le, ih, List.forall_mem_cons]

theorem nesting_combinator_le {children : List Clause} {n limit : Nat}
    (ih : ∀ child ∈ children, ∀ limit, child.depth ≤ limit → child.ValuesWithin n →
      child.nesting ≤ limit + 1 + n)
    (hd : depthBelow children ≤ limit) (hv : ∀ child ∈ children, child.ValuesWithin n) :
    nestingOfChildren children + 1 ≤ limit + 1 + n := by
  have hc : nestingOfChildren children ≤ limit + n := by
    rw [nestingOfChildren_le_iff]
    intro child hm
    have hlt : child.depth < limit := depthBelow_le_iff.mp hd child hm
    have hn := ih child hm (limit - 1) (by omega) (hv child hm)
    omega
  omega

theorem nesting_le_of_depth_le {clause : Clause} {n limit : Nat} (hd : clause.depth ≤ limit)
    (hv : clause.ValuesWithin n) : clause.nesting ≤ limit + 1 + n := by
  induction clause generalizing limit with
  | and children ih =>
    exact nesting_combinator_le (fun child hm _ => ih child hm) hd (allLeaves_and_iff.mp hv)
  | or children ih =>
    exact nesting_combinator_le (fun child hm _ => ih child hm) hd (allLeaves_or_iff.mp hv)
  | field name condition =>
    have hn : condition.value.nesting ≤ n := allLeaves_field_iff.mp hv
    rw [nesting]
    omega

/-- The clause inside so many conjunctions of one child. -/
def conjoined (clause : Clause) : Nat → Clause
  | 0 => clause
  | times + 1 => .and [clause.conjoined times]

variable (clause : Clause) (times : Nat)

@[simp] theorem depth_conjoined : (clause.conjoined times).depth = clause.depth + times := by
  induction times with
  | zero => rfl
  | succ times ih => rw [conjoined, depth, depthBelow, depthBelow, ih, Nat.max_zero, Nat.add_assoc]

@[simp] theorem nesting_conjoined : (clause.conjoined times).nesting = clause.nesting + times := by
  induction times with
  | zero => rfl
  | succ times ih =>
    rw [conjoined, nesting, nestingOfChildren, nestingOfChildren, ih, Nat.max_zero, Nat.add_assoc]

theorem allLeaves_conjoined_iff {p : String → Condition → Prop} :
    (clause.conjoined times).AllLeaves p ↔ clause.AllLeaves p := by
  induction times with
  | zero => rfl
  | succ times ih => rw [conjoined, allLeaves_and_iff, List.forall_mem_singleton, ih]

end Clause

namespace Filter

theorem nestingOfScopes_le_iff {inclusions : List (Inclusion Filter)} {n : Nat} :
    nestingOfScopes inclusions ≤ n ↔
      ∀ scope : Filter, scope.IsScopeIn inclusions → scope.nesting < n := by
  induction inclusions with
  | nil => simp [nestingOfScopes, IsScopeIn]
  | cons inclusion rest ih =>
    obtain name | ⟨name, scope⟩ := inclusion
    · simp [nestingOfScopes, IsScopeIn, ih]
    · rw [nestingOfScopes, Nat.max_le, ih]
      simp only [IsScopeIn, List.mem_cons, Inclusion.scoped.injEq]
      constructor
      · rintro ⟨hs, hr⟩ other ⟨found, ⟨-, rfl⟩ | hm⟩
        · exact hs
        · exact hr other ⟨found, hm⟩
      · intro h
        exact ⟨h scope ⟨name, .inl ⟨rfl, rfl⟩⟩, fun other ⟨found, hm⟩ => h other ⟨found, .inr hm⟩⟩

theorem nesting_le_iff {filter : Filter} {n : Nat} :
    filter.nesting ≤ n ↔
      (∀ inclusions, filter.inclusions = some inclusions →
        ∀ scope : Filter, scope.IsScopeIn inclusions → scope.nesting < n) ∧
        ∀ tree, filter.condition = some tree → tree.nesting ≤ n := by
  obtain ⟨fields, inclusions, offset, skip, limit, order, condition⟩ := filter
  rw [nesting, Nat.max_le]
  cases inclusions <;> cases condition <;> simp [nestingOfScopes?, nestingOfScopes_le_iff]

theorem nesting_le_of_depth_le {filter : Filter} {n limit : Nat} (hd : filter.depth ≤ limit)
    (hv : filter.ValuesWithin n) : filter.nesting ≤ limit + 1 + n := by
  induction filter using Filter.induction generalizing limit with
  | step filter ih =>
    obtain ⟨hs, hc⟩ := depth_le_iff.mp hd
    obtain ⟨hown, hbelow⟩ := forall_reaches_iff.mp hv
    refine nesting_le_iff.mpr ⟨fun inclusions hi scope hm => ?_, fun tree ht => ?_⟩
    · have hlt : scope.depth < limit := scopesDepth_le_iff_forall_scope.mp (hs inclusions hi) scope hm
      have hn : scope.nesting ≤ limit - 1 + 1 + n :=
        ih inclusions hi scope hm (by omega) (hbelow inclusions hi scope hm)
      omega
    · exact Clause.nesting_le_of_depth_le (hc tree ht) (hown tree ht)

theorem depth_of_condition (tree : Clause) : depth { condition := some tree } = tree.depth :=
  Nat.zero_max _

theorem nesting_of_condition (tree : Clause) : nesting { condition := some tree } = tree.nesting :=
  Nat.zero_max _

theorem valuesWithin_of_condition {tree : Clause} {n : Nat} (h : tree.ValuesWithin n) :
    ValuesWithin n { condition := some tree } := by
  refine forall_reaches_iff.mpr ⟨fun found hf => ?_, nofun⟩
  cases hf
  exact h

end Filter

/-- A literal nested `n` deep inside as many conjunctions as the limit allows. -/
def deepest (limit n : Nat) : Clause :=
  (Clause.field "a" (.literal (Json.boxed .null n))).conjoined limit

section Deepest

variable (limit n : Nat)

theorem depth_deepest : (deepest limit n).depth = limit := by
  rw [deepest, Clause.depth_conjoined, Clause.depth, Nat.zero_add]

theorem nesting_deepest : (deepest limit n).nesting = limit + 1 + n := by
  rw [deepest, Clause.nesting_conjoined, Clause.nesting, Condition.value, Json.nesting_boxed,
    Json.nesting]
  omega

theorem valuesWithin_deepest : (deepest limit n).ValuesWithin n := by
  refine (Clause.allLeaves_conjoined_iff _ _).mpr (.field ?_)
  rw [Condition.value, Json.nesting_boxed, Json.nesting, Nat.zero_add]

theorem exists_toPredicate_deepest :
    ∃ predicate, (deepest limit n).toPredicate limit = .ok predicate := by
  refine Clause.exists_toPredicate_eq_ok_iff.mpr ⟨?_, ?_⟩
  · exact (Clause.allLeaves_conjoined_iff _ _).mpr (.field nofun)
  · rw [← Bool.not_eq_true, Clause.exceedsDepth_iff, depth_deepest]
    exact Nat.lt_irrefl limit

end Deepest

/-- What the depth check of a shared conversion lets through is nested as data no deeper than the limit
and the values at its leaves allow. The values may be as deep as one likes, and all of it is copied and
converted: the limit alone bounds nothing. -/
theorem depth_check_bounds_all_but_values (maxDepth : UInt64) :
    let options : Options := { exclusive := false, maxDepth }
    (∀ filter : Filter, filter.exceedsDepth options.limit = false → ∀ n, filter.ValuesWithin n →
      filter.nesting ≤ options.limit + 1 + n) ∧
    (∀ clause : Clause, clause.exceedsDepth options.limit = false → ∀ n, clause.ValuesWithin n →
      clause.nesting ≤ options.limit + 1 + n) ∧
    ∀ n,
      (∃ filter : Filter, filter.exceedsDepth options.limit = false ∧ filter.ValuesWithin n ∧
        filter.nesting = options.limit + 1 + n ∧
        ∃ query, filter.convert options = (.ok query, filter)) ∧
      ∃ clause : Clause, clause.exceedsDepth options.limit = false ∧ clause.ValuesWithin n ∧
        clause.nesting = options.limit + 1 + n ∧
        ∃ predicate, clause.convert options = (.ok predicate, clause) := by
  intro options
  have filter_fits : ∀ {filter : Filter}, filter.exceedsDepth options.limit = false ↔
      filter.depth ≤ options.limit := by
    intro filter
    rw [← Bool.not_eq_true, Filter.exceedsDepth_iff, Nat.not_lt]
  have clause_fits : ∀ {clause : Clause}, clause.exceedsDepth options.limit = false ↔
      clause.depth ≤ options.limit := by
    intro clause
    rw [← Bool.not_eq_true, Clause.exceedsDepth_iff, Nat.not_lt]
  refine ⟨fun filter hf n => Filter.nesting_le_of_depth_le (filter_fits.mp hf),
    fun clause hc n => Clause.nesting_le_of_depth_le (clause_fits.mp hc), fun n => ?_⟩
  let tree := deepest options.limit n
  obtain ⟨predicate, hp⟩ := exists_toPredicate_deepest options.limit n
  have fits : tree.depth ≤ options.limit := Nat.le_of_eq (depth_deepest options.limit n)
  have passes : tree.exceedsDepth options.limit = false := clause_fits.mpr fits
  let filter : Filter := { condition := some tree }
  have filter_passes : filter.exceedsDepth options.limit = false :=
    filter_fits.mpr ((Filter.depth_of_condition tree).trans_le fits)
  have query : filter.toQuery options.limit = .ok { condition := some predicate } := by
    rw [Filter.toQuery_condition, hp]
    rfl
  refine ⟨⟨filter, filter_passes, ?_, ?_, { condition := some predicate }, ?_⟩,
    ⟨tree, passes, valuesWithin_deepest _ n, nesting_deepest _ n, predicate, ?_⟩⟩
  · exact Filter.valuesWithin_of_condition (valuesWithin_deepest options.limit n)
  · rw [Filter.nesting_of_condition, nesting_deepest]
  · rw [Filter.convert_of_shared rfl, filter_passes, query]
    rfl
  · rw [Clause.convert_of_shared rfl, passes, hp]
    rfl

/-- Under the default limit, a lone literal of a thousand arrays is converted. -/
theorem deep_literal_passes_depth_check :
    let options : Options := {}
    let value := Json.boxed .null 1000
    let clause := Clause.field "a" (.literal value)
    clause.convert options = (.ok (.field "a" (.shorthand value)), clause) ∧
      1000 < clause.nesting ∧ clause.nesting ≤ options.limit + 1 + 1000 := by
  intro options value clause
  have hv : value.nesting = 1000 := Json.nesting_boxed .null 1000
  have passes : clause.exceedsDepth options.limit = false := by
    rw [← Bool.not_eq_true, Clause.exceedsDepth_iff]
    exact Nat.not_lt_zero _
  refine ⟨?_, ?_, ?_⟩
  · rw [Clause.convert_of_shared rfl, passes]
    rfl
  · rw [Clause.nesting, Condition.value, hv]
    decide
  · exact (depth_check_bounds_all_but_values 64).2.1 clause passes 1000 (.field hv.le)

end QueryDialect
