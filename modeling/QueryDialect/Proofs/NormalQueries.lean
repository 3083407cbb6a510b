import QueryDialect.Proofs.OrderEntries
import QueryDialect.Proofs.Postcondition
import QueryDialect.Proofs.Scopes
import QueryDialect.Proofs.SharedConversion

namespace QueryDialect

open Checked (Yields bind_eq_ok_iff map_eq_ok_iff)

mutual

/-- The greatest number of combinators above a part of the predicate. -/
def Predicate.depth : Predicate → Nat
  | .and children => Predicate.depthBelow children
  | .or children => Predicate.depthBelow children
  | .field .. => 0

/-- The depth that children give to the combinator above them. -/
def Predicate.depthBelow : List Predicate → Nat
  | [] => 0
  | child :: rest => max (child.depth + 1) (Predicate.depthBelow rest)

end

mutual

/-- Each scope is one level below the query that includes its relation, and a query's own condition is
on the query's level. -/
def Query.depth : Query → Nat
  | { projection, condition, .. } =>
    max (Query.projectionDepth projection) (condition.elim 0 Predicate.depth)

def Query.projectionDepth : Option (Projection Query) → Nat
  | none => 0
  | some (.select _) => 0
  | some (.relations related) => Query.relationsDepth related

def Query.relationsDepth : List (String × Related Query) → Nat
  | [] => 0
  | (_, .all) :: rest => Query.relationsDepth rest
  | (_, .scoped scope) :: rest => max (scope.depth + 1) (Query.relationsDepth rest)

end

/-- The query is the scope of one of the relations. -/
def Query.IsScopeIn (scope : Query) (related : Keyed (Related Query)) : Prop :=
  ∃ name, (name, .scoped scope) ∈ related

theorem Predicate.depthBelow_le_iff {children : List Predicate} {n : Nat} :
    Predicate.depthBelow children ≤ n ↔ ∀ child ∈ children, child.depth < n := by
  induction children with
  | nil => simp [Predicate.depthBelow]
  | cons child rest ih =>
    rw [Predicate.depthBelow, max_le_iff, ih, List.forall_mem_cons, Nat.succ_le_iff]

theorem Query.relationsDepth_le_iff {related : Keyed (Related Query)} {n : Nat} :
    Query.relationsDepth related ≤ n ↔ ∀ scope : Query, scope.IsScopeIn related → scope.depth < n := by
  induction related with
  | nil => simp [Query.relationsDepth, Query.IsScopeIn]
  | cons entry rest ih =>
    obtain ⟨name, _ | scope⟩ := entry
    · rw [Query.relationsDepth, ih]
      simp [Query.IsScopeIn]
    · rw [Query.relationsDepth, max_le_iff, ih, Nat.succ_le_iff]
      simp only [Query.IsScopeIn, List.mem_cons, Prod.mk.injEq, Related.scoped.injEq, exists_or]
      constructor
      · rintro ⟨hs, hr⟩ inner (⟨_, _, rfl⟩ | h)
        · exact hs
        · exact hr inner h
      · intro h
        exact ⟨h scope (.inl ⟨name, rfl, rfl⟩), fun inner hi => h inner (.inr hi)⟩

theorem Query.depth_le_iff {query : Query} {n : Nat} :
    query.depth ≤ n ↔
      (∀ related, query.relations? = some related → ∀ scope : Query, scope.IsScopeIn related →
        scope.depth < n) ∧
      ∀ predicate, query.condition = some predicate → predicate.depth ≤ n := by
  obtain ⟨projection, skip, take, orderBy, condition⟩ := query
  have hc : condition.elim 0 Predicate.depth ≤ n ↔
      ∀ predicate, condition = some predicate → predicate.depth ≤ n := by
    cases condition <;> simp
  rw [Query.depth, max_le_iff, hc]
  refine and_congr_left' ?_
  obtain _ | _ | related := projection
  · simp [Query.projectionDepth, Query.relations?]
  · simp [Query.projectionDepth, Query.relations?]
  · simp [Query.projectionDepth, Query.relations?, Query.relationsDepth_le_iff]

theorem Query.select?_eq_some_iff {query : Query} {listed : Keyed Bool} :
    query.select? = some listed ↔ query.projection = some (.select listed) := by
  unfold Query.select?
  split <;> simp_all

theorem Query.relations?_eq_some_iff {query : Query} {related : Keyed (Related Query)} :
    query.relations? = some related ↔ query.projection = some (.relations related) := by
  unfold Query.relations?
  split <;> simp_all

/-- A name that an order entry can start with: not empty, and not cut short by a space. -/
def OrderField (name : String) : Prop :=
  name ≠ "" ∧ ' ' ∉ name.toList

/-- No map that a query holds on its own level has a name twice or out of order. -/
structure Query.Tidy (query : Query) : Prop where
  select_sorted : ∀ flags, query.select? = some flags → flags.Sorted
  relations_sorted : ∀ related, query.relations? = some related → related.Sorted
  order_sorted : ∀ entries, query.orderBy = some entries → entries.Sorted
  order_fields : ∀ entries, query.orderBy = some entries → ∀ entry ∈ entries, OrderField entry.1

/-- A query that is tidy on every level, with predicates that have the property. -/
inductive Query.Normal (p : Predicate → Prop) : Query → Prop
  | intro {query : Query} (tidy : query.Tidy)
      (scopes_normal : ∀ related, query.relations? = some related →
        ∀ scope : Query, scope.IsScopeIn related → scope.Normal p)
      (condition_fits : ∀ predicate, query.condition = some predicate → p predicate) :
    Normal p query

theorem OrderRequest.orderField {entry : String} {request : String × Direction}
    (h : OrderRequest entry request) : OrderField request.1 := by
  cases h with
  | intro parts named _ => exact ⟨named, parts.space_notMem⟩

theorem orderByOf_eq_ok {order : List String} {entries : Keyed Direction}
    (h : orderByOf order = .ok entries) :
    entries.Sorted ∧ ∀ entry ∈ entries, OrderField entry.1 := by
  obtain ⟨listed, hl, rfl⟩ := map_eq_ok_iff.mp h
  refine ⟨Keyed.sorted_ofList listed, fun entry hm => ?_⟩
  obtain ⟨text, -, he⟩ := Checked.exists_of_mem_each hl (Keyed.mem_of_mem_ofList hm)
  exact (orderEntry_eq_ok_iff.mp he).orderField

theorem relationsOf_eq_ok {scope : Filter → Checked Query} {inclusions : List (Inclusion Filter)}
    {related : Keyed (Related Query)} (h : relationsOf scope inclusions = .ok related) :
    related.Sorted ∧ ∀ query : Query, query.IsScopeIn related →
      ∃ filter : Filter, filter.IsScopeIn inclusions ∧ scope filter = .ok query := by
  obtain ⟨listed, hl, rfl⟩ := map_eq_ok_iff.mp h
  refine ⟨Keyed.sorted_ofList listed, ?_⟩
  rintro query ⟨name, hm⟩
  obtain ⟨inclusion, hi, hr⟩ := Checked.exists_of_mem_each hl (Keyed.mem_of_mem_ofList hm)
  obtain relation | ⟨relation, filter⟩ := inclusion
  · cases hr
  · obtain ⟨found, hf, he⟩ := map_eq_ok_iff.mp hr
    cases he
    exact ⟨filter, ⟨_, hi⟩, hf⟩

theorem Fields.sorted_toSelect (fields : Fields) : fields.toSelect.Sorted := by
  cases fields <;> exact Keyed.sorted_ofList _

namespace Filter

variable {scope : Filter → Checked Query} {clause : Clause → Checked Predicate} {filter : Filter}
  {query : Query}

/-- A projection comes from the fields or from the inclusions of a filter. -/
theorem projectionWith_cases {projection : Option (Projection Query)}
    (h : filter.projectionWith scope = .ok projection) :
    projection = none ∨
      (∃ fields, filter.fields = some fields ∧ projection = some (.select fields.toSelect)) ∨
      ∃ inclusions related, filter.inclusions = some inclusions ∧
        relationsOf scope inclusions = .ok related ∧ projection = some (.relations related) := by
  unfold projectionWith at h
  split at h
  next => cases h
  next fields hf _ =>
    cases h
    exact .inr (.inl ⟨fields, hf, rfl⟩)
  next inclusions _ hi =>
    obtain ⟨related, hr, rfl⟩ := map_eq_ok_iff.mp h
    exact .inr (.inr ⟨inclusions, related, hi, hr, rfl⟩)
  next =>
    cases h
    exact .inl rfl

theorem sorted_of_projectionWith {flags : Keyed Bool}
    (h : filter.projectionWith scope = .ok (some (.select flags))) : flags.Sorted := by
  obtain h | ⟨fields, -, h⟩ | ⟨_, _, -, -, h⟩ := projectionWith_cases h
  · cases h
  · cases h
    exact fields.sorted_toSelect
  · cases h

theorem relationsOf_of_projectionWith {related : Keyed (Related Query)}
    (h : filter.projectionWith scope = .ok (some (.relations related))) :
    ∃ inclusions, filter.inclusions = some inclusions ∧
      relationsOf scope inclusions = .ok related := by
  obtain h | ⟨_, -, h⟩ | ⟨inclusions, _, hi, hr, h⟩ := projectionWith_cases h
  · cases h
  · cases h
  · cases h
    exact ⟨inclusions, hi, hr⟩

/-- A query is given just when each of its parts is. -/
theorem toQueryWith_eq_ok_iff :
    filter.toQueryWith scope clause = .ok query ↔
      filter.projectionWith scope = .ok query.projection ∧
      query.skip = (filter.offset <|> filter.skip) ∧ query.take = filter.limit ∧
      filter.order.mapM orderByOf = .ok query.orderBy ∧
      filter.condition.mapM clause = .ok query.condition := by
  obtain ⟨projection, skip, take, orderBy, condition⟩ := query
  simp only [toQueryWith, bind_eq_ok_iff]
  constructor
  · rintro ⟨_, hp, _, ho, _, hc, h⟩
    cases h
    exact ⟨hp, rfl, rfl, ho, hc⟩
  · rintro ⟨hp, rfl, rfl, ho, hc⟩
    exact ⟨_, hp, _, ho, _, hc, rfl⟩

theorem tidy_of_toQueryWith (h : filter.toQueryWith scope clause = .ok query) : query.Tidy := by
  obtain ⟨hp, -, -, ho, -⟩ := toQueryWith_eq_ok_iff.mp h
  have order : ∀ entries, query.orderBy = some entries →
      entries.Sorted ∧ ∀ entry ∈ entries, OrderField entry.1 := by
    intro entries he
    rw [he] at ho
    obtain ⟨listed, -, ho⟩ := Checked.exists_of_option_mapM ho
    exact orderByOf_eq_ok ho
  refine ⟨fun flags hf => ?_, fun related hr => ?_, fun entries he => (order entries he).1,
    fun entries he => (order entries he).2⟩
  · rw [Query.select?_eq_some_iff.mp hf] at hp
    exact sorted_of_projectionWith hp
  · rw [Query.relations?_eq_some_iff.mp hr] at hp
    obtain ⟨inclusions, -, hr⟩ := relationsOf_of_projectionWith hp
    exact (relationsOf_eq_ok hr).1

theorem exists_scope_of_toQueryWith (h : filter.toQueryWith scope clause = .ok query)
    {related : Keyed (Related Query)} (hr : query.relations? = some related) {inner : Query}
    (hi : inner.IsScopeIn related) :
    ∃ inclusions, filter.inclusions = some inclusions ∧
      ∃ part : Filter, part.IsScopeIn inclusions ∧ scope part = .ok inner := by
  obtain ⟨hp, -⟩ := toQueryWith_eq_ok_iff.mp h
  rw [Query.relations?_eq_some_iff.mp hr] at hp
  obtain ⟨inclusions, hf, hr⟩ := relationsOf_of_projectionWith hp
  exact ⟨inclusions, hf, (relationsOf_eq_ok hr).2 inner hi⟩

theorem exists_tree_of_toQueryWith (h : filter.toQueryWith scope clause = .ok query)
    {predicate : Predicate} (hp : query.condition = some predicate) :
    ∃ tree, filter.condition = some tree ∧ clause tree = .ok predicate := by
  obtain ⟨-, -, -, -, hc⟩ := toQueryWith_eq_ok_iff.mp h
  rw [hp] at hc
  exact Checked.exists_of_option_mapM hc

end Filter

/-- If all clauses of a filter, those of its scopes included, are of one kind, and the predicates of
such clauses have a property, then those of the query have it on every level. -/
theorem Filter.yields_normal {p : Predicate → Prop} {q : Clause → Prop}
    (hc : ∀ limit tree, q tree → Yields p (tree.toPredicate limit)) (limit : Nat) (filter : Filter) :
    Yields (fun query =>
      (∀ part, filter.Reaches part → ∀ tree, part.condition = some tree → q tree) → query.Normal p)
      (filter.toQuery limit) := by
  refine Yields.withinLimit (s := fun (filter : Filter) (query : Query) =>
    (∀ part, filter.Reaches part → ∀ tree, part.condition = some tree → q tree) → query.Normal p)
    (fun limit scope hs filter query h hq => ?_) limit filter
  obtain ⟨hf, hr⟩ := Filter.forall_reaches_iff.mp hq
  -- Every scope of the query was given by the level below for a scope of the filter.
  refine .intro (Filter.tidy_of_toQueryWith h) (fun related hrel inner hi => ?_) fun predicate hp => ?_
  · obtain ⟨inclusions, hinc, part, hm, hg⟩ := Filter.exists_scope_of_toQueryWith h hrel hi
    exact hs part inner hg (hr inclusions hinc part hm)
  · obtain ⟨tree, ht, hg⟩ := Filter.exists_tree_of_toQueryWith h hp
    exact hc limit tree (hf tree ht) predicate hg

theorem Clause.depth_toPredicate_le (limit : Nat) (clause : Clause) :
    Yields (fun predicate => predicate.depth ≤ clause.depth) (clause.toPredicate limit) := by
  refine Yields.withinLimit (s := fun (clause : Clause) (predicate : Predicate) =>
    predicate.depth ≤ clause.depth) (fun _ child hc clause => ?_) limit clause
  have below : ∀ children : List Clause, Yields (fun predicates =>
      Predicate.depthBelow predicates ≤ Clause.depthBelow children) (children.mapM child) := by
    intro children predicates h
    refine Predicate.depthBelow_le_iff.mpr fun predicate hp => ?_
    obtain ⟨tree, ht, hg⟩ := Checked.exists_of_mem_mapM h hp
    have hd : tree.depth < Clause.depthBelow children :=
      Clause.depthBelow_le_iff.mp (Nat.le_refl _) tree ht
    exact Nat.lt_of_le_of_lt (hc tree predicate hg) hd
  cases clause with
  | and children | or children => exact .map (below children)
  | field name condition => exact .map fun _ _ => Nat.le_refl 0

theorem Filter.depth_toQuery_le (limit : Nat) (filter : Filter) :
    Yields (fun query => query.depth ≤ filter.depth) (filter.toQuery limit) := by
  refine Yields.withinLimit (s := fun (filter : Filter) (query : Query) =>
    query.depth ≤ filter.depth) (fun limit scope hs filter query h => ?_) limit filter
  obtain ⟨hsc, htr⟩ := Filter.depth_le_iff.mp (Nat.le_refl filter.depth)
  refine Query.depth_le_iff.mpr ⟨fun related hr inner hi => ?_, fun predicate hp => ?_⟩
  · obtain ⟨inclusions, hinc, part, ⟨name, hm⟩, hg⟩ := Filter.exists_scope_of_toQueryWith h hr hi
    have hd : ¬ filter.depth < part.depth + 1 :=
      Filter.scopesDepth_le_iff.mp (hsc inclusions hinc) _ hm
    have hle := hs part inner hg
    omega
  · obtain ⟨tree, ht, hg⟩ := Filter.exists_tree_of_toQueryWith h hp
    exact Nat.le_trans (Clause.depth_toPredicate_le limit tree predicate hg) (htr tree ht)

theorem Filter.depth_le_of_toQuery {limit : Nat} {filter : Filter} {query : Query}
    (h : filter.toQuery limit = .ok query) : query.depth ≤ limit := by
  have hd : query.depth ≤ filter.depth := Filter.depth_toQuery_le limit filter query h
  have hm := Filter.measured_toQuery limit filter
  rw [h] at hm
  exact Nat.le_trans hd (Nat.not_lt.mp hm.not_tooDeep_of_ok)

end QueryDialect
