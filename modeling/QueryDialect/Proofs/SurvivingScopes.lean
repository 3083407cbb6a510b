import QueryDialect.Proofs.WrittenQueries

namespace QueryDialect

open Checked (bind_eq_ok_iff map_eq_ok_iff)

/-- The filter at the end of a path of relations, if each of its scopes belongs to the last inclusion
of its relation. -/
inductive Filter.Survives : Filter → List String → Filter → Prop
  | root (filter : Filter) : Survives filter [] filter
  | scope {filter scope part : Filter} {name : String} {path : List String}
      {before after : List (Inclusion Filter)}
      (hi : filter.inclusions = some (before ++ .scoped name scope :: after))
      (hl : ∀ later ∈ after, later.name ≠ name) (h : Survives scope path part) :
    Survives filter (name :: path) part

/-- The query for related records at the end of a path of relations. -/
inductive Query.Holds : Query → List String → Query → Prop
  | root (query : Query) : Holds query [] query
  | scope {query scope inner : Query} {name : String} {path : List String}
      {related : Keyed (Related Query)} (hr : query.relations? = some related)
      (hs : related.get? name = some (.scoped scope)) (h : Holds scope path inner) :
    Holds query (name :: path) inner

/-- The value at the end of a path of relations, each under its name in the `include` of the last. -/
inductive Json.Includes : Json → List String → Json → Prop
  | root (json : Json) : Includes json [] json
  | scope {members related : Keyed Json} {scope inner : Json} {name : String} {path : List String}
      (hi : members.get? "include" = some (.object related)) (hs : related.get? name = some scope)
      (h : Includes scope path inner) :
    Includes (.object members) (name :: path) inner

/-- The conversion of a scope, one level below a filter that `limit` levels may follow. -/
def Filter.toQueryBelow : (limit : Nat) → Filter → Checked Query
  | 0, _ => .error (.depthLimitExceeded 0)
  | limit + 1, scope => Checked.deeper (scope.toQuery limit)

theorem Filter.toQuery_eq (limit : Nat) (filter : Filter) :
    filter.toQuery limit =
      filter.toQueryWith (Filter.toQueryBelow limit) (Clause.toPredicate limit) := by
  cases limit <;> rfl

theorem Query.Holds.includes {arrange : List (String × Json) → List (String × Json)}
    (ha : Rearranges arrange) {query inner : Query} {path : List String}
    (h : query.Holds path inner) :
    (query.toJsonWith arrange).Includes path (inner.toJsonWith arrange) := by
  induction h with
  | root query => exact .root _
  | scope hr hs _ ih =>
    rename_i query scope _ name _ related _
    obtain ⟨members, hq, hw⟩ := query.exists_writtenIn ha
    have hi := hw.relations
    rw [hr] at hi
    rw [hq]
    refine .scope hi ?_ ih
    rw [Keyed.get?_map, hs]
    rfl

theorem Inclusion.name_of_toRelated {scope : Filter → Checked Query} {inclusion : Inclusion Filter}
    {entry : String × Related Query} (h : inclusion.toRelated scope = .ok entry) :
    entry.1 = inclusion.name := by
  obtain name | ⟨name, filter⟩ := inclusion
  · cases h
    rfl
  · obtain ⟨query, -, rfl⟩ := map_eq_ok_iff.mp h
    rfl

section Lists

variable {scope : Filter → Checked Query} {before after : List (Inclusion Filter)}
  {related : Keyed (Related Query)}

theorem exists_entries_of_relationsOf {inclusion : Inclusion Filter}
    (h : relationsOf scope (before ++ inclusion :: after) = .ok related) :
    ∃ first entry rest, before.mapM (·.toRelated scope) = .ok first ∧
      inclusion.toRelated scope = .ok entry ∧ after.mapM (·.toRelated scope) = .ok rest ∧
      related = Keyed.ofList (first ++ entry :: rest) := by
  obtain ⟨entries, he, rfl⟩ := map_eq_ok_iff.mp h
  rw [Checked.each_eq_ok_iff, List.mapM_append, bind_eq_ok_iff] at he
  obtain ⟨first, hf, he⟩ := he
  obtain ⟨later, hl, he⟩ := bind_eq_ok_iff.mp he
  cases he
  rw [List.mapM_cons, bind_eq_ok_iff] at hl
  obtain ⟨entry, hi, hl⟩ := hl
  obtain ⟨rest, hr, hl⟩ := bind_eq_ok_iff.mp hl
  cases hl
  exact ⟨first, entry, rest, hf, hi, hr, rfl⟩

theorem get?_of_relationsOf {name : String} {filter : Filter}
    (h : relationsOf scope (before ++ .scoped name filter :: after) = .ok related)
    (hl : ∀ later ∈ after, later.name ≠ name) :
    ∃ query, scope filter = .ok query ∧ related.get? name = some (.scoped query) := by
  obtain ⟨first, entry, rest, -, he, hr, rfl⟩ := exists_entries_of_relationsOf h
  obtain ⟨query, hf, rfl⟩ := map_eq_ok_iff.mp he
  refine ⟨query, hf, Keyed.get?_ofList_of_last fun later hlater => ?_⟩
  obtain ⟨inclusion, hi, ht⟩ := Checked.exists_of_mem_mapM hr hlater
  rw [Inclusion.name_of_toRelated ht]
  exact hl inclusion hi

end Lists

namespace Filter

variable {scope : Filter → Checked Query} {clause : Clause → Checked Predicate} {filter : Filter}
  {query : Query} {inclusions : List (Inclusion Filter)} {limit : Nat}

/-- The projection has the selection and the relations that the filter asks for. -/
theorem parts_of_projectionWith (h : filter.projectionWith scope = .ok query.projection) :
    query.select? = filter.fields.map Fields.toSelect ∧
      filter.inclusions.mapM (relationsOf scope) = .ok query.relations? := by
  obtain ⟨projection, skip, take, orderBy, condition⟩ := query
  unfold projectionWith at h
  split at h
  next => cases h
  next fields hf hi =>
    cases h
    rw [hf, hi]
    exact ⟨rfl, rfl⟩
  next inclusions hf hi =>
    obtain ⟨related, hr, rfl⟩ := map_eq_ok_iff.mp h
    rw [hf, hi, Option.mapM_some, hr]
    exact ⟨rfl, rfl⟩
  next hf hi =>
    cases h
    rw [hf, hi]
    exact ⟨rfl, rfl⟩

theorem relations_of_toQueryWith (h : filter.toQueryWith scope clause = .ok query)
    (hi : filter.inclusions = some inclusions) :
    ∃ related, query.relations? = some related ∧ relationsOf scope inclusions = .ok related := by
  obtain ⟨hp, -⟩ := toQueryWith_eq_ok_iff.mp h
  have hrelations := (parts_of_projectionWith hp).2
  rw [hi, Option.mapM_some] at hrelations
  obtain ⟨related, hr, hs⟩ := map_eq_ok_iff.mp hrelations
  exact ⟨related, hs.symm, hr⟩

theorem exists_scope_of_survives (h : filter.toQueryWith scope clause = .ok query) {name : String}
    {inner : Filter} {before after : List (Inclusion Filter)}
    (hi : filter.inclusions = some (before ++ .scoped name inner :: after))
    (hl : ∀ later ∈ after, later.name ≠ name) :
    ∃ related found, query.relations? = some related ∧ scope inner = .ok found ∧
      related.get? name = some (.scoped found) := by
  obtain ⟨related, hr, hrel⟩ := relations_of_toQueryWith h hi
  obtain ⟨found, hf, hg⟩ := get?_of_relationsOf hrel hl
  exact ⟨related, found, hr, hf, hg⟩

theorem exists_query_of_survives {path : List String} {part : Filter}
    (h : filter.toQuery limit = .ok query) (hs : filter.Survives path part) :
    ∃ inner below, query.Holds path inner ∧ part.toQuery below = .ok inner := by
  induction hs generalizing limit query with
  | root filter => exact ⟨query, limit, .root query, h⟩
  | scope hi hl _ ih =>
    cases limit with
    | zero =>
      obtain ⟨_, _, -, hf, -⟩ := exists_scope_of_survives h hi hl
      cases hf
    | succ limit =>
      obtain ⟨related, found, hr, hf, hg⟩ := exists_scope_of_survives h hi hl
      obtain ⟨inner, below, hh, hq⟩ := ih (Checked.deeper_eq_ok_iff.mp hf)
      exact ⟨inner, below, .scope hr hg hh, hq⟩

theorem orderBy_of_toQuery (h : filter.toQuery limit = .ok query) :
    filter.order.mapM orderByOf = .ok query.orderBy := by
  rw [toQuery_eq] at h
  exact (toQueryWith_eq_ok_iff.mp h).2.2.2.1

end Filter
end QueryDialect
