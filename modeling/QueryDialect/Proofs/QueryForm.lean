import QueryDialect.Proofs.CanonicalSpelling
import QueryDialect.Proofs.NormalQueries
import QueryDialect.Proofs.ReadLeaves
import QueryDialect.Proofs.WrittenClauses
import QueryDialect.Proofs.WrittenQueries

namespace QueryDialect

open Checked (Yields bind_eq_ok_iff)

/-- The keys that a field can be compared by. -/
def comparisonKeys : List String :=
  ["equals", "not", "gt", "gte", "lt", "lte", "in", "match"]

/-- A combinator with predicates, or a field with a literal or a comparison. A literal is not an
object. -/
inductive PredicateForm : Json → Prop
  | and {items : List Json} (h : ∀ item ∈ items, PredicateForm item) :
    PredicateForm (.object [("AND", .array items)])
  | or {items : List Json} (h : ∀ item ∈ items, PredicateForm item) :
    PredicateForm (.object [("OR", .array items)])
  | literal (name : String) {value : Json} (h : ∀ members, value ≠ .object members) :
    PredicateForm (.object [(name, value)])
  | comparison (name : String) {key : String} (h : key ∈ comparisonKeys) (operand : Json) :
    PredicateForm (.object [(name, .object [(key, operand)])])

/-- True, which stands for all records of a relation, or a query for them. -/
inductive RelatedForm (scope : Json → Prop) : Json → Prop
  | all : RelatedForm scope (.bool true)
  | scoped {json : Json} (h : scope json) : RelatedForm scope json

/-- The members that a query may have, with what they hold. A map has its names in order, and none of
them twice. -/
inductive MemberForm (scope : Json → Prop) : String → Json → Prop
  | select {entries : Keyed Json} (hs : entries.Sorted)
      (h : ∀ entry ∈ entries, ∃ flag, entry.2 = .bool flag) :
    MemberForm scope "select" (.object entries)
  | include {entries : Keyed Json} (hs : entries.Sorted)
      (h : ∀ entry ∈ entries, RelatedForm scope entry.2) :
    MemberForm scope "include" (.object entries)
  | skip (count : UInt64) : MemberForm scope "skip" (.ofUInt64 count)
  | take (count : UInt64) : MemberForm scope "take" (.ofUInt64 count)
  | orderBy {entries : Keyed Json} (hs : entries.Sorted)
      (h : ∀ entry ∈ entries,
        OrderField entry.1 ∧ (entry.2 = .string "asc" ∨ entry.2 = .string "desc")) :
    MemberForm scope "orderBy" (.object entries)
  | where {json : Json} (h : PredicateForm json) : MemberForm scope "where" json

/-- An object of such members, among them a selection or inclusions but never both. -/
inductive QueryForm : Json → Prop
  | object {members : Keyed Json} (hs : members.Sorted)
      (hp : members.get? "select" = none ∨ members.get? "include" = none)
      (h : ∀ member ∈ members, MemberForm QueryForm member.1 member.2) :
    QueryForm (.object members)

theorem Keyword.text_mem_comparisonKeys (keyword : Keyword) : keyword.text ∈ comparisonKeys := by
  cases keyword <;> decide

theorem PredicateForm.of_becomes {clause : Clause} {json : Json}
    (hr : clause.AllLeaves Condition.Readable) (h : clause.Becomes json) : PredicateForm json := by
  induction clause generalizing json with
  | and children ih =>
    obtain ⟨items, hi, rfl⟩ := Clause.becomes_and_iff.mp h
    refine .and fun item hm => ?_
    obtain ⟨child, hc, hb⟩ := exists_mem_of_forall₂ hi.flip hm
    exact ih child hc (Clause.allLeaves_and_iff.mp hr child hc) hb
  | or children ih =>
    obtain ⟨items, hi, rfl⟩ := Clause.becomes_or_iff.mp h
    refine .or fun item hm => ?_
    obtain ⟨child, hc, hb⟩ := exists_mem_of_forall₂ hi.flip hm
    exact ih child hc (Clause.allLeaves_or_iff.mp hr child hc) hb
  | field name condition =>
    obtain ⟨value, hv, rfl⟩ := Clause.becomes_field_iff.mp h
    obtain ⟨-, -, hl⟩ := Clause.allLeaves_field_iff.mp hr
    -- What was a literal is no object, so every object is a comparison.
    cases hv with
    | literal => exact .literal name fun members he => hl members (by rw [he])
    | operator keyword operand => exact .comparison name keyword.text_mem_comparisonKeys operand

theorem Query.select?_eq_none_or (query : Query) :
    query.select? = none ∨ query.relations? = none := by
  obtain ⟨_ | _ | _, skip, take, orderBy, condition⟩ := query
  · exact .inl rfl
  · exact .inr rfl
  · exact .inl rfl

/-- The selection and the inclusions of a query never come together in its JSON. -/
theorem Query.get?_select_eq_none_or (query : Query) :
    (Keyed.ofList (query.membersWith Keyed.ofList).present).get? "select" = none ∨
      (Keyed.ofList (query.membersWith Keyed.ofList).present).get? "include" = none := by
  have absent : ∀ {key : String}, (∀ value, (key, some value) ∉ query.membersWith Keyed.ofList) →
      (Keyed.ofList (query.membersWith Keyed.ofList).present).get? key = none := by
    intro key h
    refine Keyed.get?_eq_none_iff.mpr fun entry he hk => ?_
    have hm := Keyed.mem_present_iff.mp (Keyed.mem_of_mem_ofList he)
    exact h entry.2 (hk ▸ hm)
  rcases query.select?_eq_none_or with hs | hr
  · exact .inl (absent fun value hm => by simp [membersWith, hs] at hm)
  · exact .inr (absent fun value hm => by simp [membersWith, hr] at hm)

section Members

variable {scope : Json → Prop}

theorem MemberForm.of_select {listed : Keyed Bool} (hs : listed.Sorted) :
    MemberForm scope "select" (selectToJson listed) := by
  refine .select (Keyed.sorted_map_iff.mpr hs) fun entry hm => ?_
  obtain ⟨flag, -, rfl⟩ := List.mem_map.mp hm
  exact ⟨flag.2, rfl⟩

theorem MemberForm.of_relations {related : Keyed (Related Query)} (hs : related.Sorted)
    (h : ∀ query : Query, query.IsScopeIn related → scope query.toJson) :
    MemberForm scope "include" (includeToJsonWith Keyed.ofList related) := by
  refine .include (Keyed.sorted_map_iff.mpr hs) fun entry hm => ?_
  obtain ⟨⟨name, _ | query⟩, hr, rfl⟩ := List.mem_map.mp hm
  · exact .all
  · exact .scoped (h query ⟨name, hr⟩)

theorem MemberForm.of_orderBy {entries : Keyed Direction} (hs : entries.Sorted)
    (h : ∀ entry ∈ entries, OrderField entry.1) :
    MemberForm scope "orderBy" (orderByToJson entries) := by
  refine .orderBy (Keyed.sorted_map_iff.mpr hs) fun member hm => ?_
  obtain ⟨⟨field, direction⟩, he, rfl⟩ := List.mem_map.mp hm
  refine ⟨h _ he, ?_⟩
  cases direction with
  | ascending => exact .inl rfl
  | descending => exact .inr rfl

end Members

theorem Query.form_toJson {query : Query}
    (h : query.Normal fun predicate => PredicateForm predicate.toJson) : QueryForm query.toJson := by
  induction h with
  | @intro query tidy _ hc ih =>
    have hf : ∀ member ∈ query.membersWith Keyed.ofList, ∀ value, member.2 = some value →
        MemberForm QueryForm member.1 value := by
      simp only [membersWith, List.forall_mem_cons, Option.map_eq_some_iff]
      refine ⟨?_, ?_, ?_, ?_, ?_, ?_, by simp⟩
      · rintro _ ⟨listed, hs, rfl⟩
        exact .of_select (tidy.select_sorted listed hs)
      · rintro _ ⟨related, hr, rfl⟩
        exact .of_relations (tidy.relations_sorted related hr) (ih related hr)
      · rintro _ ⟨count, -, rfl⟩
        exact .skip count
      · rintro _ ⟨count, -, rfl⟩
        exact .take count
      · rintro _ ⟨entries, ho, rfl⟩
        exact .of_orderBy (tidy.order_sorted entries ho) (tidy.order_fields entries ho)
      · rintro _ ⟨predicate, hp, rfl⟩
        exact .where (hc predicate hp)
    rw [toJson, toJsonWith_eq]
    refine .object (Keyed.sorted_ofList _) query.get?_select_eq_none_or fun member hm => ?_
    exact hf _ (Keyed.mem_present_iff.mp (Keyed.mem_of_mem_ofList hm)) member.2 rfl

/-- Every clause that a read filter holds, on its own level or in a scope, is one that JSON can
spell. -/
theorem Filter.readable_of_ofJson {limit : Nat} {json : Json} {filter : Filter}
    (h : Filter.ofJson limit json = .ok filter) :
    ∀ part, filter.Reaches part → ∀ tree, part.condition = some tree →
      tree.AllLeaves Condition.Readable := by
  intro part hr tree ht
  obtain ⟨hs, -⟩ := (Filter.accepts_ofJson limit json filter).mp h
  obtain ⟨inner, hp, -⟩ := hs.exists_of_reaches hr
  cases hp with
  | object _ _ _ _ _ _ condition =>
    obtain ⟨value, -, hv⟩ := (ht ▸ condition).exists_of_some
    have hj : Clause.ofJson tree.depth value = .ok tree :=
      (Clause.accepts_ofJson _ value tree).mpr ⟨hv, Nat.le_refl _⟩
    exact Clause.yields_ofJson tree.depth value tree hj

/-- Whatever a conversion from JSON gives is a query of the target dialect, nested no deeper than the
limit. -/
theorem converted_json_has_query_form {options : Options} {source out : Json}
    (h : Filter.convertJson options source = .ok out) :
    QueryForm out ∧
      ∃ filter query, Filter.ofJson options.limit source = .ok filter ∧
        (filter.convert { options with exclusive := true }).1 = .ok query ∧ out = query.toJson ∧
        query.depth ≤ options.limit := by
  obtain ⟨filter, hf, h⟩ := bind_eq_ok_iff.mp h
  obtain ⟨query, hq, h⟩ := bind_eq_ok_iff.mp h
  cases h
  have hg : filter.toQuery options.limit = .ok query := by
    rwa [Filter.convert_of_exclusive rfl] at hq
  have hc : ∀ limit (tree : Clause), tree.AllLeaves Condition.Readable →
      Yields (fun predicate : Predicate => PredicateForm predicate.toJson)
        (tree.toPredicate limit) := by
    intro limit tree hr
    exact (Clause.yields_toPredicate limit tree).mono fun _ => PredicateForm.of_becomes hr
  have hn : query.Normal fun predicate => PredicateForm predicate.toJson :=
    Filter.yields_normal hc options.limit filter query hg (Filter.readable_of_ofJson hf)
  exact ⟨Query.form_toJson hn, filter, query, hf, hq, rfl, Filter.depth_le_of_toQuery hg⟩

theorem nested_filter_has_query_form :
    let scope := Json.object [("limit", .ofUInt64 5), ("order", .string "name DESC"),
      ("where", .object [("and", .array [.object [("age", .object [("inq", .array [])])]])])]
    let source := Json.object [("include", .array [.string "tags",
      .object [("relation", .string "posts"), ("scope", scope)]])]
    let out := Json.object [("include", .object [
      ("posts", .object [("orderBy", .object [("name", .string "desc")]), ("take", .ofUInt64 5),
        ("where", .object [("AND", .array [.object [("age", .object [("in", .array [])])]])])]),
      ("tags", .bool true)])]
    Filter.convertJson { maxDepth := 2 } source = .ok out ∧ QueryForm out := by
  intro scope source out
  have h : Filter.convertJson { maxDepth := 2 } source = .ok out := rfl
  exact ⟨h, (converted_json_has_query_form h).1⟩

end QueryDialect
