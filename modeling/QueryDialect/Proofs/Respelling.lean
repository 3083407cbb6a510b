import QueryDialect.Proofs.NormalQueries
import QueryDialect.Proofs.WrittenClauses

namespace QueryDialect

open Checked (each_eq_ok_iff mapM_eq_ok_iff map_eq_ok_iff)

def FieldTest.respelled : FieldTest → Condition
  | .shorthand literal => .literal literal
  | .compare keyword operand => .operator keyword.operator operand

mutual

def Predicate.respelled : Predicate → Clause
  | .and children => .and (Predicate.listRespelled children)
  | .or children => .or (Predicate.listRespelled children)
  | .field name test => .field name test.respelled

def Predicate.listRespelled : List Predicate → List Clause
  | [] => []
  | child :: rest => child.respelled :: Predicate.listRespelled rest

end

def orderRespelled (entry : String × Direction) : String :=
  entry.1 ++ " " ++ entry.2.text

mutual

/-- A selection comes back as flags, the number of records to take as a limit, and the records to skip
as a member of their own rather than as an offset. -/
def Query.respelled : Query → Filter
  | { projection, skip, take, orderBy, condition } =>
    { fields := match projection with
        | some (.select flags) => some (.flags flags)
        | _ => none
      inclusions := Query.inclusionsRespelled? projection
      skip
      limit := take
      order := orderBy.map (·.map orderRespelled)
      condition := condition.map Predicate.respelled }

def Query.inclusionsRespelled? : Option (Projection Query) → Option (List (Inclusion Filter))
  | none => none
  | some (.select _) => none
  | some (.relations related) => some (Query.inclusionsRespelled related)

def Query.inclusionsRespelled : List (String × Related Query) → List (Inclusion Filter)
  | [] => []
  | (name, .all) :: rest => .relation name :: Query.inclusionsRespelled rest
  | (name, .scoped scope) :: rest =>
    .scoped name scope.respelled :: Query.inclusionsRespelled rest

end

/-- If every level gives back what was written down, given that the level below does, then so does the
whole recursion, as deep as the limit allows. -/
theorem Checked.withinLimit_written {α β : Type} {level : Nat → (α → Checked β) → α → Checked β}
    {write : β → α} {fits : β → Prop} {depth : β → Nat}
    (hl : ∀ limit inner,
      (∀ value, fits value → depth value < limit → inner (write value) = .ok value) →
      ∀ value, fits value → depth value ≤ limit → level limit inner (write value) = .ok value)
    (limit : Nat) (value : β) (hf : fits value) (hd : depth value ≤ limit) :
    withinLimit level limit (write value) = .ok value := by
  induction limit generalizing value with
  | zero =>
    -- Nothing is less deep than zero, so that the level below is not needed.
    exact hl 0 _ (fun _ _ h => absurd h (Nat.not_lt_zero _)) value hf hd
  | succ limit ih =>
    rw [withinLimit_succ]
    refine hl (limit + 1) _ (fun below hb hlt => ?_) value hf hd
    rw [deeper_eq_ok_iff]
    exact ih below hb (Nat.le_of_lt_succ hlt)

theorem FieldTest.toTest_respelled (name : String) (test : FieldTest) :
    test.respelled.toTest name = .ok test := by
  cases test with
  | shorthand literal => rfl
  | compare keyword operand =>
    rw [respelled, Condition.toTest, Operator.keyword?_eq_some_iff.mpr rfl]

namespace Predicate

theorem listRespelled_eq_map (predicates : List Predicate) :
    listRespelled predicates = predicates.map respelled := by
  induction predicates with
  | nil => rfl
  | cons predicate rest ih => rw [listRespelled, ih, List.map_cons]

theorem toPredicateWith_respelled {limit : Nat} {child : Clause → Checked Predicate}
    (hc : ∀ predicate : Predicate, predicate.depth < limit →
      child predicate.respelled = .ok predicate)
    {predicate : Predicate} (hd : predicate.depth ≤ limit) :
    predicate.respelled.toPredicateWith child = .ok predicate := by
  have list : ∀ children : List Predicate, depthBelow children ≤ limit →
      (listRespelled children).mapM child = .ok children := by
    intro children hd
    rw [listRespelled_eq_map]
    apply mapM_map_eq_pure
    intro predicate hm
    exact hc predicate (depthBelow_le_iff.mp hd predicate hm)
  cases predicate with
  | and children => exact map_eq_ok_iff.mpr ⟨children, list children hd, rfl⟩
  | or children => exact map_eq_ok_iff.mpr ⟨children, list children hd, rfl⟩
  | field name test => exact map_eq_ok_iff.mpr ⟨test, test.toTest_respelled name, rfl⟩

theorem toPredicate_respelled {limit : Nat} {predicate : Predicate} (hd : predicate.depth ≤ limit) :
    predicate.respelled.toPredicate limit = .ok predicate := by
  have level : ∀ limit child, (∀ predicate : Predicate, True → predicate.depth < limit →
      child predicate.respelled = .ok predicate) →
      ∀ predicate : Predicate, True → predicate.depth ≤ limit →
        predicate.respelled.toPredicateWith child = .ok predicate := by
    intro limit child hc predicate _ hd
    exact toPredicateWith_respelled (fun below => hc below trivial) hd
  exact Checked.withinLimit_written level limit predicate trivial hd

end Predicate

theorem orderEntry_respelled {entry : String × Direction} (h : OrderField entry.1) :
    orderEntry (orderRespelled entry) = .ok entry := by
  obtain ⟨field, direction⟩ := entry
  have hd : Direction.ofText? (Text.trim direction.text) = some direction := by
    cases direction <;> rfl
  have parts : EntryParts (orderRespelled (field, direction)) field direction.text := .divided h.2
  exact orderEntry_eq_ok_iff.mpr (.intro parts h.1 (Direction.ofText?_eq_some_iff.mp hd))

theorem orderByOf_respelled {entries : Keyed Direction} (hs : entries.Sorted)
    (h : ∀ entry ∈ entries, OrderField entry.1) :
    orderByOf (entries.map orderRespelled) = .ok entries := by
  refine map_eq_ok_iff.mpr ⟨entries, ?_, Keyed.ofList_of_sorted hs⟩
  rw [each_eq_ok_iff]
  apply mapM_map_eq_pure
  intro entry hm
  exact orderEntry_respelled (h entry hm)

def Related.respelled (name : String) : Related Query → Inclusion Filter
  | .all => .relation name
  | .scoped scope => .scoped name scope.respelled

namespace Query

theorem inclusionsRespelled_eq_map (related : Keyed (Related Query)) :
    inclusionsRespelled related = related.map fun entry => entry.2.respelled entry.1 := by
  induction related with
  | nil => rfl
  | cons entry rest ih =>
    obtain ⟨name, _ | scope⟩ := entry
    · rw [inclusionsRespelled, ih, List.map_cons, Related.respelled]
    · rw [inclusionsRespelled, ih, List.map_cons, Related.respelled]

theorem relationsOf_respelled {scope : Filter → Checked Query} {related : Keyed (Related Query)}
    (hs : related.Sorted)
    (h : ∀ query : Query, query.IsScopeIn related → scope query.respelled = .ok query) :
    relationsOf scope (inclusionsRespelled related) = .ok related := by
  refine map_eq_ok_iff.mpr ⟨related, ?_, Keyed.ofList_of_sorted hs⟩
  rw [each_eq_ok_iff, inclusionsRespelled_eq_map]
  apply mapM_map_eq_pure
  rintro ⟨name, _ | query⟩ hm
  · rfl
  · exact map_eq_ok_iff.mpr ⟨query, h query ⟨name, hm⟩, rfl⟩

variable {p : Predicate → Prop} {query : Query} {limit : Nat}

theorem projectionWith_respelled {scope : Filter → Checked Query} (tidy : query.Tidy)
    (hs : ∀ related, query.relations? = some related → ∀ inner : Query, inner.IsScopeIn related →
      scope inner.respelled = .ok inner) :
    query.respelled.projectionWith scope = .ok query.projection := by
  obtain ⟨_ | listed | related, skip, take, orderBy, condition⟩ := query
  · rfl
  · have hl : Keyed.ofList listed = listed :=
      Keyed.ofList_of_sorted (tidy.select_sorted listed rfl)
    change Except.ok (some (Projection.select (Keyed.ofList listed))) = _
    rw [hl]
  · have hr : relationsOf scope (inclusionsRespelled related) = .ok related :=
      relationsOf_respelled (tidy.relations_sorted related rfl) (hs related rfl)
    exact map_eq_ok_iff.mpr ⟨related, hr, rfl⟩

theorem toQueryWith_respelled {scope : Filter → Checked Query}
    (hs : ∀ inner : Query, inner.Normal p → inner.depth < limit →
      scope inner.respelled = .ok inner)
    (hn : query.Normal p) (hd : query.depth ≤ limit) :
    query.respelled.toQueryWith scope (Clause.toPredicate limit) = .ok query := by
  obtain ⟨tidy, hsc, -⟩ := hn
  obtain ⟨hds, hdc⟩ := depth_le_iff.mp hd
  have projection : query.respelled.projectionWith scope = .ok query.projection :=
    projectionWith_respelled tidy fun related hr inner hi =>
      hs inner (hsc related hr inner hi) (hds related hr inner hi)
  have order : (query.orderBy.map (·.map orderRespelled)).mapM orderByOf = .ok query.orderBy :=
    option_mapM_map_eq_pure fun entries he =>
      orderByOf_respelled (tidy.order_sorted entries he) (tidy.order_fields entries he)
  have condition : (query.condition.map Predicate.respelled).mapM (Clause.toPredicate limit) =
      .ok query.condition :=
    option_mapM_map_eq_pure fun predicate hp =>
      Predicate.toPredicate_respelled (hdc predicate hp)
  cases query
  exact Filter.toQueryWith_eq_ok_iff.mpr ⟨projection, rfl, rfl, order, condition⟩

theorem toQuery_respelled (hn : query.Normal p) (hd : query.depth ≤ limit) :
    query.respelled.toQuery limit = .ok query :=
  Checked.withinLimit_written (fun _ _ hs _ => toQueryWith_respelled hs) limit query hn hd

end Query

/-- A query that a conversion gives is given again when it is spelled in the source dialect and
converted under the same limit, in either mode. -/
theorem converted_query_is_stable {options : Options} {filter : Filter} {query : Query}
    (h : (filter.convert options).1 = .ok query) (exclusive : Bool) :
    (query.respelled.convert { options with exclusive }).1 = .ok query := by
  have hq : filter.toQuery options.limit = .ok query := Filter.convert_eq_ok_iff.mp h
  have hn : query.Normal fun _ => True :=
    Filter.yields_normal (q := fun _ => True) (fun _ _ _ _ _ => trivial) options.limit filter query hq
      fun _ _ _ _ => trivial
  have hd : query.depth ≤ options.limit := Filter.depth_le_of_toQuery hq
  rw [Filter.convert_eq_ok_iff]
  exact Query.toQuery_respelled hn hd

/-- Repeated and unordered names, an order entry with more than one space and an offset of zero: the
first conversion settles all of that. -/
theorem settled_query_is_stable :
    let filter : Filter :=
      { inclusions := some [.scoped "tags" .empty, .relation "tags",
          .scoped "posts" { fields := some (.flags [("b", true), ("a", true), ("b", false)]) }]
        offset := some 0, skip := some 7, order := some ["name  DESC ", "id"]
        condition := some (.or [.field "age" (.operator .inq .null), .field "b" (.literal .null)]) }
    let query : Query :=
      { projection := some (.relations
          [("posts", .scoped { projection := some (.select [("a", true), ("b", false)]) }),
            ("tags", .all)])
        skip := some 0, orderBy := some [("id", .ascending), ("name", .descending)]
        condition := some (.or [.field "age" (.compare .among .null), .field "b" (.shorthand .null)]) }
    (filter.convert { exclusive := true, maxDepth := 1 }).1 = .ok query ∧
      (query.respelled.convert { exclusive := false, maxDepth := 1 }).1 = .ok query := by
  intro filter query
  have h : (filter.convert { exclusive := true, maxDepth := 1 }).1 = .ok query := rfl
  exact ⟨h, converted_query_is_stable h false⟩

end QueryDialect
