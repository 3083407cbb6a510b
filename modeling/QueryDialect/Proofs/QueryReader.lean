import QueryDialect.Proofs.WrittenClauses
import QueryDialect.Proofs.WrittenQueries

namespace QueryDialect

def Keyword.ofText? (text : String) : Option Keyword :=
  [equals, not, gt, gte, lt, lte, among, matching].find? (·.text = text)

def Direction.ofWord? (word : String) : Option Direction :=
  [ascending, descending].find? (·.text = word)

def Direction.ofJson? (json : Json) : Option Direction :=
  json.string?.bind ofWord?

def FieldTest.ofJson? : Json → Option FieldTest
  | .object [(key, operand)] => (Keyword.ofText? key).map fun keyword => .compare keyword operand
  | .object _ => none
  | literal => some (.shorthand literal)

mutual

def Predicate.ofJson? : Json → Option Predicate
  | .object [(key, value)] =>
    if key = "AND" then .and <$> Predicate.childrenOfJson? value
    else if key = "OR" then .or <$> Predicate.childrenOfJson? value
    else .field key <$> FieldTest.ofJson? value
  | _ => none

def Predicate.childrenOfJson? : Json → Option (List Predicate)
  | .array items => Predicate.listOfJson? items
  | _ => none

def Predicate.listOfJson? : List Json → Option (List Predicate)
  | [] => some []
  | item :: rest => do
    let predicate ← Predicate.ofJson? item
    let others ← Predicate.listOfJson? rest
    return predicate :: others

end

/-- The entries of an object whose values are read by `value`. -/
def mapOfJson? {α : Type} (value : Json → Option α) : Json → Option (Keyed α)
  | .object members => members.mapM fun member => (fun found => (member.1, found)) <$> value member.2
  | _ => none

/-- There are not both flags and relations. -/
def Projection.ofParts? {Scope : Type} :
    Option (Keyed Bool) → Option (Keyed (Related Scope)) → Option (Option (Projection Scope))
  | none, none => some none
  | some flags, none => some (some (.select flags))
  | none, some related => some (some (.relations related))
  | some _, some _ => none

mutual

def Query.ofJson? : Json → Option Query
  | .object members => do
    let related ← Query.includedIn? members
    let flags ← (Keyed.get? "select" members).mapM (mapOfJson? Json.bool?)
    let projection ← Projection.ofParts? flags related
    let skip ← (Keyed.get? "skip" members).mapM Json.uint64?
    let take ← (Keyed.get? "take" members).mapM Json.uint64?
    let orderBy ← (Keyed.get? "orderBy" members).mapM (mapOfJson? Direction.ofJson?)
    let condition ← (Keyed.get? "where" members).mapM Predicate.ofJson?
    return { projection, skip, take, orderBy, condition }
  | _ => none

/-- The relations under `include`, if there is such a member. -/
def Query.includedIn? : List (String × Json) → Option (Option (Keyed (Related Query)))
  | [] => some none
  | (key, value) :: rest =>
    if key = "include" then some <$> Query.relationsOfJson? value else Query.includedIn? rest

def Query.relationsOfJson? : Json → Option (Keyed (Related Query))
  | .object members => Query.relatedOfJson? members
  | _ => none

def Query.relatedOfJson? : List (String × Json) → Option (Keyed (Related Query))
  | [] => some []
  | (name, .bool true) :: rest => ((name, .all) :: ·) <$> Query.relatedOfJson? rest
  | (name, json) :: rest => do
    let scope ← Query.ofJson? json
    let others ← Query.relatedOfJson? rest
    return (name, .scoped scope) :: others

end

/-- A test that is not taken for another: its literal is no object. -/
def FieldTest.Legible (test : FieldTest) : Prop :=
  ∀ members, test ≠ .shorthand (.object members)

/-- No field is taken for a combinator, and no literal for a comparison. -/
inductive Predicate.Legible : Predicate → Prop
  | and {children : List Predicate} (h : ∀ child ∈ children, child.Legible) :
    Legible (.and children)
  | or {children : List Predicate} (h : ∀ child ∈ children, child.Legible) : Legible (.or children)
  | field {name : String} {test : FieldTest} (ha : name ≠ "AND") (ho : name ≠ "OR")
      (ht : test.Legible) :
    Legible (.field name test)

/-- The conditions on all levels are legible. -/
inductive Query.Legible : Query → Prop
  | intro {query : Query}
      (condition : ∀ predicate, query.condition = some predicate → predicate.Legible)
      (scopes : ∀ related, query.relations? = some related →
        ∀ scope : Query, scope.IsScopeIn related → scope.Legible) :
    Legible query

theorem Keyword.ofText?_text (keyword : Keyword) : ofText? keyword.text = some keyword := by
  cases keyword <;> rfl

theorem Direction.ofJson?_text (direction : Direction) :
    ofJson? (.string direction.text) = some direction := by
  cases direction <;> rfl

theorem FieldTest.ofJson?_toJson {test : FieldTest} (h : test.Legible) :
    ofJson? test.toJson = some test := by
  cases test with
  | shorthand literal =>
    cases literal with
    | object members => exact absurd rfl (h members)
    | _ => rfl
  | compare keyword operand => rw [toJson, ofJson?, keyword.ofText?_text, Option.map_some]

namespace Predicate

theorem listOfJson?_eq_mapM (items : List Json) : listOfJson? items = items.mapM ofJson? := by
  induction items with
  | nil => rfl
  | cons item rest ih =>
    rw [listOfJson?, List.mapM_cons, ih]

theorem childrenOfJson?_listToJson {children : List Predicate}
    (h : ∀ child ∈ children, ofJson? child.toJson = some child) :
    childrenOfJson? (.array (listToJson children)) = some children := by
  rw [childrenOfJson?, listOfJson?_eq_mapM, listToJson_eq_map]
  exact mapM_map_eq_pure h

theorem ofJson?_toJson {predicate : Predicate} (h : predicate.Legible) :
    ofJson? predicate.toJson = some predicate := by
  induction h with
  | and _ ih =>
    rw [toJson, ofJson?, if_pos rfl, childrenOfJson?_listToJson ih]
    rfl
  | or _ ih =>
    rw [toJson, ofJson?, if_neg (by decide), if_pos rfl, childrenOfJson?_listToJson ih]
    rfl
  | field ha ho ht =>
    rw [toJson, ofJson?, if_neg ha, if_neg ho, FieldTest.ofJson?_toJson ht]
    rfl

end Predicate

theorem mapOfJson?_map {α : Type} {value : Json → Option α} {entries : Keyed α} (write : α → Json)
    (h : ∀ entry ∈ entries, value (write entry.2) = some entry.2) :
    mapOfJson? value (.object (entries.map fun entry => (entry.1, write entry.2))) =
      some entries := by
  refine mapM_map_eq_pure fun entry hm => ?_
  rw [h entry hm]
  rfl

theorem mapOfJson?_selectToJson (flags : Keyed Bool) :
    mapOfJson? Json.bool? (selectToJson flags) = some flags :=
  mapOfJson?_map .bool fun _ _ => rfl

theorem mapOfJson?_orderByToJson (entries : Keyed Direction) :
    mapOfJson? Direction.ofJson? (orderByToJson entries) = some entries :=
  mapOfJson?_map (fun direction : Direction => .string direction.text)
    fun entry _ => entry.2.ofJson?_text

namespace Query

variable {arrange : List (String × Json) → List (String × Json)} {query : Query}

theorem includedIn?_eq (members : Keyed Json) :
    includedIn? members = (members.get? "include").mapM relationsOfJson? := by
  induction members with
  | nil => rfl
  | cons member rest ih =>
    rw [includedIn?, Keyed.get?, ih]
    split <;> rfl

theorem relatedOfJson?_object (name : String) (members rest : Keyed Json) :
    relatedOfJson? ((name, .object members) :: rest) = (do
      let scope ← ofJson? (.object members)
      let others ← relatedOfJson? rest
      return (name, .scoped scope) :: others) := rfl

theorem relationsOfJson?_includeToJsonWith {related : Keyed (Related Query)}
    (h : ∀ scope : Query, scope.IsScopeIn related → ofJson? (scope.toJsonWith arrange) = some scope) :
    relationsOfJson? (includeToJsonWith arrange related) = some related := by
  change relatedOfJson? (related.map fun entry => (entry.1, entry.2.toJsonWith arrange)) = _
  induction related with
  | nil => rfl
  | cons entry rest ih =>
    have hr := ih fun scope hs => h scope (hs.imp fun _ => List.mem_cons_of_mem entry)
    obtain ⟨name, _ | scope⟩ := entry
    · rw [List.map_cons, Related.toJsonWith, relatedOfJson?, hr]
      rfl
    · have hs := h scope ⟨name, List.mem_cons_self ..⟩
      -- A scope is written as an object, which is not taken for all related records.
      rw [toJsonWith_eq] at hs
      rw [List.map_cons, Related.toJsonWith, toJsonWith_eq, relatedOfJson?_object, hs, hr]
      rfl

theorem projection_ofParts? (query : Query) :
    Projection.ofParts? query.select? query.relations? = some query.projection := by
  obtain ⟨_ | _ | _, skip, take, orderBy, condition⟩ := query <;> rfl

/-- What is found among the members is put together to the query again. -/
theorem ofJson?_of_writtenIn {members : Keyed Json} (hw : query.WrittenIn arrange members)
    (hr : ∀ related, query.relations? = some related →
      ∀ scope : Query, scope.IsScopeIn related → ofJson? (scope.toJsonWith arrange) = some scope)
    (hc : ∀ predicate, query.condition = some predicate → predicate.Legible) :
    ofJson? (.object members) = some query := by
  have related : (members.get? "include").mapM relationsOfJson? = some query.relations? := by
    rw [hw.relations]
    exact option_mapM_map_eq_pure fun related h => relationsOfJson?_includeToJsonWith (hr related h)
  have flags : (members.get? "select").mapM (mapOfJson? Json.bool?) = some query.select? := by
    rw [hw.select]
    exact option_mapM_map_eq_pure fun flags _ => mapOfJson?_selectToJson flags
  have count : ∀ count? : Option UInt64,
      (count?.map Json.ofUInt64).mapM Json.uint64? = some count? :=
    fun _ => option_mapM_map_eq_pure fun _ _ => Json.uint64?_eq_some_iff.mpr rfl
  have orderBy : (members.get? "orderBy").mapM (mapOfJson? Direction.ofJson?) =
      some query.orderBy := by
    rw [hw.orderBy]
    exact option_mapM_map_eq_pure fun entries _ => mapOfJson?_orderByToJson entries
  have condition : (members.get? "where").mapM Predicate.ofJson? = some query.condition := by
    rw [hw.condition]
    exact option_mapM_map_eq_pure fun predicate h => Predicate.ofJson?_toJson (hc predicate h)
  rw [ofJson?, includedIn?_eq, related, flags, hw.skip, count, hw.take, count, orderBy, condition]
  simp only [Option.bind_eq_bind, Option.bind_some, projection_ofParts?]
  cases query
  rfl

theorem ofJson?_toJsonWith (ha : Rearranges arrange) (h : query.Legible) :
    ofJson? (query.toJsonWith arrange) = some query := by
  induction h with
  | intro condition _ ih =>
    obtain ⟨members, hq, hw⟩ := exists_writtenIn ha _
    rw [hq]
    exact ofJson?_of_writtenIn hw ih condition

end Query

/-- A legible query can be read back from its JSON, whichever the order of the members is, and no
other legible query has the same JSON. -/
theorem legible_query_is_read_back {query : Query} (h : query.Legible) :
    Query.ofJson? query.toJson = some query ∧ Query.ofJson? query.toJsonAsDeclared = some query ∧
      ∀ other : Query, other.Legible → other ≠ query →
        other.toJson ≠ query.toJson ∧ other.toJsonAsDeclared ≠ query.toJsonAsDeclared := by
  have sorted : ∀ {query : Query}, query.Legible → Query.ofJson? query.toJson = some query :=
    Query.ofJson?_toJsonWith rearranges_ofList
  have declared : ∀ {query : Query}, query.Legible →
      Query.ofJson? query.toJsonAsDeclared = some query :=
    Query.ofJson?_toJsonWith rearranges_id
  refine ⟨sorted h, declared h, fun other ho hn => ⟨fun he => hn ?_, fun he => hn ?_⟩⟩
  · rw [← Option.some.injEq, ← sorted ho, he, sorted h]
  · rw [← Option.some.injEq, ← declared ho, he, declared h]

/-- An empty map, a relation with an empty scope beside one without, and a comparison for equality
beside a literal. -/
theorem empty_parts_are_read_back :
    let condition := Predicate.and [.field "age" (.shorthand .null),
      .field "age" (.compare .equals .null)]
    let scope : Query := { orderBy := some [], condition := some condition }
    let query : Query := { projection := some (.relations
      [("groups", .all), ("orders", .scoped {}), ("posts", .scoped scope)]) }
    query.Legible ∧ Query.ofJson? query.toJson = some query ∧
      Query.ofJson? query.toJsonAsDeclared = some query := by
  intro condition scope query
  have hc : condition.Legible := by
    refine .and fun child hm => ?_
    simp only [List.mem_cons, List.not_mem_nil, or_false] at hm
    rcases hm with rfl | rfl
    · exact .field (by decide) (by decide) nofun
    · exact .field (by decide) (by decide) nofun
  have hs : scope.Legible := by
    refine .intro (fun predicate he => ?_) nofun
    cases he
    exact hc
  have he : Query.Legible {} := .intro nofun nofun
  have h : query.Legible := by
    refine .intro nofun fun related hr inner hi => ?_
    cases hr
    obtain ⟨name, hm⟩ := hi
    simp only [List.mem_cons, Prod.mk.injEq, Related.scoped.injEq, reduceCtorEq, and_false,
      List.not_mem_nil, or_false, false_or] at hm
    rcases hm with ⟨-, rfl⟩ | ⟨-, rfl⟩
    · exact he
    · exact hs
  obtain ⟨hw, hd, -⟩ := legible_query_is_read_back h
  exact ⟨h, hw, hd⟩

end QueryDialect
