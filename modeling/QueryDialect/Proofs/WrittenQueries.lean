import QueryDialect.Proofs.CanonicalSpelling
import QueryDialect.Proofs.NormalQueries
import QueryDialect.Target.Encoding

namespace QueryDialect

/-- Puts members with different keys in some order and does nothing else to them. -/
def Rearranges (arrange : List (String × Json) → List (String × Json)) : Prop :=
  ∀ members, Keyed.Distinct members → (arrange members).Perm members

theorem rearranges_id : Rearranges id :=
  fun members _ => .refl members

theorem rearranges_ofList : Rearranges Keyed.ofList :=
  fun _ => Keyed.ofList_perm

variable {arrange : List (String × Json) → List (String × Json)} {query : Query}

def Related.toJsonWith (arrange : List (String × Json) → List (String × Json)) :
    Related Query → Json
  | .all => .bool true
  | .scoped scope => scope.toJsonWith arrange

theorem Query.relationsToJson_eq_map (related : Keyed (Related Query)) :
    Query.relationsToJson arrange related =
      related.map fun entry => (entry.1, entry.2.toJsonWith arrange) := by
  induction related with
  | nil => rfl
  | cons entry rest ih =>
    obtain ⟨name, _ | scope⟩ := entry
    · rw [Query.relationsToJson, ih, List.map_cons, Related.toJsonWith]
    · rw [Query.relationsToJson, ih, List.map_cons, Related.toJsonWith]

def includeToJsonWith (arrange : List (String × Json) → List (String × Json))
    (related : Keyed (Related Query)) : Json :=
  .object (related.map fun entry => (entry.1, entry.2.toJsonWith arrange))

/-- The members of a query's JSON, as far as there are values for them. -/
def Query.membersWith (arrange : List (String × Json) → List (String × Json)) (query : Query) :
    Keyed (Option Json) :=
  [("select", query.select?.map selectToJson),
    ("include", query.relations?.map (includeToJsonWith arrange)),
    ("skip", query.skip.map .ofUInt64),
    ("take", query.take.map .ofUInt64),
    ("orderBy", query.orderBy.map orderByToJson),
    ("where", query.condition.map Predicate.toJson)]

theorem Keyed.present_cons (key : String) (value? : Option Json) (entries : Keyed (Option Json)) :
    Keyed.present ((key, value?) :: entries) = memberOf key value? ++ entries.present := by
  cases value? <;> rfl

theorem Query.toJsonWith_eq (query : Query) :
    query.toJsonWith arrange = .object (arrange (query.membersWith arrange).present) := by
  obtain ⟨projection, skip, take, orderBy, condition⟩ := query
  have hp : Query.projectionToJson arrange projection =
      memberOf "select" ((select? { projection }).map selectToJson) ++
        memberOf "include" ((relations? { projection }).map (includeToJsonWith arrange)) := by
    obtain _ | _ | related := projection
    · rfl
    · rfl
    · rw [Query.projectionToJson, Query.relationsToJson_eq_map]
      rfl
  have hn : Keyed.present ([] : Keyed (Option Json)) = [] := rfl
  rw [Query.toJsonWith, hp]
  simp only [membersWith, Keyed.present_cons, hn, List.append_assoc, List.append_nil]
  rfl

theorem Query.distinct_membersWith (query : Query) : (query.membersWith arrange).Distinct := by
  change ["select", "include", "skip", "take", "orderBy", "where"].Nodup
  decide

/-- The members hold the parts of the query, each under its key. -/
structure Query.WrittenIn (query : Query)
    (arrange : List (String × Json) → List (String × Json)) (members : Keyed Json) : Prop where
  select : members.get? "select" = query.select?.map selectToJson
  relations : members.get? "include" = query.relations?.map (includeToJsonWith arrange)
  skip : members.get? "skip" = query.skip.map .ofUInt64
  take : members.get? "take" = query.take.map .ofUInt64
  orderBy : members.get? "orderBy" = query.orderBy.map orderByToJson
  condition : members.get? "where" = query.condition.map Predicate.toJson

theorem Query.exists_writtenIn (ha : Rearranges arrange) (query : Query) :
    ∃ members, query.toJsonWith arrange = .object members ∧ query.WrittenIn arrange members := by
  have hd : (query.membersWith arrange).Distinct := query.distinct_membersWith
  have hp : (query.membersWith arrange).present.Distinct := Keyed.distinct_present hd
  have hg : ∀ key, Keyed.get? key (arrange (query.membersWith arrange).present) =
      (Keyed.get? key (query.membersWith arrange)).join := by
    intro key
    rw [Keyed.get?_eq_of_perm hp (ha _ hp), Keyed.get?_present hd]
  refine ⟨_, query.toJsonWith_eq, ?_⟩
  exact {
    select := hg "select"
    relations := hg "include"
    skip := hg "skip"
    take := hg "take"
    orderBy := hg "orderBy"
    condition := hg "where" }

end QueryDialect
