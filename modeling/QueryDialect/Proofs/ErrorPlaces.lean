import QueryDialect.Proofs.CanonicalSpelling
import QueryDialect.Proofs.Nesting
import QueryDialect.Proofs.Places
import QueryDialect.Proofs.Refusals

namespace QueryDialect

open Checked (Raises)

theorem Path.text_eq_join (path : Path) :
    path.text = "$" ++ String.join (path.map Step.text) := by
  rw [text, foldl_text_eq_append, String.join, List.foldl_map]

/-- The value has the defect. Where null counts as absent, it is none. -/
def Defect.IsIn : Defect → Json → Prop
  | notObject, value => ∀ members, value ≠ .object members
  | notFields, value =>
    value ≠ .null ∧ (∀ items, value ≠ .array items) ∧ ∀ members, value ≠ .object members
  | notFieldName, value => ∀ name, value ≠ .string name
  | notFlag, value => ∀ flag, value ≠ .bool flag
  | notInclusion, value => (∀ name, value ≠ .string name) ∧ ∀ members, value ≠ .object members
  | notRelationName, value => ∀ name, value ≠ .string name
  | notOrder, value =>
    value ≠ .null ∧ (∀ entry, value ≠ .string entry) ∧ ∀ items, value ≠ .array items
  | notOrderEntry, value => ∀ entry, value ≠ .string entry
  | notCount, value => value ≠ .null ∧ ∀ count, value ≠ .ofUInt64 count
  | notClauses, value => ∀ items, value ≠ .array items
  | emptyClause, value => value = .object []
  | severalFields count, value =>
    ∃ members, value = .object members ∧ members.length = count ∧ 2 ≤ count ∧
      Keyed.get? "and" members = none ∧ Keyed.get? "or" members = none
  | missingFieldName, _ => False

/-- The error is one of a source, and what it says is found there. A source that is nested too deep has
no place that is to blame. -/
inductive FilterError.WitnessedIn (json : Json) : FilterError → Prop
  | depth (limit : Nat) : WitnessedIn json (.depthLimitExceeded limit)
  | defect {path : Path} {value : Json} {defect : Defect} (hv : json.at? path = some value)
      (hd : defect.IsIn value) :
    WitnessedIn json (.malformed path defect)
  | noRelation {path : Path} {members : Keyed Json} (hv : json.at? path = some (.object members))
      (hn : members.get? "relation" = none) :
    WitnessedIn json (.malformed (path ++ [.key "relation"]) .notRelationName)
  | noOperator {path : Path} {field : String} {operators : Keyed Json} (ha : field ≠ "and")
      (ho : field ≠ "or") (hv : json.at? path = some (.object [(field, .object operators)]))
      (hn : ∀ operator : Operator, operators.get? operator.key = none) :
    WitnessedIn json (.unrecognizedOperator field (.object operators))

namespace FilterError.WitnessedIn

variable {json value : Json} {error : FilterError}

theorem inside {steps : Path} (hs : json.at? steps = some value) (h : error.WitnessedIn value) :
    (error.inside steps).WitnessedIn json := by
  have lift : ∀ {path : Path} {found : Json}, value.at? path = some found →
      json.at? (steps ++ path) = some found := by
    intro path found hv
    rw [Json.at?_append, hs, Option.bind_some, hv]
  cases h with
  | depth limit => exact .depth limit
  | defect hv hd => exact .defect (lift hv) hd
  | @noRelation path members hv hn =>
    rw [FilterError.inside, ← List.append_assoc]
    exact .noRelation (lift hv) hn
  | noOperator ha ho hv hn => exact .noOperator ha ho (lift hv) hn

theorem deeper (h : error.WitnessedIn json) : error.deeper.WitnessedIn json := by
  cases h with
  | depth limit => exact .depth (limit + 1)
  | defect hv hd => exact .defect hv hd
  | noRelation hv hn => exact .noRelation hv hn
  | noOperator ha ho hv hn => exact .noOperator ha ho hv hn

end FilterError.WitnessedIn

namespace Checked

variable {α : Type} {members : Keyed Json} {key : String}

theorem raises_refuse {json : Json} {defect : Defect} (h : defect.IsIn json) :
    Raises (·.WitnessedIn json) (refuse defect : Checked α) :=
  .error (.defect (Json.at?_nil json) h)

theorem raises_inside {json value : Json} {steps : Path} {outcome : Checked α}
    (hs : json.at? steps = some value) (h : Raises (·.WitnessedIn value) outcome) :
    Raises (·.WitnessedIn json) (inside steps outcome) :=
  h.inside fun _ he => he.inside hs

theorem raises_member {examine : Json → Checked α} {value : Json}
    (hg : members.get? key = some value) (h : Raises (·.WitnessedIn value) (examine value)) :
    Raises (·.WitnessedIn (.object members)) (member key examine value) :=
  raises_inside (Json.at?_key hg) h

theorem raises_optional {examine : Json → Checked α}
    (h : ∀ value, members.get? key = some value → value ≠ .null →
      Raises (·.WitnessedIn value) (examine value)) :
    Raises (·.WitnessedIn (.object members)) (optional members key examine) := by
  unfold optional
  split
  next => exact .ok
  next value hm =>
    obtain ⟨hg, hn⟩ := Json.member?_eq_some_iff.mp hm
    exact (raises_member hg (h value hg hn)).map some

theorem raises_items {items : List Json} {examine : Json → Checked α}
    (h : ∀ item ∈ items, Raises (·.WitnessedIn item) (examine item)) :
    Raises (·.WitnessedIn (.array items)) (each (fun i => [.index i]) examine items) := by
  refine .each fun i item hi error he => ?_
  have hw : error.WitnessedIn item := h item (List.mem_of_getElem? hi) error he
  exact hw.inside (Json.at?_index hi)

end Checked

open Checked (raises_refuse raises_inside raises_member raises_optional raises_items)

theorem Fields.raises_ofJson {json : Json} (hs : json.Sorted) (hn : json ≠ .null) :
    Raises (·.WitnessedIn json) (Fields.ofJson json) := by
  cases json with
  | array items =>
    refine .map (raises_items fun item _ => ?_) _
    cases item with
    | string name => exact .ok
    | _ => exact raises_refuse nofun
  | object members =>
    refine .map (.mapM fun (name, flag) hm => ?_) _
    have hg : Keyed.get? name members = some flag := by
      cases hs with
      | object hk _ => exact (Keyed.get?_eq_some_iff_mem hk.distinct).mpr hm
    cases flag with
    | bool value => exact .ok
    | _ => exact raises_inside (Json.at?_key hg) (raises_refuse nofun)
  | null => exact absurd rfl hn
  | _ => exact raises_refuse ⟨hn, nofun, nofun⟩

theorem raises_orderOfJson {json : Json} (hn : json ≠ .null) :
    Raises (·.WitnessedIn json) (orderOfJson json) := by
  cases json with
  | string entry => exact .ok
  | array items =>
    rw [orderOfJson]
    refine raises_items fun item _ => ?_
    cases item with
    | string entry => exact .ok
    | _ =>
      refine raises_refuse fun entry he => ?_
      cases he
  | _ =>
    refine raises_refuse ⟨hn, fun entry he => ?_, fun items he => ?_⟩
    · cases he
    · cases he

theorem raises_countOfJson {json : Json} (hn : json ≠ .null) :
    Raises (·.WitnessedIn json) (countOfJson json) := by
  unfold countOfJson
  split
  next => exact .ok
  next hc =>
    refine raises_refuse ⟨hn, fun count he => ?_⟩
    rw [Json.uint64?_eq_some_iff.mpr he] at hc
    cases hc

theorem Condition.raises_ofJson {field : String} {json : Json} (ha : field ≠ "and")
    (ho : field ≠ "or") :
    Raises (·.WitnessedIn (.object [(field, json)])) (Condition.ofJson field json) := by
  cases json with
  | object operators =>
    unfold Condition.ofJson
    simp only
    split
    next => exact .ok
    next hf =>
      refine .error (.noOperator ha ho (Json.at?_nil _) fun operator => ?_)
      have hm := List.findSome?_eq_none_iff.mp hf operator (Operator.mem_priority operator)
      exact Option.map_eq_none_iff.mp hm
  | _ => exact .ok

namespace Clause

theorem raises_listOfJson {child : Json → Checked Clause}
    (hc : ∀ json, Raises (·.WitnessedIn json) (child json)) (json : Json) :
    Raises (·.WitnessedIn json) (listOfJson child json) := by
  cases json with
  | array items => exact raises_items fun item _ => hc item
  | _ => exact raises_refuse nofun

theorem raises_ofJsonWith {child : Json → Checked Clause}
    (hc : ∀ json, Raises (·.WitnessedIn json) (child json)) (json : Json) :
    Raises (·.WitnessedIn json) (ofJsonWith child json) := by
  cases json with
  | object members =>
    unfold ofJsonWith
    simp only
    split
    next children ha => exact (raises_member ha (raises_listOfJson hc children)).map _
    next children _ ho => exact (raises_member ho (raises_listOfJson hc children)).map _
    next => exact raises_refuse rfl
    next name value ha ho =>
      have hna := Keyed.get?_singleton_eq_none_iff.mp ha
      have hno := Keyed.get?_singleton_eq_none_iff.mp ho
      exact (Condition.raises_ofJson hna hno).map _
    next several _ _ _ hn hl ha ho =>
      refine raises_refuse ⟨several, rfl, rfl, ?_, ha, ho⟩
      match several with
      | [] => exact absurd rfl hn
      | [(name, value)] => exact absurd rfl (hl name value)
      | _ :: _ :: _ => exact Nat.le_add_left 2 _
  | _ => exact raises_refuse nofun

theorem raises_ofJson (limit : Nat) (json : Json) :
    Raises (·.WitnessedIn json) (ofJson limit json) :=
  Raises.withinLimit (fun _ => True) (fun _ => .depth) (fun _ _ => .deeper)
    (fun _ _ hc json _ => raises_ofJsonWith (fun below => hc below trivial) json) limit json trivial

end Clause

namespace Inclusion

variable {scope : Json → Checked Filter}

theorem raises_ofJsonWith (hc : ∀ json, json.Sorted → Raises (·.WitnessedIn json) (scope json))
    {json : Json} (hs : json.Sorted) : Raises (·.WitnessedIn json) (ofJsonWith scope json) := by
  cases json with
  | string name => exact .ok
  | object members =>
    unfold ofJsonWith
    simp only
    split
    next hr =>
      refine .error ?_
      cases hg : Keyed.get? "relation" members with
      | none => exact .noRelation (Json.at?_nil _) hg
      | some value =>
        refine .defect (Json.at?_key hg) fun name he => ?_
        subst he
        rw [relationName_eq_some_iff.mpr hg] at hr
        cases hr
    next name hr =>
      have hf : Raises (·.WitnessedIn (.object members))
          (Checked.optional members "scope" scope) :=
        raises_optional fun value hg _ => hc value (hs.of_get? hg)
      refine hf.bind fun filter? _ => ?_
      cases filter? <;> exact .ok
  | _ => exact raises_refuse ⟨nofun, nofun⟩

theorem raises_listOfJson (hc : ∀ json, json.Sorted → Raises (·.WitnessedIn json) (scope json))
    {json : Json} (hs : json.Sorted) : Raises (·.WitnessedIn json) (listOfJson scope json) := by
  cases json with
  | array items => exact raises_items fun item hm => raises_ofJsonWith hc (hs.of_mem item hm)
  | _ => exact (raises_ofJsonWith hc hs).map _

end Inclusion

namespace Filter

theorem raises_ofJsonWith {scope : Json → Checked Filter} {clause : Json → Checked Clause}
    (hf : ∀ json, json.Sorted → Raises (·.WitnessedIn json) (scope json))
    (hc : ∀ json, Raises (·.WitnessedIn json) (clause json)) {json : Json} (hs : json.Sorted) :
    Raises (·.WitnessedIn json) (ofJsonWith scope clause json) := by
  cases json with
  | object members =>
    have count (key : String) : Raises (·.WitnessedIn (.object members))
        (Checked.optional members key countOfJson) :=
      raises_optional fun _ _ hn => raises_countOfJson hn
    -- The members are examined in this order, each of them only if those before it are accepted.
    refine .bind (raises_optional fun _ hg hn => Fields.raises_ofJson (hs.of_get? hg) hn) fun _ _ => ?_
    refine .bind (raises_optional fun _ hg _ => Inclusion.raises_listOfJson hf (hs.of_get? hg))
      fun _ _ => ?_
    refine .bind (raises_optional fun _ _ hn => raises_orderOfJson hn) fun _ _ => ?_
    refine .bind (raises_optional fun value _ _ => hc value) fun _ _ => ?_
    exact (count "offset").bind fun _ _ => (count "skip").bind fun _ _ => (count "limit").map _
  | _ => exact raises_refuse nofun

theorem raises_ofJson (limit : Nat) {json : Json} (hs : json.Sorted) :
    Raises (·.WitnessedIn json) (ofJson limit json) :=
  Raises.withinLimit Json.Sorted (fun _ => .depth) (fun _ _ => .deeper)
    (fun limit _ hf _ hs => raises_ofJsonWith hf (Clause.raises_ofJson limit) hs) limit json hs

end Filter

/-- What the reader says of a value that it refuses is found in the value, and the text of the error
shows where: the steps of the path after the root, or the operator object as JSON. -/
theorem refusals_are_witnessed (limit : Nat) {json : Json} (hs : json.Sorted) {error : FilterError}
    (h : Filter.ofJson limit json = .error error ∨ Clause.ofJson limit json = .error error) :
    error.WitnessedIn json ∧
      (∀ path defect, error = .malformed path defect → error.message =
        "malformed filter at `" ++ ("$" ++ String.join (path.map Step.text)) ++ "`: " ++ defect.text) ∧
      ∀ field operators, error = .unrecognizedOperator field operators →
        error.message = "unrecognized operator on field `" ++ field ++ "`: " ++ operators.compact := by
  refine ⟨?_, ?_, ?_⟩
  · rcases h with h | h
    · exact Filter.raises_ofJson limit hs error h
    · exact Clause.raises_ofJson limit json error h
  · intro path defect he
    rw [he, ← Path.text_eq_join]
    rfl
  · intro field operators he
    rw [he]
    rfl

theorem second_clause_is_witnessed :
    let several := Json.object [("a", .null), ("b", .null)]
    let json := Json.object [("where", .object [("and", .array [.object [("a", .null)], several])])]
    let place : Path := [.key "where", .key "and", .index 1]
    let error := FilterError.malformed place (.severalFields 2)
    json.Sorted ∧ Filter.ofJson 64 json = .error error ∧ error.WitnessedIn json ∧
      json.at? place = some several ∧ place.text = "$.where.and[1]" ∧
      error.message = "malformed filter at `" ++ ("$" ++ String.join (place.map Step.text)) ++ "`: "
        ++ (Defect.severalFields 2).text := by
  intro several json place error
  have ordered : Keyed.Sorted [("a", Json.null), ("b", Json.null)] := by
    simp only [Keyed.Sorted, List.pairwise_pair]
    decide
  have two : several.Sorted := .object ordered (by simp [Json.Sorted.null])
  have one : Json.Sorted (.object [("a", .null)]) := Json.sorted_object_singleton_iff.mpr .null
  have hs : json.Sorted := by
    refine Json.sorted_object_singleton_iff.mpr (Json.sorted_object_singleton_iff.mpr (.array ?_))
    simp only [List.forall_mem_cons]
    exact ⟨one, two, List.forall_mem_nil _⟩
  have h : Filter.ofJson 64 json = .error error := rfl
  obtain ⟨hw, ht, -⟩ := refusals_are_witnessed 64 hs (.inl h)
  have shown := ht place (.severalFields 2) rfl
  have place_text : place.text = "$.where.and[1]" := rfl
  exact ⟨hs, h, hw, rfl, place_text, shown⟩

end QueryDialect
