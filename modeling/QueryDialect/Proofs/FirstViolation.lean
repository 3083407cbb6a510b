import QueryDialect.Conversion.Ownership
import QueryDialect.Proofs.SharedConversion
import QueryDialect.Proofs.Violations

namespace QueryDialect

/-- The error as seen from a value that holds the examined one at a path, so many levels below. -/
def FilterError.placed (level : Nat) (path : Path) : FilterError → FilterError
  | malformed inner defect => malformed (path ++ inner) defect
  | depthLimitExceeded limit => depthLimitExceeded (level + limit)
  | error => error

namespace FilterError

theorem placed_inside (level : Nat) (path steps : Path) (error : FilterError) :
    (error.inside steps).placed level path = error.placed level (path ++ steps) := by
  cases error <;> simp [placed, inside]

theorem placed_deeper (level : Nat) (path : Path) (error : FilterError) :
    error.deeper.placed level path = error.placed (level + 1) path := by
  cases error <;> simp only [placed, deeper, depthLimitExceeded.injEq]
  omega

theorem placed_root (error : FilterError) : error.placed 0 [] = error := by
  cases error <;> simp [placed]

end FilterError

namespace Checked

variable {α β : Type}

/-- The outcome is an error if errors were found, and then the first of them. -/
inductive StopsAt (level : Nat) (path : Path) : List FilterError → Checked α → Prop
  | nothing {value : α} : StopsAt level path [] (.ok value)
  | first {error : FilterError} {rest : List FilterError} :
    StopsAt level path (error.placed level path :: rest) (.error error)

namespace StopsAt

variable {level : Nat} {path : Path} {found more : List FilterError} {outcome : Checked α}

theorem of_placed {error placed : FilterError} {rest : List FilterError}
    (h : error.placed level path = placed) :
    StopsAt level path (placed :: rest) (.error error : Checked α) :=
  h ▸ .first

theorem exists_ok_iff (h : StopsAt level path found outcome) :
    (∃ value, outcome = .ok value) ↔ found = [] := by
  cases h <;> simp

theorem eq_error_iff (h : StopsAt 0 [] found outcome) (error : FilterError) :
    outcome = .error error ↔ found.head? = some error := by
  cases h <;> simp [FilterError.placed_root]

theorem map (h : StopsAt level path found outcome) (f : α → β) :
    StopsAt level path found (f <$> outcome) := by
  cases h with
  | nothing => exact .nothing
  | first => exact .first

theorem inside {steps : Path} (h : StopsAt level (path ++ steps) found outcome) :
    StopsAt level path found (Checked.inside steps outcome) := by
  cases h with
  | nothing => exact .nothing
  | first =>
    rw [← FilterError.placed_inside]
    exact .first

theorem deeper (h : StopsAt (level + 1) path found outcome) :
    StopsAt level path found (Checked.deeper outcome) := by
  cases h with
  | nothing => exact .nothing
  | first =>
    rw [← FilterError.placed_deeper]
    exact .first

/-- One examination after another: what the second finds comes after what the first finds. -/
theorem bind {next : α → Checked β} (h : StopsAt level path found outcome)
    (hn : ∀ value, StopsAt level path more (next value)) :
    StopsAt level path (found ++ more) (outcome >>= next) := by
  cases h with
  | @nothing value => exact hn value
  | first => exact .first

theorem mapM {examine : α → Checked β} {find : α → List FilterError}
    (h : ∀ item, StopsAt level path (find item) (examine item)) (items : List α) :
    StopsAt level path (items.flatMap find) (items.mapM examine) := by
  induction items with
  | nil => exact .nothing
  | cons item rest ih =>
    rw [List.mapM_cons, List.flatMap_cons]
    exact (h item).bind fun value => ih.map (value :: ·)

theorem each {examine : α → Checked β} {find : Path → α → List FilterError} (steps : Nat → Path)
    (h : ∀ path item, StopsAt level path (find path item) (examine item)) (items : List α) :
    StopsAt level path (items.zipIdx.flatMap fun item => find (path ++ steps item.2) item.1)
      (Checked.each steps examine items) :=
  mapM (fun item : α × Nat => (h (path ++ steps item.2) item.1).inside) items.zipIdx

theorem option {examine : α → Checked β} {find : α → List FilterError}
    (h : ∀ item, StopsAt level path (find item) (examine item)) (item? : Option α) :
    StopsAt level path (item?.elim [] find) (item?.mapM examine) := by
  cases item? with
  | none => exact .nothing
  | some item => exact (h item).map some

/-- What every level finds, given what the level below finds, the whole recursion finds, if nothing
but the nesting is found beyond the limit. -/
theorem withinLimit {examine : Nat → (α → Checked β) → α → Checked β}
    {find : Nat → Nat → Path → α → List FilterError}
    (above : ∀ limit path item, find limit (limit + 1) path item = [.depthLimitExceeded limit])
    (step : ∀ limit level inner,
      (∀ path item, StopsAt level path (find (level + limit) (level + 1) path item) (inner item)) →
      ∀ path item, StopsAt level path (find (level + limit) level path item)
        (examine limit inner item))
    (limit level : Nat) (path : Path) (item : α) :
    StopsAt level path (find (level + limit) level path item)
      (Checked.withinLimit examine limit item) := by
  induction limit generalizing level path item with
  | zero =>
    -- Below the last level the nesting itself is found, and no more than that.
    refine step 0 level _ (fun path below => ?_) path item
    have h : find (level + 0) (level + 1) path below = [.depthLimitExceeded (level + 0)] :=
      above (level + 0) path below
    rw [h]
    exact .of_placed rfl
  | succ limit ih =>
    rw [withinLimit_succ]
    refine step (limit + 1) level _ (fun path below => ?_) path item
    have h := ih (level + 1) path below
    rw [Nat.add_right_comm] at h
    exact h.deeper

end StopsAt
end Checked

open Checked (StopsAt)

theorem Operator.isSome_keyword?_iff {operator : Operator} :
    operator.keyword?.isSome = true ↔ operator ∈ Operator.convertible := by
  cases operator <;> decide

theorem Condition.stopsAt_toTest {level : Nat} {path : Path} (name : String)
    (condition : Condition) :
    StopsAt level path (condition.violations name) (condition.toTest name) := by
  cases condition with
  | literal value => exact .nothing
  | operator kind operand =>
    rw [violations, toTest]
    by_cases hm : kind ∈ Operator.convertible
    · obtain ⟨keyword, hk⟩ := Option.isSome_iff_exists.mp (Operator.isSome_keyword?_iff.mpr hm)
      rw [if_pos hm, hk]
      exact .nothing
    · have hk : kind.keyword? = none := by
        rw [← Option.not_isSome_iff_eq_none, Operator.isSome_keyword?_iff]
        exact hm
      rw [if_neg hm, hk]
      exact .of_placed rfl

namespace Clause

theorem violations_above (limit : Nat) (clause : Clause) :
    clause.violations limit (limit + 1) = [.depthLimitExceeded limit] := by
  cases clause <;> exact violationsAt_of_lt (Nat.lt_succ_self limit) _

theorem stopsAt_toPredicateWith {limit level : Nat} {path : Path}
    {child : Clause → Checked Predicate}
    (hc : ∀ clause, StopsAt level path (violations (level + limit) (level + 1) clause) (child clause))
    (clause : Clause) :
    StopsAt level path (clause.violations (level + limit) level) (clause.toPredicateWith child) := by
  have hl : level ≤ level + limit := Nat.le_add_right level limit
  cases clause with
  | and children | or children =>
    rw [violations, violationsAt_of_le hl, listViolations_eq_flatMap]
    exact (StopsAt.mapM hc children).map _
  | field name condition =>
    rw [violations, violationsAt_of_le hl]
    exact (Condition.stopsAt_toTest name condition).map _

theorem stopsAt_toPredicate (limit level : Nat) (path : Path) (clause : Clause) :
    StopsAt level path (clause.violations (level + limit) level) (clause.toPredicate limit) := by
  let found (limit level : Nat) (_ : Path) (clause : Clause) := clause.violations limit level
  have above : ∀ limit path clause,
      found limit (limit + 1) path clause = [.depthLimitExceeded limit] :=
    fun limit _ clause => violations_above limit clause
  exact StopsAt.withinLimit above
    (fun _ _ _ hc path => stopsAt_toPredicateWith (hc path)) limit level path clause

end Clause

theorem stopsAt_orderEntry {level : Nat} (place : Path) (entry : String) :
    StopsAt level place (orderEntryViolations place entry) (orderEntry entry) := by
  simp only [orderEntryViolations, orderEntry]
  split_ifs with hf hn
  · exact .of_placed (by simp [FilterError.placed])
  · obtain ⟨direction, hd⟩ := hn
    rw [Direction.ofText?_eq_some_iff.mpr hd]
    exact .nothing
  · have hd := mt Direction.isSome_ofText?_iff.mp hn
    rw [Option.not_isSome_iff_eq_none] at hd
    rw [hd]
    exact .of_placed rfl

theorem stopsAt_orderByOf {level : Nat} (path : Path) (order : List String) :
    StopsAt level path (orderViolations path order) (orderByOf order) := by
  rw [orderViolations, orderByOf]
  exact (StopsAt.each (fun i => [.key "order", .index i]) stopsAt_orderEntry order).map _

theorem Inclusion.stopsAt_toRelated {limit level : Nat} {scope : Filter → Checked Query}
    (hs : ∀ path filter, StopsAt level path (filter.violations limit (level + 1) path) (scope filter))
    (place : Path) (inclusion : Inclusion Filter) :
    StopsAt level place (inclusion.violations limit (level + 1) place)
      (inclusion.toRelated scope) := by
  obtain name | ⟨name, filter⟩ := inclusion
  · exact .nothing
  · exact (hs place filter).map _

theorem stopsAt_relationsOf {limit level : Nat} {scope : Filter → Checked Query}
    (hs : ∀ path filter, StopsAt level path (filter.violations limit (level + 1) path) (scope filter))
    (path : Path) (inclusions : List (Inclusion Filter)) :
    StopsAt level path (Filter.scopesViolations limit level path 0 inclusions)
      (relationsOf scope inclusions) := by
  rw [Filter.scopesViolations_eq_flatMap, relationsOf]
  exact (StopsAt.each (fun i => [.key "include", .index i, .key "scope"])
    (Inclusion.stopsAt_toRelated hs) inclusions).map _

namespace Filter

theorem violations_above (limit : Nat) (path : Path) (filter : Filter) :
    filter.violations limit (limit + 1) path = [.depthLimitExceeded limit] := by
  rw [violations_eq, violationsAt_of_lt (Nat.lt_succ_self limit)]

theorem projectionWith_of_conflict {filter : Filter} {scope : Filter → Checked Query}
    (h : filter.fields.isSome ∧ filter.inclusions.isSome) :
    filter.projectionWith scope = .error .conflictingProjection := by
  obtain ⟨fields, hf⟩ := Option.isSome_iff_exists.mp h.1
  obtain ⟨inclusions, hi⟩ := Option.isSome_iff_exists.mp h.2
  rw [projectionWith, hf, hi]

theorem stopsAt_projectionWith {limit level : Nat} {filter : Filter}
    {scope : Filter → Checked Query} (h : ¬ (filter.fields.isSome ∧ filter.inclusions.isSome))
    (hs : ∀ path filter, StopsAt level path (filter.violations limit (level + 1) path) (scope filter))
    (path : Path) :
    StopsAt level path (scopesViolations? limit level path filter.inclusions)
      (filter.projectionWith scope) := by
  unfold projectionWith
  cases hf : filter.fields with
  | none =>
    cases filter.inclusions with
    | none => exact .nothing
    | some inclusions => exact (stopsAt_relationsOf hs path inclusions).map _
  | some fields =>
    cases hi : filter.inclusions with
    | none => exact .nothing
    | some inclusions => exact absurd (by simp [hf, hi]) h

theorem stopsAt_toQueryWith {limit level : Nat} {scope : Filter → Checked Query}
    (hs : ∀ path filter,
      StopsAt level path (filter.violations (level + limit) (level + 1) path) (scope filter))
    (path : Path) (filter : Filter) :
    StopsAt level path (filter.violations (level + limit) level path)
      (filter.toQueryWith scope (Clause.toPredicate limit)) := by
  have ho : StopsAt level path (filter.order.elim [] (orderViolations path))
      (filter.order.mapM orderByOf) := .option (stopsAt_orderByOf path) filter.order
  have hc : StopsAt level path (filter.condition.elim [] (Clause.violations (level + limit) level))
      (filter.condition.mapM (Clause.toPredicate limit)) :=
    .option (Clause.stopsAt_toPredicate limit level path) filter.condition
  rw [violations_eq, violationsAt_of_le (Nat.le_add_right level limit), toQueryWith]
  by_cases h : filter.fields.isSome ∧ filter.inclusions.isSome
  · -- The conflict is found before anything else is converted.
    rw [if_pos h, projectionWith_of_conflict h]
    exact .of_placed rfl
  · rw [if_neg h]
    exact (stopsAt_projectionWith h hs path).bind fun _ => ho.bind fun _ => hc.map _

theorem stopsAt_toQuery (limit level : Nat) (path : Path) (filter : Filter) :
    StopsAt level path (filter.violations (level + limit) level path) (filter.toQuery limit) :=
  StopsAt.withinLimit violations_above (fun _ _ _ hs => stopsAt_toQueryWith hs) limit level path
    filter

end Filter

/-- A filter is converted just when every filter inside is convertible and none of it is too deep.
Otherwise the conversion fails with the first violation. -/
theorem conversion_fails_with_first_violation (maxDepth : UInt64) (filter : Filter) :
    ((∃ query, (filter.convert { exclusive := true, maxDepth }).1 = .ok query) ↔
      (∀ part, filter.Reaches part → part.Convertible) ∧
        filter.exceedsDepth maxDepth.toNat = false) ∧
    ∀ error, (filter.convert { exclusive := true, maxDepth }).1 = .error error ↔
      (filter.violations maxDepth.toNat 0 []).head? = some error := by
  have hs := Filter.stopsAt_toQuery maxDepth.toNat 0 [] filter
  rw [Nat.zero_add] at hs
  have hd : filter.exceedsDepth maxDepth.toNat = false ↔ 0 + filter.depth ≤ maxDepth.toNat := by
    rw [← Bool.not_eq_true, Filter.exceedsDepth_iff, Nat.not_lt, Nat.zero_add]
  rw [Filter.convert_of_exclusive rfl]
  constructor
  · rw [hd, ← Filter.violations_eq_nil_iff]
    exact hs.exists_ok_iff
  · intro error
    exact hs.eq_error_iff error

/-- An entry without a field inside a scope: the error names its place in the whole filter. -/
example :
    let scope : Filter := { order := some ["name", " asc"] }
    let place : Path := [.key "include", .index 0, .key "scope", .key "order", .index 1]
    (Filter.convert { exclusive := true } { inclusions := some [.scoped "posts" scope] }).1 =
        .error (.malformed place .missingFieldName) ∧
      place.text = "$.include[0].scope.order[1]" :=
  ⟨rfl, rfl⟩

end QueryDialect
