import QueryDialect.Proofs.ReaderLimit
import QueryDialect.Proofs.SharedConversion

namespace QueryDialect

section Fitting

variable {options : Options} {filter : Filter} {clause : Clause}

theorem Filter.convert_of_depth_le (h : filter.depth ≤ options.limit) :
    (filter.convert options).1 = filter.toQuery options.limit := by
  cases he : options.exclusive with
  | true => rw [Filter.convert_of_exclusive he]
  | false =>
    rw [Filter.convert_of_shared he]
    exact if_neg (mt Filter.exceedsDepth_iff.mp (Nat.not_lt.mpr h))

theorem Clause.convert_of_depth_le (h : clause.depth ≤ options.limit) :
    (clause.convert options).1 = clause.toPredicate options.limit := by
  cases he : options.exclusive with
  | true => rw [Clause.convert_of_exclusive he]
  | false =>
    rw [Clause.convert_of_shared he]
    exact if_neg (mt Clause.exceedsDepth_iff.mp (Nat.not_lt.mpr h))

theorem Filter.convert_ne_depth_error (h : filter.depth ≤ options.limit) (limit : Nat) :
    (filter.convert options).1 ≠ .error (.depthLimitExceeded limit) := by
  intro he
  have hm := Filter.measured_toQuery options.limit filter
  rw [← Filter.convert_of_depth_le h, he] at hm
  have hd := hm.of_depth_error.2
  omega

theorem Clause.convert_ne_depth_error (h : clause.depth ≤ options.limit) (limit : Nat) :
    (clause.convert options).1 ≠ .error (.depthLimitExceeded limit) := by
  intro he
  have hm := Clause.measured_toPredicate options.limit clause
  rw [← Clause.convert_of_depth_le h, he] at hm
  have hd := hm.of_depth_error.2
  omega

end Fitting

/-- Two runs that go on alike from every value that the first step can give. -/
theorem bind_congr_of_ok {α β : Type} {outcome : Checked α} {next next' : α → Checked β}
    (h : ∀ value, outcome = .ok value → next value = next' value) :
    outcome >>= next = outcome >>= next' := by
  cases outcome with
  | error error => rfl
  | ok value => exact h value rfl

theorem Filter.convertJson_eq (options : Options) (json : Json) :
    Filter.convertJson options json = (do
      let filter ← Filter.ofJson options.limit json
      let query ← (filter.convert options).1
      return query.toJson) := by
  refine bind_congr_of_ok fun filter h => ?_
  have hd := Filter.depth_le_of_ofJson h
  rw [Filter.convert_of_depth_le hd, Filter.convert_of_exclusive rfl]
  rfl

theorem Clause.convertJson_eq (options : Options) (json : Json) :
    Clause.convertJson options json = (do
      let clause ← Clause.ofJson options.limit json
      let predicate ← (clause.convert options).1
      return predicate.toJson) := by
  refine bind_congr_of_ok fun clause h => ?_
  have hd := Clause.depth_le_of_ofJson h
  rw [Clause.convert_of_depth_le hd, Clause.convert_of_exclusive rfl]
  rfl

theorem convertJson_reads_converts_writes (options : Options) (json : Json) :
    (Filter.convertJson options json = (do
        let filter ← Filter.ofJson options.limit json
        let query ← (filter.convert options).1
        return query.toJson) ∧
      ∀ filter, Filter.ofJson options.limit json = .ok filter → ∀ exclusive limit,
        (filter.convert { options with exclusive }).1 ≠ .error (.depthLimitExceeded limit)) ∧
    (Clause.convertJson options json = (do
        let clause ← Clause.ofJson options.limit json
        let predicate ← (clause.convert options).1
        return predicate.toJson) ∧
      ∀ clause, Clause.ofJson options.limit json = .ok clause → ∀ exclusive limit,
        (clause.convert { options with exclusive }).1 ≠ .error (.depthLimitExceeded limit)) := by
  refine ⟨⟨Filter.convertJson_eq options json, ?_⟩, ⟨Clause.convertJson_eq options json, ?_⟩⟩
  · intro filter h exclusive limit
    have hd : filter.depth ≤ ({ options with exclusive } : Options).limit :=
      Filter.depth_le_of_ofJson h
    exact Filter.convert_ne_depth_error hd limit
  · intro clause h exclusive limit
    have hd : clause.depth ≤ ({ options with exclusive } : Options).limit :=
      Clause.depth_le_of_ofJson h
    exact Clause.convert_ne_depth_error hd limit

end QueryDialect
