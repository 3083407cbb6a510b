import QueryDialect.Conversion.Ownership
import QueryDialect.Proofs.ConversionDepth

namespace QueryDialect

open Checked (Measured)

/-- What a shared conversion gives, given what an exclusive one does. -/
structure Agreement {α : Type} (limit : Nat) (exceeds : Bool) (shared exclusive : Checked α) :
    Prop where
  depth_error_iff : shared = .error (.depthLimitExceeded limit) ↔ exceeds = true
  same_outcome : exceeds = false → shared = exclusive
  exclusive_fails : exceeds = true → ∃ error, exclusive = .error error
  same_success : ∀ value, shared = .ok value ↔ exclusive = .ok value

/-- Putting the depth check in front of a measured conversion gives one that agrees with it. -/
theorem agreement_of_measured {α : Type} {limit : Nat} {exceeds : Bool} {exclusive : Checked α}
    (hm : Measured limit (exceeds = true) exclusive) :
    Agreement limit exceeds (if exceeds then .error (.depthLimitExceeded limit) else exclusive)
      exclusive := by
  cases exceeds with
  | false =>
    have hne : exclusive ≠ .error (.depthLimitExceeded limit) := by
      intro he
      rw [he] at hm
      exact absurd hm.of_depth_error.2 (by decide)
    exact ⟨by simpa using hne, fun _ => rfl, fun h => absurd h (by decide), fun _ => Iff.rfl⟩
  | true =>
    have hfail : ∃ error, exclusive = .error error := by
      cases hx : exclusive with
      | error error => exact ⟨error, rfl⟩
      | ok value =>
        rw [hx] at hm
        exact absurd rfl hm.not_tooDeep_of_ok
    obtain ⟨error, rfl⟩ := hfail
    exact ⟨by simp, fun h => absurd h (by decide), fun _ => ⟨error, rfl⟩, by simp⟩

theorem Filter.measured_of_exceedsDepth (limit : Nat) (filter : Filter) :
    Measured limit (filter.exceedsDepth limit = true) (filter.toQuery limit) :=
  (Filter.measured_toQuery limit filter).congr Filter.exceedsDepth_iff.symm

theorem Clause.measured_of_exceedsDepth (limit : Nat) (clause : Clause) :
    Measured limit (clause.exceedsDepth limit = true) (clause.toPredicate limit) :=
  (Clause.measured_toPredicate limit clause).congr Clause.exceedsDepth_iff.symm

section Convert

variable {options : Options} {filter : Filter} {clause : Clause}

theorem Filter.convert_of_exclusive (h : options.exclusive = true) :
    filter.convert options = (filter.toQuery options.limit, .empty) := by
  rw [Filter.convert, if_pos h]

theorem Filter.convert_of_shared (h : options.exclusive = false) :
    filter.convert options =
      (if filter.exceedsDepth options.limit then .error (.depthLimitExceeded options.limit)
        else filter.toQuery options.limit, filter) := by
  rw [Filter.convert, h, if_neg Bool.false_ne_true]
  split <;> rfl

theorem Clause.convert_of_exclusive (h : options.exclusive = true) :
    clause.convert options = (clause.toPredicate options.limit, .empty) := by
  rw [Clause.convert, if_pos h]

theorem Clause.convert_of_shared (h : options.exclusive = false) :
    clause.convert options =
      (if clause.exceedsDepth options.limit then .error (.depthLimitExceeded options.limit)
        else clause.toPredicate options.limit, clause) := by
  rw [Clause.convert, h, if_neg Bool.false_ne_true]
  split <;> rfl

theorem Filter.convert_eq_ok_iff {query : Query} :
    (filter.convert options).1 = .ok query ↔ filter.toQuery options.limit = .ok query := by
  cases h : options.exclusive with
  | true => rw [Filter.convert_of_exclusive h]
  | false =>
    rw [Filter.convert_of_shared h]
    exact (agreement_of_measured (Filter.measured_of_exceedsDepth _ filter)).same_success query

theorem Clause.convert_eq_ok_iff {predicate : Predicate} :
    (clause.convert options).1 = .ok predicate ↔
      clause.toPredicate options.limit = .ok predicate := by
  cases h : options.exclusive with
  | true => rw [Clause.convert_of_exclusive h]
  | false =>
    rw [Clause.convert_of_shared h]
    exact (agreement_of_measured (Clause.measured_of_exceedsDepth _ clause)).same_success predicate

end Convert

theorem shared_agrees_with_exclusive (maxDepth : UInt64) :
    (∀ filter : Filter,
      Agreement maxDepth.toNat (filter.exceedsDepth maxDepth.toNat)
        (filter.convert { exclusive := false, maxDepth }).1
        (filter.convert { exclusive := true, maxDepth }).1) ∧
    ∀ clause : Clause,
      Agreement maxDepth.toNat (clause.exceedsDepth maxDepth.toNat)
        (clause.convert { exclusive := false, maxDepth }).1
        (clause.convert { exclusive := true, maxDepth }).1 := by
  constructor
  · intro filter
    rw [Filter.convert_of_shared rfl, Filter.convert_of_exclusive rfl]
    exact agreement_of_measured (Filter.measured_of_exceedsDepth _ filter)
  · intro clause
    rw [Clause.convert_of_shared rfl, Clause.convert_of_exclusive rfl]
    exact agreement_of_measured (Clause.measured_of_exceedsDepth _ clause)

end QueryDialect
