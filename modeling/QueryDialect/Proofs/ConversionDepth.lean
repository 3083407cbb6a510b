import QueryDialect.Conversion.Query
import QueryDialect.Proofs.DepthErrors
import QueryDialect.Proofs.DepthWalk

namespace QueryDialect

open Checked (Measured)

theorem Condition.measured_toTest (limit : Nat) (field : String) (condition : Condition) :
    Measured limit False (condition.toTest field) := by
  cases condition with
  | literal value => exact .ok not_false
  | operator kind operand =>
    rw [Condition.toTest]
    split
    · exact .ok not_false
    · exact .refused not_false

theorem Clause.measured_toPredicateWith {limit : Nat} {child : Clause → Checked Predicate}
    (hc : ∀ clause, Measured limit (limit < clause.depth + 1) (child clause)) (clause : Clause) :
    Measured limit (limit < clause.depth) (clause.toPredicateWith child) := by
  cases clause with
  | and children | or children =>
    have hm := (Measured.mapM hc children).congr Clause.lt_depthBelow_iff.symm
    exact hm.map _
  | field name condition =>
    have ht := Condition.measured_toTest limit name condition
    exact (ht.congr (iff_of_false not_false (Nat.not_lt_zero _))).map _

theorem Clause.measured_toPredicate (limit : Nat) (clause : Clause) :
    Measured limit (limit < clause.depth) (clause.toPredicate limit) :=
  Measured.withinLimit (fun _ _ => Clause.measured_toPredicateWith) limit clause

theorem measured_orderEntry (limit : Nat) (entry : String) :
    Measured limit False (orderEntry entry) := by
  unfold orderEntry
  simp only
  split
  · exact .refused not_false
  · split
    · exact .ok not_false
    · exact .refused not_false

theorem measured_orderByOf (limit : Nat) (order : List String) :
    Measured limit False (orderByOf order) := by
  have he := Measured.each_of_never (fun i => [.key "order", .index i]) (measured_orderEntry limit) order
  exact he.map _

section Scopes

variable {limit : Nat} {scope : Filter → Checked Query}
  (hs : ∀ filter, Measured limit (limit < filter.depth + 1) (scope filter))

include hs

theorem Inclusion.measured_toRelated (inclusion : Inclusion Filter) :
    Measured limit (inclusion.TooDeep limit) (inclusion.toRelated scope) := by
  obtain name | ⟨name, filter⟩ := inclusion
  · exact .ok not_false
  · exact (hs filter).map _

theorem measured_relationsOf (inclusions : List (Inclusion Filter)) :
    Measured limit (limit < Filter.scopesDepth inclusions) (relationsOf scope inclusions) := by
  have he := Measured.each (fun i => [.key "include", .index i, .key "scope"])
    (Inclusion.measured_toRelated hs) inclusions
  exact (he.congr Filter.lt_scopesDepth_iff.symm).map _

theorem Filter.measured_projectionWith (filter : Filter) :
    Measured limit (limit < Filter.scopesDepth (filter.inclusions.getD []))
      (filter.projectionWith scope) := by
  unfold Filter.projectionWith
  split
  case h_1 => exact .refused not_false
  case h_2 hi => exact .ok (by simp [hi, Filter.scopesDepth])
  case h_3 inclusions _ hi =>
    have hr := measured_relationsOf hs inclusions
    rw [hi]
    exact hr.map _
  case h_4 hi => exact .ok (by simp [hi, Filter.scopesDepth])

theorem Filter.measured_toQueryWith {clause : Clause → Checked Predicate}
    (hc : ∀ tree, Measured limit (limit < tree.depth) (clause tree)) (filter : Filter) :
    Measured limit (limit < filter.depth) (filter.toQueryWith scope clause) := by
  have hp := Filter.measured_projectionWith hs filter
  have ho := Measured.option (measured_orderByOf limit) filter.order
  have ht := Measured.option hc filter.condition
  refine (hp.bind fun projection _ => ho.bind fun orderBy _ => ht.map _).congr ?_
  rw [Filter.lt_depth_iff]
  simp

end Scopes

theorem Filter.measured_toQuery (limit : Nat) (filter : Filter) :
    Measured limit (limit < filter.depth) (filter.toQuery limit) :=
  Measured.withinLimit
    (fun limit _ hs => Filter.measured_toQueryWith hs (Clause.measured_toPredicate limit)) limit filter

end QueryDialect
