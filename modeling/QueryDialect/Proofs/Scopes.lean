import QueryDialect.Source.Filter

namespace QueryDialect

/-- The filter is the scope of one of the inclusions. -/
def Filter.IsScopeIn (scope : Filter) (inclusions : List (Inclusion Filter)) : Prop :=
  ∃ name, .scoped name scope ∈ inclusions

theorem Filter.sizeOf_lt_of_isScopeIn {filter scope : Filter} {inclusions : List (Inclusion Filter)}
    (hi : filter.inclusions = some inclusions) (hs : scope.IsScopeIn inclusions) :
    sizeOf scope < sizeOf filter := by
  obtain ⟨fields, inclusions, offset, skip, limit, order, condition⟩ := filter
  obtain ⟨name, hm⟩ := hs
  cases hi
  have h := List.sizeOf_lt_of_mem hm
  simp only [Inclusion.scoped.sizeOf_spec] at h
  simp only [Filter.mk.sizeOf_spec, Option.some.sizeOf_spec]
  omega

@[elab_as_elim]
theorem Filter.induction {motive : Filter → Prop}
    (step : ∀ filter : Filter, (∀ inclusions, filter.inclusions = some inclusions →
      ∀ scope : Filter, scope.IsScopeIn inclusions → motive scope) → motive filter)
    (filter : Filter) : motive filter :=
  step filter fun _ hi scope hs =>
    have : sizeOf scope < sizeOf filter := Filter.sizeOf_lt_of_isScopeIn hi hs
    Filter.induction step scope
termination_by sizeOf filter

/-- The filter itself, and the scopes inside it at any depth. -/
inductive Filter.Reaches : Filter → Filter → Prop
  | self (filter : Filter) : Reaches filter filter
  | scope {filter scope part : Filter} {inclusions : List (Inclusion Filter)}
      (hi : filter.inclusions = some inclusions) (hs : scope.IsScopeIn inclusions)
      (hr : Reaches scope part) :
    Reaches filter part

/-- What holds of all that a filter reaches holds of the filter and of all that its scopes reach. -/
theorem Filter.forall_reaches_iff {p : Filter → Prop} {filter : Filter} :
    (∀ part, filter.Reaches part → p part) ↔
      p filter ∧ ∀ inclusions, filter.inclusions = some inclusions →
        ∀ scope : Filter, scope.IsScopeIn inclusions → ∀ part, scope.Reaches part → p part := by
  constructor
  · intro h
    exact ⟨h filter (.self filter), fun _ hi _ hs part hr => h part (.scope hi hs hr)⟩
  · rintro ⟨hf, hs⟩ part hr
    cases hr with
    | self => exact hf
    | scope hi hm hr => exact hs _ hi _ hm part hr

end QueryDialect
