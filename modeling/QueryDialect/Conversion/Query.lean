import QueryDialect.Conversion.OrderBy
import QueryDialect.Conversion.Predicate

namespace QueryDialect

/-- The last flag of a name decides. -/
def Fields.toSelect : Fields → Keyed Bool
  | .names listed => Keyed.ofList (listed.map fun name => (name, true))
  | .flags listed => Keyed.ofList listed

def Inclusion.toRelated (scope : Filter → Checked Query) :
    Inclusion Filter → Checked (String × Related Query)
  | .relation name => .ok (name, .all)
  | .scoped name filter => (fun query => (name, .scoped query)) <$> scope filter

/-- The last inclusion of a relation decides, but the scopes of all of them are converted. -/
def relationsOf (scope : Filter → Checked Query) (inclusions : List (Inclusion Filter)) :
    Checked (Keyed (Related Query)) :=
  Keyed.ofList <$>
    Checked.each (fun i => [.key "include", .index i, .key "scope"]) (·.toRelated scope) inclusions

namespace Filter

def projectionWith (scope : Filter → Checked Query) (filter : Filter) :
    Checked (Option (Projection Query)) :=
  match filter.fields, filter.inclusions with
  | some _, some _ => .error .conflictingProjection
  | some fields, none => .ok (some (.select fields.toSelect))
  | none, some inclusions => (some ∘ .relations) <$> relationsOf scope inclusions
  | none, none => .ok none

/-- The query of a filter whose scopes are converted by `scope`, and its clause by `clause`. -/
def toQueryWith (scope : Filter → Checked Query) (clause : Clause → Checked Predicate)
    (filter : Filter) : Checked Query := do
  let projection ← filter.projectionWith scope
  let orderBy ← filter.order.mapM orderByOf
  let condition ← filter.condition.mapM clause
  return {
    projection
    skip := filter.offset <|> filter.skip
    take := filter.limit
    orderBy
    condition }

/-- The query of a filter in which at most `limit` scopes and combinators are nested. -/
def toQuery (limit : Nat) (filter : Filter) : Checked Query :=
  Checked.withinLimit (fun limit scope => toQueryWith scope (Clause.toPredicate limit)) limit filter

end Filter
end QueryDialect
