import QueryDialect.Conversion.Query
import QueryDialect.Options.Basic
import QueryDialect.Source.Depth
import QueryDialect.Source.Reader
import QueryDialect.Target.Encoding

namespace QueryDialect

/-- The outcome, and what the caller holds afterwards: nothing after an exclusive conversion, whether it
succeeds or not, and the filter as it was after a shared one, which looks at the whole depth first. -/
def Filter.convert (options : Options) (filter : Filter) : Checked Query × Filter :=
  if options.exclusive then (filter.toQuery options.limit, .empty)
  else if filter.exceedsDepth options.limit then
    (.error (.depthLimitExceeded options.limit), filter)
  else (filter.toQuery options.limit, filter)

def Clause.convert (options : Options) (clause : Clause) : Checked Predicate × Clause :=
  if options.exclusive then (clause.toPredicate options.limit, .empty)
  else if clause.exceedsDepth options.limit then
    (.error (.depthLimitExceeded options.limit), clause)
  else (clause.toPredicate options.limit, clause)

/-- From JSON to JSON. The filter that is read is nobody else's, so its conversion is exclusive. -/
def Filter.convertJson (options : Options) (source : Json) : Checked Json := do
  let filter ← Filter.ofJson options.limit source
  let query ← (filter.convert { options with exclusive := true }).1
  return query.toJson

def Clause.convertJson (options : Options) (source : Json) : Checked Json := do
  let clause ← Clause.ofJson options.limit source
  let predicate ← (clause.convert { options with exclusive := true }).1
  return predicate.toJson

theorem Filter.convertJson_eq_steps (options : Options) (json : Json) :
    Filter.convertJson options json = (do
      let filter ← Filter.ofJson options.limit json
      Query.toJson <$> filter.toQuery options.limit) :=
  rfl

theorem Clause.convertJson_eq_steps (options : Options) (json : Json) :
    Clause.convertJson options json = (do
      let clause ← Clause.ofJson options.limit json
      Predicate.toJson <$> clause.toPredicate options.limit) :=
  rfl

end QueryDialect
