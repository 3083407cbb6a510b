import QueryDialect.Checked
import QueryDialect.Source.Filter
import QueryDialect.Target.Query

namespace QueryDialect

/-- The keyword that means the same. Six operators have none. -/
def Operator.keyword? : Operator → Option Keyword
  | eq => some .equals
  | neq => some .not
  | gt => some .gt
  | gte => some .gte
  | lt => some .lt
  | lte => some .lte
  | inq => some .among
  | matching => some .matching
  | between | nin | near | like | ilike | regexp => none

def Condition.toTest (field : String) : Condition → Checked FieldTest
  | .literal value => .ok (.shorthand value)
  | .operator kind operand =>
    match kind.keyword? with
    | some keyword => .ok (.compare keyword operand)
    | none => .error (.unsupportedOperator field kind)

namespace Clause

/-- The predicate of a clause whose children are converted by `child`. -/
def toPredicateWith (child : Clause → Checked Predicate) : Clause → Checked Predicate
  | .and children => .and <$> children.mapM child
  | .or children => .or <$> children.mapM child
  | .field name condition => .field name <$> condition.toTest name

/-- The predicate of a clause in which at most `limit` combinators are nested. -/
def toPredicate (limit : Nat) (clause : Clause) : Checked Predicate :=
  Checked.withinLimit (fun _ => toPredicateWith) limit clause

end Clause
end QueryDialect
