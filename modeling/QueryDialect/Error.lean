import QueryDialect.Json.Writer
import QueryDialect.Source.Operator

namespace QueryDialect

inductive Step where
  | key (name : String)
  | index (position : Nat)
  deriving DecidableEq

def Step.text : Step → String
  | .key name => "." ++ name
  | .index position => "[" ++ toString position ++ "]"

/-- The steps from a value to a place inside it. -/
abbrev Path := List Step

def Path.text (path : Path) : String :=
  path.foldl (· ++ ·.text) "$"

/-- What is wrong with a value at the place an error names. -/
inductive Defect where
  | notObject
  | notFields
  | notFieldName
  | notFlag
  | notInclusion
  | notRelationName
  | notOrder
  | notOrderEntry
  | notCount
  | notClauses
  | emptyClause
  | severalFields (count : Nat)
  | missingFieldName
  deriving DecidableEq

def Defect.text : Defect → String
  | notObject => "expected an object"
  | notFields => "expected an array of field names or an object of booleans"
  | notFieldName => "expected a field name"
  | notFlag => "expected a boolean"
  | notInclusion => "expected a relation name or a \x7brelation, scope\x7d object"
  | notRelationName => "expected a relation name"
  | notOrder => "expected an order string or an array of order strings"
  | notOrderEntry => "expected an order string"
  | notCount => "expected a non-negative integer"
  | notClauses => "expected an array of predicates"
  | emptyClause => "empty predicate"
  | severalFields count =>
    "a predicate leaf must name exactly one field, found " ++ toString count
  | missingFieldName => "missing field name"

/-- Why a filter was refused. A path starts at the value that was examined, and a limit is the one that
held there; `inside` and `deeper` restate them for an enclosing value. -/
inductive FilterError where
  | conflictingProjection
  | invalidOrderDirection (field direction : String)
  | unsupportedOperator (field : String) (operator : Operator)
  | unrecognizedOperator (field : String) (operators : Json)
  | depthLimitExceeded (limit : Nat)
  | malformed (path : Path) (defect : Defect)

namespace FilterError

def kind : FilterError → String
  | conflictingProjection => "ConflictingProjectionError"
  | invalidOrderDirection .. => "InvalidOrderDirectionError"
  | unsupportedOperator .. => "UnsupportedOperatorError"
  | unrecognizedOperator .. => "UnrecognizedOperatorError"
  | depthLimitExceeded _ => "DepthLimitExceededError"
  | malformed .. => "MalformedFilterError"

def message : FilterError → String
  | conflictingProjection =>
    "`fields` and `include` cannot be used together in the same filter"
  | invalidOrderDirection field direction =>
    "invalid order direction `" ++ direction ++ "` for field `" ++ field
      ++ "`, expected ASC or DESC"
  | unsupportedOperator field operator =>
    "operator `" ++ operator.key ++ "` on field `" ++ field
      ++ "` has no equivalent in the target dialect"
  | unrecognizedOperator field operators =>
    "unrecognized operator on field `" ++ field ++ "`: " ++ operators.compact
  | depthLimitExceeded limit =>
    "filter nesting exceeds the maximum depth of " ++ toString limit
  | malformed path defect =>
    "malformed filter at `" ++ path.text ++ "`: " ++ defect.text

/-- The error as seen from a value that holds the examined one at `steps`. -/
def inside (steps : Path) : FilterError → FilterError
  | malformed path defect => malformed (steps ++ path) defect
  | error => error

/-- The error as seen from a value that holds the examined one a level below itself. -/
def deeper : FilterError → FilterError
  | depthLimitExceeded limit => depthLimitExceeded (limit + 1)
  | error => error

@[simp] theorem inside_nil (error : FilterError) : error.inside [] = error := by
  cases error <;> rfl

theorem inside_inside (outer inner : Path) (error : FilterError) :
    (error.inside inner).inside outer = error.inside (outer ++ inner) := by
  cases error <;> simp [inside]

theorem deeper_inside (steps : Path) (error : FilterError) :
    (error.inside steps).deeper = error.deeper.inside steps := by
  cases error <;> rfl

end FilterError

end QueryDialect
