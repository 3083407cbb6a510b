namespace QueryDialect

inductive Operator where
  | eq
  | neq
  | gt
  | gte
  | lt
  | lte
  | between
  | inq
  | nin
  | matching
  | near
  | like
  | ilike
  | regexp
  deriving DecidableEq

namespace Operator

def key : Operator → String
  | eq => "eq"
  | neq => "neq"
  | gt => "gt"
  | gte => "gte"
  | lt => "lt"
  | lte => "lte"
  | between => "between"
  | inq => "inq"
  | nin => "nin"
  | matching => "match"
  | near => "near"
  | like => "like"
  | ilike => "ilike"
  | regexp => "regexp"

/-- All operators, the one that wins first when an object names several. -/
def priority : List Operator :=
  [eq, neq, gt, gte, lt, lte, between, inq, nin, matching, near, like, ilike, regexp]

theorem mem_priority (operator : Operator) : operator ∈ priority := by
  cases operator <;> decide

def ofKey? (key : String) : Option Operator :=
  priority.find? (·.key = key)

@[simp] theorem ofKey?_key (operator : Operator) : ofKey? operator.key = some operator := by
  cases operator <;> rfl

theorem key_of_ofKey? {key : String} {operator : Operator} (h : ofKey? key = some operator) :
    operator.key = key := by
  simpa using List.find?_some h

end Operator
end QueryDialect
