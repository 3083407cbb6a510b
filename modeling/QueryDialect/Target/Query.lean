import QueryDialect.Json.Basic

namespace QueryDialect

inductive Direction where
  | ascending
  | descending
  deriving DecidableEq

def Direction.text : Direction → String
  | ascending => "asc"
  | descending => "desc"

inductive Keyword where
  | equals
  | not
  | gt
  | gte
  | lt
  | lte
  | among
  | matching
  deriving DecidableEq

def Keyword.text : Keyword → String
  | equals => "equals"
  | not => "not"
  | gt => "gt"
  | gte => "gte"
  | lt => "lt"
  | lte => "lte"
  | among => "in"
  | matching => "match"

theorem Keyword.text_injective {first second : Keyword} (h : first.text = second.text) :
    first = second := by
  cases first <;> cases second <;> first | rfl | (revert h; decide)

/-- What a field is tested for: equality with a bare literal, or a keyword with its operand. -/
inductive FieldTest where
  | shorthand (literal : Json)
  | compare (keyword : Keyword) (operand : Json)

def FieldTest.keyword? : FieldTest → Option Keyword
  | shorthand _ => none
  | compare keyword _ => some keyword

def FieldTest.value : FieldTest → Json
  | shorthand literal => literal
  | compare _ operand => operand

inductive Predicate where
  | and (children : List Predicate)
  | or (children : List Predicate)
  | field (name : String) (test : FieldTest)

/-- The related records that are included: all of them, or those of a query of their own. -/
inductive Related (Scope : Type) where
  | all
  | scoped (scope : Scope)

/-- A query selects fields or includes relations, and never does both. -/
inductive Projection (Scope : Type) where
  | select (flags : List (String × Bool))
  | relations (related : List (String × Related Scope))

structure Query where
  projection : Option (Projection Query) := none
  skip : Option UInt64 := none
  take : Option UInt64 := none
  orderBy : Option (Keyed Direction) := none
  condition : Option Predicate := none

namespace Query

def select? (query : Query) : Option (Keyed Bool) :=
  match query.projection with
  | some (.select flags) => some flags
  | _ => none

def relations? (query : Query) : Option (Keyed (Related Query)) :=
  match query.projection with
  | some (.relations related) => some related
  | _ => none

end Query
end QueryDialect
