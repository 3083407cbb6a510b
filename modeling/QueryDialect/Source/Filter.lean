import QueryDialect.Json.Basic
import QueryDialect.Source.Operator

namespace QueryDialect

/-- A selection of fields by name, or by a flag for each name. -/
inductive Fields where
  | names (names : List String)
  | flags (flags : List (String × Bool))
  deriving DecidableEq

/-- What a field is tested for: equality with a literal, or an operator with its operand. -/
inductive Condition where
  | literal (value : Json)
  | operator (operator : Operator) (operand : Json)

/-- The literal, or the operand. -/
def Condition.value : Condition → Json
  | .literal value => value
  | .operator _ operand => operand

inductive Clause where
  | and (children : List Clause)
  | or (children : List Clause)
  | field (name : String) (condition : Condition)

/-- A relation to include, with a filter for the related records or without. -/
inductive Inclusion (Scope : Type) where
  | relation (name : String)
  | scoped (name : String) (scope : Scope)

/-- The relation that an inclusion names. -/
def Inclusion.name {Scope : Type} : Inclusion Scope → String
  | .relation name => name
  | .scoped name _ => name

/-- A filter can hold what no JSON value spells, such as a field named `and` or a literal that is an
object. -/
structure Filter where
  fields : Option Fields := none
  inclusions : Option (List (Inclusion Filter)) := none
  offset : Option UInt64 := none
  skip : Option UInt64 := none
  limit : Option UInt64 := none
  order : Option (List String) := none
  condition : Option Clause := none

/-- The clause that every record meets. -/
def Clause.empty : Clause :=
  .and []

/-- The filter that asks for every record and nothing more. -/
def Filter.empty : Filter :=
  {}

end QueryDialect
