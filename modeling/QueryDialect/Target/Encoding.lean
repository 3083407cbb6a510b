import QueryDialect.Target.Query

namespace QueryDialect

def FieldTest.toJson : FieldTest → Json
  | .shorthand literal => literal
  | .compare keyword operand => .object [(keyword.text, operand)]

mutual

def Predicate.toJson : Predicate → Json
  | .and children => .object [("AND", .array (Predicate.listToJson children))]
  | .or children => .object [("OR", .array (Predicate.listToJson children))]
  | .field name test => .object [(name, test.toJson)]

def Predicate.listToJson : List Predicate → List Json
  | [] => []
  | child :: rest => child.toJson :: Predicate.listToJson rest

end

def selectToJson (flags : Keyed Bool) : Json :=
  .object (flags.map fun flag => (flag.1, .bool flag.2))

def orderByToJson (orderBy : Keyed Direction) : Json :=
  .object (orderBy.map fun entry => (entry.1, .string entry.2.text))

/-- The member with this key, if there is a value for it. -/
def memberOf (key : String) (value : Option Json) : List (String × Json) :=
  value.toList.map fun value => (key, value)

mutual

/-- The JSON form of a query, with the members of each query put in order by `arrange`. -/
def Query.toJsonWith (arrange : List (String × Json) → List (String × Json)) : Query → Json
  | { projection, skip, take, orderBy, condition } =>
    .object <| arrange <|
      Query.projectionToJson arrange projection ++
        memberOf "skip" (skip.map Json.ofUInt64) ++
        memberOf "take" (take.map Json.ofUInt64) ++
        memberOf "orderBy" (orderBy.map orderByToJson) ++
        memberOf "where" (condition.map Predicate.toJson)

def Query.projectionToJson (arrange : List (String × Json) → List (String × Json)) :
    Option (Projection Query) → List (String × Json)
  | none => []
  | some (.select flags) => [("select", selectToJson flags)]
  | some (.relations related) => [("include", .object (Query.relationsToJson arrange related))]

def Query.relationsToJson (arrange : List (String × Json) → List (String × Json)) :
    List (String × Related Query) → List (String × Json)
  | [] => []
  | (name, .all) :: rest => (name, .bool true) :: Query.relationsToJson arrange rest
  | (name, .scoped scope) :: rest =>
    (name, scope.toJsonWith arrange) :: Query.relationsToJson arrange rest

end

/-- The JSON form with all members in the order of their names. -/
def Query.toJson (query : Query) : Json :=
  query.toJsonWith Keyed.ofList

/-- The JSON form with the members of each query in the order in which a query declares them. -/
def Query.toJsonAsDeclared (query : Query) : Json :=
  query.toJsonWith id

end QueryDialect
