import QueryDialect.Checked
import QueryDialect.Source.Filter

namespace QueryDialect

/-- The member with this key, unless it is missing or null. -/
def Json.member? (members : Keyed Json) (key : String) : Option Json :=
  match members.get? key with
  | some .null => none
  | found => found

theorem Json.member?_eq_some_iff {members : Keyed Json} {key : String} {value : Json} :
    Json.member? members key = some value ↔ members.get? key = some value ∧ value ≠ .null := by
  unfold Json.member?
  split
  next h =>
    rw [h]
    constructor
    · nofun
    · rintro ⟨h, hn⟩
      exact absurd (Option.some.inj h).symm hn
  next hn =>
    constructor
    · intro h
      exact ⟨h, fun he => hn (he ▸ h)⟩
    · exact And.left

theorem Json.member?_eq_none_iff {members : Keyed Json} {key : String} :
    Json.member? members key = none ↔ members.get? key = none ∨ members.get? key = some .null := by
  unfold Json.member?
  split
  next h => simp [h]
  next hn => exact (or_iff_left hn).symm

namespace Checked

variable {α : Type}

/-- Examines the value of a member and places its errors there. -/
def member (key : String) (examine : Json → Checked α) (value : Json) : Checked α :=
  inside [.key key] (examine value)

/-- Examines a member if it is there and not null. -/
def optional (members : Keyed Json) (key : String) (examine : Json → Checked α) :
    Checked (Option α) :=
  match Json.member? members key with
  | none => .ok none
  | some value => some <$> member key examine value

end Checked

def Fields.ofJson : Json → Checked Fields
  | .array items =>
    names <$> Checked.each (fun i => [.index i]) (fun item =>
      match item.string? with
      | some name => .ok name
      | none => .refuse .notFieldName) items
  | .object members =>
    flags <$> members.mapM fun (name, flag) =>
      match flag.bool? with
      | some flag => .ok (name, flag)
      | none => .inside [.key name] (.refuse .notFlag)
  | _ => .refuse .notFields

def orderOfJson : Json → Checked (List String)
  | .string entry => .ok [entry]
  | .array items =>
    Checked.each (fun i => [.index i]) (fun item =>
      match item.string? with
      | some entry => .ok entry
      | none => .refuse .notOrderEntry) items
  | _ => .refuse .notOrder

def countOfJson (json : Json) : Checked UInt64 :=
  match json.uint64? with
  | some count => .ok count
  | none => .refuse .notCount

/-- An object stands for the first operator in order of priority that is among its keys. -/
def Condition.ofJson (field : String) : Json → Checked Condition
  | .object members =>
    match Operator.priority.findSome? fun operator =>
        (Keyed.get? operator.key members).map (Condition.operator operator) with
    | some condition => .ok condition
    | none => .error (.unrecognizedOperator field (.object members))
  | value => .ok (.literal value)

namespace Clause

def listOfJson (child : Json → Checked Clause) : Json → Checked (List Clause)
  | .array items => Checked.each (fun i => [.index i]) child items
  | _ => .refuse .notClauses

/-- A clause whose children are read by `child`. The members beside a combinator are ignored. -/
def ofJsonWith (child : Json → Checked Clause) : Json → Checked Clause
  | .object members =>
    match Keyed.get? "and" members, Keyed.get? "or" members, members with
    | some children, _, _ => and <$> Checked.member "and" (listOfJson child) children
    | none, some children, _ => or <$> Checked.member "or" (listOfJson child) children
    | none, none, [] => .refuse .emptyClause
    | none, none, [(name, value)] => field name <$> Condition.ofJson name value
    | none, none, _ => .refuse (.severalFields members.length)
  | _ => .refuse .notObject

section Branches

variable {child : Json → Checked Clause} {members : Keyed Json} {children : Json}

theorem ofJsonWith_of_and (ha : members.get? "and" = some children) :
    ofJsonWith child (.object members) =
      and <$> Checked.member "and" (listOfJson child) children := by
  simp only [ofJsonWith, ha]

theorem ofJsonWith_of_or (ha : members.get? "and" = none) (ho : members.get? "or" = some children) :
    ofJsonWith child (.object members) = or <$> Checked.member "or" (listOfJson child) children := by
  simp only [ofJsonWith, ha, ho]

theorem ofJsonWith_singleton {name : String} {value : Json} (ha : name ≠ "and") (ho : name ≠ "or") :
    ofJsonWith child (.object [(name, value)]) = field name <$> Condition.ofJson name value := by
  simp only [ofJsonWith, Keyed.get?_singleton_eq_none_iff.mpr ha,
    Keyed.get?_singleton_eq_none_iff.mpr ho]

/-- Without a combinator, there has to be one member and no more. -/
theorem ofJsonWith_ne_ok_of_length (ha : members.get? "and" = none) (ho : members.get? "or" = none)
    (hl : members.length ≠ 1) (clause : Clause) :
    ofJsonWith child (.object members) ≠ .ok clause := by
  simp only [ofJsonWith, ha, ho]
  split <;> simp_all [Checked.refuse]

end Branches

/-- The clause of a JSON value in which at most `limit` combinators are nested. -/
def ofJson (limit : Nat) (json : Json) : Checked Clause :=
  Checked.withinLimit (fun _ => ofJsonWith) limit json

end Clause

/-- An inclusion whose scope is read by `scope`. -/
def Inclusion.ofJsonWith {Scope : Type} (scope : Json → Checked Scope) :
    Json → Checked (Inclusion Scope)
  | .string name => .ok (.relation name)
  | .object members => do
    match (Json.member? members "relation").bind Json.string? with
    | none => .inside [.key "relation"] (.refuse .notRelationName)
    | some name =>
      match ← Checked.optional members "scope" scope with
      | none => return .relation name
      | some filter => return .scoped name filter
  | _ => .refuse .notInclusion

/-- A list of inclusions, or a single one. -/
def Inclusion.listOfJson {Scope : Type} (scope : Json → Checked Scope) :
    Json → Checked (List (Inclusion Scope))
  | .array items => Checked.each (fun i => [.index i]) (ofJsonWith scope) items
  | value => ([·]) <$> ofJsonWith scope value

namespace Filter

/-- A filter whose scopes are read by `scope`, and its clause by `clause`. -/
def ofJsonWith (scope : Json → Checked Filter) (clause : Json → Checked Clause) :
    Json → Checked Filter
  | .object members => do
    let fields ← Checked.optional members "fields" Fields.ofJson
    let inclusions ← Checked.optional members "include" (Inclusion.listOfJson scope)
    let order ← Checked.optional members "order" orderOfJson
    let condition ← Checked.optional members "where" clause
    let offset ← Checked.optional members "offset" countOfJson
    let skip ← Checked.optional members "skip" countOfJson
    let limit ← Checked.optional members "limit" countOfJson
    return { fields, inclusions, offset, skip, limit, order, condition }
  | _ => .refuse .notObject

/-- The filter of a JSON value in which at most `limit` scopes and combinators are nested. -/
def ofJson (limit : Nat) (json : Json) : Checked Filter :=
  Checked.withinLimit (fun limit scope => ofJsonWith scope (Clause.ofJson limit)) limit json

end Filter
end QueryDialect
