import QueryDialect.Keyed
import QueryDialect.Json.Number

namespace QueryDialect

/-- A JSON value. The members of an object have an order, which is that of their keys in what was read
from text (`Json.Sorted`). -/
inductive Json where
  | null
  | bool (value : Bool)
  | number (value : Json.Number)
  | string (value : String)
  | array (items : List Json)
  | object (members : List (String × Json))
  deriving Inhabited

namespace Json

/-- The members of every object inside the value are in strictly increasing order of their keys. -/
inductive Sorted : Json → Prop where
  | null : Sorted .null
  | bool (value : Bool) : Sorted (.bool value)
  | number (value : Number) : Sorted (.number value)
  | string (value : String) : Sorted (.string value)
  | array {items : List Json} (items_sorted : ∀ item ∈ items, item.Sorted) : Sorted (.array items)
  | object {members : List (String × Json)} (keys_sorted : Keyed.Sorted members)
      (members_sorted : ∀ member ∈ members, member.2.Sorted) : Sorted (.object members)

def bool? : Json → Option Bool
  | .bool value => some value
  | _ => none

def string? : Json → Option String
  | .string value => some value
  | _ => none

def array? : Json → Option (List Json)
  | .array items => some items
  | _ => none

def object? : Json → Option (Keyed Json)
  | .object members => some members
  | _ => none

def uint64? : Json → Option UInt64
  | .number value => value.toUInt64?
  | _ => none

def ofUInt64 (value : UInt64) : Json :=
  .number (.ofUInt64 value)

theorem uint64?_eq_some_iff {json : Json} {value : UInt64} :
    json.uint64? = some value ↔ json = .ofUInt64 value := by
  cases json with
  | number number =>
    rw [uint64?, Number.toUInt64?_eq_some_iff, ofUInt64, Json.number.injEq]
  | _ => simp [uint64?, ofUInt64]

end Json
end QueryDialect
