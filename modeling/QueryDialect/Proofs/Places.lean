import QueryDialect.Error

namespace QueryDialect
namespace Json

/-- The value at the end of a path. A key leads into an object that has it, and an index into an array
that is long enough. -/
def at? : Json → Path → Option Json
  | json, [] => some json
  | .object members, .key name :: rest => (Keyed.get? name members).bind (·.at? rest)
  | .array items, .index position :: rest => items[position]?.bind (·.at? rest)
  | _, _ :: _ => none

@[simp] theorem at?_nil (json : Json) : json.at? [] = some json := by
  cases json <;> rfl

theorem at?_append (json : Json) (path rest : Path) :
    json.at? (path ++ rest) = (json.at? path).bind (·.at? rest) := by
  induction path generalizing json with
  | nil => rw [List.nil_append, at?_nil, Option.bind_some]
  | cons step steps ih =>
    cases step with
    | key name =>
      cases json with
      | object members => simp only [List.cons_append, at?, ih, Option.bind_assoc]
      | _ => rfl
    | index position =>
      cases json with
      | array items => simp only [List.cons_append, at?, ih, Option.bind_assoc]
      | _ => rfl

theorem at?_key {members : Keyed Json} {name : String} {value : Json}
    (h : members.get? name = some value) : at? (.object members) [.key name] = some value := by
  rw [at?, h, Option.bind_some, at?_nil]

theorem at?_index {items : List Json} {position : Nat} {item : Json}
    (h : items[position]? = some item) : at? (.array items) [.index position] = some item := by
  rw [at?, h, Option.bind_some, at?_nil]

end Json
end QueryDialect
