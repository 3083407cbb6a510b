import QueryDialect.Json.Basic

namespace QueryDialect.Json

mutual

/-- The greatest number of arrays and objects that lie one inside the other. -/
def nesting : Json → Nat
  | .array items => nestingOfItems items + 1
  | .object members => nestingOfMembers members + 1
  | .null | .bool _ | .number _ | .string _ => 0

def nestingOfItems : List Json → Nat
  | [] => 0
  | item :: rest => max item.nesting (nestingOfItems rest)

def nestingOfMembers : List (String × Json) → Nat
  | [] => 0
  | (_, value) :: rest => max value.nesting (nestingOfMembers rest)

end

theorem nestingOfItems_le_iff {items : List Json} {n : Nat} :
    nestingOfItems items ≤ n ↔ ∀ item ∈ items, item.nesting ≤ n := by
  induction items with
  | nil => simp [nestingOfItems]
  | cons item rest ih => rw [nestingOfItems, Nat.max_le, ih, List.forall_mem_cons]

theorem nestingOfMembers_le_iff {members : List (String × Json)} {n : Nat} :
    nestingOfMembers members ≤ n ↔ ∀ member ∈ members, member.2.nesting ≤ n := by
  induction members with
  | nil => simp [nestingOfMembers]
  | cons member rest ih => rw [nestingOfMembers, Nat.max_le, ih, List.forall_mem_cons]

theorem nesting_lt_of_mem_items {items : List Json} {item : Json} (h : item ∈ items) :
    item.nesting < (array items).nesting :=
  Nat.lt_succ_of_le (nestingOfItems_le_iff.mp (Nat.le_refl _) item h)

theorem nesting_lt_of_get? {members : Keyed Json} {key : String} {value : Json}
    (h : members.get? key = some value) : value.nesting < (object members).nesting :=
  Nat.lt_succ_of_le
    (nestingOfMembers_le_iff.mp (Nat.le_refl _) _ (Keyed.mem_of_get?_eq_some h))

/-- The value inside so many arrays of one item. -/
def boxed (value : Json) : Nat → Json
  | 0 => value
  | times + 1 => .array [value.boxed times]

@[simp] theorem nesting_boxed (value : Json) (times : Nat) :
    (value.boxed times).nesting = value.nesting + times := by
  induction times with
  | zero => rfl
  | succ times ih => rw [boxed, nesting, nestingOfItems, nestingOfItems, ih, Nat.max_zero, Nat.add_assoc]

end QueryDialect.Json
