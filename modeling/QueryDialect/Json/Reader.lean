import QueryDialect.Json.Basic
import QueryDialect.Json.Written

namespace QueryDialect.Json

/-- The value of a written text whose arrays and objects are nested at most `levels` deep. A repeated
key keeps its last value. -/
def ofWritten? : (levels : Nat) → Written → Option Json
  | _, .null => some .null
  | _, .bool value => some (.bool value)
  | _, .number literal => (Number.ofLiteral? literal).map .number
  | _, .string pieces => (Piece.decode? pieces).map .string
  | levels + 1, .array items => do
    return .array (← items.mapM (ofWritten? levels))
  | levels + 1, .object members => do
    let decoded ← members.mapM fun member => do
      return (← Piece.decode? member.1, ← ofWritten? levels member.2)
    return .object (Keyed.ofList decoded)
  | 0, .array _ | 0, .object _ => none

theorem exists_mem_of_mapM {α β : Type} {read : α → Option β} {items : List α} {values : List β}
    (h : items.mapM read = some values) {value : β} (hv : value ∈ values) :
    ∃ item ∈ items, read item = some value := by
  induction items generalizing values with
  | nil =>
    cases h
    cases hv
  | cons head rest ih =>
    rw [List.mapM_cons] at h
    obtain ⟨first, hf, h⟩ := Option.bind_eq_some_iff.mp h
    obtain ⟨others, ho, h⟩ := Option.bind_eq_some_iff.mp h
    cases h
    rcases List.mem_cons.mp hv with rfl | hv
    · exact ⟨head, List.mem_cons_self .., hf⟩
    · obtain ⟨item, hi, hr⟩ := ih ho hv
      exact ⟨item, List.mem_cons_of_mem _ hi, hr⟩

theorem sorted_ofWritten? {levels : Nat} {written : Written} {json : Json}
    (h : ofWritten? levels written = some json) : json.Sorted := by
  induction levels generalizing written json with
  | zero =>
    cases written <;> simp only [ofWritten?, Option.map_eq_some_iff] at h
    case null | bool => cases h; constructor
    case number | string => obtain ⟨_, _, rfl⟩ := h; constructor
    all_goals cases h
  | succ levels ih =>
    cases written <;> simp only [ofWritten?, Option.map_eq_some_iff] at h
    case null | bool => cases h; constructor
    case number | string => obtain ⟨_, _, rfl⟩ := h; constructor
    case array items =>
      obtain ⟨values, hm, h⟩ := Option.bind_eq_some_iff.mp h
      cases h
      refine .array fun value hv => ?_
      obtain ⟨item, -, hi⟩ := exists_mem_of_mapM hm hv
      exact ih hi
    case object members =>
      obtain ⟨decoded, hm, h⟩ := Option.bind_eq_some_iff.mp h
      cases h
      refine .object (Keyed.sorted_ofList decoded) fun member hv => ?_
      obtain ⟨source, -, hr⟩ := exists_mem_of_mapM hm (Keyed.mem_of_mem_ofList hv)
      obtain ⟨key, -, hr⟩ := Option.bind_eq_some_iff.mp hr
      obtain ⟨value, hw, hr⟩ := Option.bind_eq_some_iff.mp hr
      cases hr
      exact ih hw

/-- How deep the arrays and objects of a text may be nested. -/
def nestingLimit : Nat := 127

def ofText? (text : String) : Option Json :=
  (Written.ofText? text).bind (ofWritten? nestingLimit)

theorem sorted_ofText? {text : String} {json : Json} (h : ofText? text = some json) :
    json.Sorted := by
  obtain ⟨written, -, hw⟩ := Option.bind_eq_some_iff.mp h
  exact sorted_ofWritten? hw

end QueryDialect.Json
