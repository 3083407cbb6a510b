import QueryDialect.Checked
import QueryDialect.Target.Query
import QueryDialect.Text.Blank

namespace QueryDialect

/-- No character outside ASCII has a letter of `asc` or `desc` as its lower case. -/
def Direction.ofText? (text : String) : Option Direction :=
  match String.ofList (text.toList.map Char.toLower) with
  | "" | "asc" => some .ascending
  | "desc" => some .descending
  | _ => none

/-- The field of an order entry stands before the first space, its direction after that. -/
def orderEntry (entry : String) : Checked (String × Direction) :=
  let (field, rest) := Text.cut (· = ' ') entry
  let direction := Text.trim rest
  if field = "" then .refuse .missingFieldName
  else
    match Direction.ofText? direction with
    | some direction => .ok (field, direction)
    | none => .error (.invalidOrderDirection field direction)

/-- The last entry of a field decides. -/
def orderByOf (order : List String) : Checked (Keyed Direction) :=
  Keyed.ofList <$> Checked.each (fun i => [.key "order", .index i]) orderEntry order

end QueryDialect
