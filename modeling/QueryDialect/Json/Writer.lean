import QueryDialect.Decimal.Layout
import QueryDialect.Json.Basic

namespace QueryDialect.Json

/-- Floats are positional from a hundred-thousandth up to sixteen whole digits. -/
def floatLayout : Decimal.Layout :=
  { least := -5, greatest := 15 }

def Number.text : Number → String
  | .integer value _ => toString value
  | .float value _ =>
    let sign := if value.toBits < 0x8000000000000000 then "" else "-"
    if value == 0 then sign ++ "0.0"
    else sign ++ String.ofList (floatLayout.text (Decimal.ofBits value.toBits))

/-- Quotation marks, backslashes and the characters below the space are escaped, and nothing else. -/
def escape (c : Char) : String :=
  if c = '"' then "\\\""
  else if c = '\\' then "\\\\"
  else if c = '\x08' then "\\b"
  else if c = '\x0c' then "\\f"
  else if c = '\n' then "\\n"
  else if c = '\r' then "\\r"
  else if c = '\t' then "\\t"
  else if c < ' ' then
    "\\u00" ++ String.ofList [Nat.digitChar (c.toNat / 16), Nat.digitChar (c.toNat % 16)]
  else c.toString

def quote (text : String) : String :=
  text.toList.foldl (fun done c => done ++ escape c) "\"" ++ "\""

/-- What is written between the parts of arrays and objects. `lineBreak` is written at a given depth
before each part and before the closing bracket. -/
structure Spacing where
  lineBreak : (depth : Nat) → String
  afterColon : String

def Spacing.compact : Spacing :=
  { lineBreak := fun _ => "", afterColon := "" }

def Spacing.pretty : Spacing :=
  { lineBreak := fun depth => "\n".pushn ' ' (2 * depth), afterColon := " " }

mutual

/-- Appends the text of a value that stands at the given depth. -/
def write (spacing : Spacing) (depth : Nat) (done : String) : Json → String
  | .null => done ++ "null"
  | .bool true => done ++ "true"
  | .bool false => done ++ "false"
  | .number value => done ++ value.text
  | .string value => done ++ quote value
  | .array [] => done ++ "[]"
  | .array (item :: rest) =>
    let first := write spacing (depth + 1) (done ++ "[" ++ spacing.lineBreak (depth + 1)) item
    writeItems spacing (depth + 1) first rest ++ spacing.lineBreak depth ++ "]"
  | .object [] => done ++ "\x7b\x7d"
  | .object ((key, value) :: rest) =>
    let opening := done ++ "\x7b" ++ spacing.lineBreak (depth + 1)
    let first := write spacing (depth + 1) (opening ++ quote key ++ ":" ++ spacing.afterColon) value
    writeMembers spacing (depth + 1) first rest ++ spacing.lineBreak depth ++ "\x7d"

def writeItems (spacing : Spacing) (depth : Nat) (done : String) : List Json → String
  | [] => done
  | item :: rest =>
    writeItems spacing depth (write spacing depth (done ++ "," ++ spacing.lineBreak depth) item) rest

def writeMembers (spacing : Spacing) (depth : Nat) (done : String) : List (String × Json) → String
  | [] => done
  | (key, value) :: rest =>
    let opening := done ++ "," ++ spacing.lineBreak depth
    let next := write spacing depth (opening ++ quote key ++ ":" ++ spacing.afterColon) value
    writeMembers spacing depth next rest

end

def compact (json : Json) : String :=
  json.write .compact 0 ""

/-- Two spaces a level; empty arrays and objects stay on one line. -/
def pretty (json : Json) : String :=
  json.write .pretty 0 ""

end QueryDialect.Json
