import QueryDialect.Json.Token

namespace QueryDialect.Json

/-- JSON text as it is written: without the meaning of escapes and number literals, with repeated keys
and with no bound on nesting. -/
inductive Written where
  | null
  | bool (value : Bool)
  | number (literal : Number.Literal)
  | string (pieces : List Piece)
  | array (items : List Written)
  | object (members : List (List Piece × Written))

namespace Written

/-- An unfinished array or object around the value in progress, its parts with the last one first.
In an object the value in progress belongs to `key`. -/
inductive Frame where
  | array (items : List Written)
  | object (members : List (List Piece × Written)) (key : List Piece)

mutual

/-- Reads a value and then whatever the frames around it still lack. -/
def value? (frames : List Frame) : List Token → Option Written
  | .null :: rest => finished? .null frames rest
  | .bool value :: rest => finished? (.bool value) frames rest
  | .number literal :: rest => finished? (.number literal) frames rest
  | .string pieces :: rest => finished? (.string pieces) frames rest
  | .openArray :: .closeArray :: rest => finished? (.array []) frames rest
  | .openArray :: rest => value? (.array [] :: frames) rest
  | .openObject :: .closeObject :: rest => finished? (.object []) frames rest
  | .openObject :: .string key :: .colon :: rest => value? (.object [] key :: frames) rest
  | _ => none

/-- Puts a finished value into the innermost frame and reads on. -/
def finished? (value : Written) : List Frame → List Token → Option Written
  | [], [] => some value
  | .array items :: frames, .comma :: rest => value? (.array (value :: items) :: frames) rest
  | .array items :: frames, .closeArray :: rest =>
    finished? (.array (value :: items).reverse) frames rest
  | .object members key :: frames, .comma :: .string next :: .colon :: rest =>
    value? (.object ((key, value) :: members) next :: frames) rest
  | .object members key :: frames, .closeObject :: rest =>
    finished? (.object ((key, value) :: members).reverse) frames rest
  | _, _ => none

end

def ofTokens? (tokens : List Token) : Option Written :=
  value? [] tokens

def ofText? (text : String) : Option Written :=
  (Token.ofText? text).bind ofTokens?

end Written

end QueryDialect.Json
