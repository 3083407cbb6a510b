namespace QueryDialect.Json

/-- What one place of a string holds: a character, or a 16-bit unit written as a hexadecimal
escape, which may be half of a surrogate pair. -/
inductive Piece where
  | char (value : Char)
  | unit (code : Nat)
  deriving DecidableEq

/-- The text of a string's pieces. Half of a surrogate pair stands for nothing: there is a text only
if each leading half is followed at once by a trailing half, and no trailing half is alone. -/
def Piece.decodeFrom? (done : String) : List Piece → Option String
  | [] => some done
  | .char c :: rest => decodeFrom? (done.push c) rest
  | .unit code :: rest =>
    if code < 0xD800 ∨ 0xDFFF < code then decodeFrom? (done.push (Char.ofNat code)) rest
    else if 0xDBFF < code then none
    else
      match rest with
      | .unit trailing :: rest =>
        if 0xDC00 ≤ trailing ∧ trailing ≤ 0xDFFF then
          let scalar := 0x10000 + (code - 0xD800) * 0x400 + (trailing - 0xDC00)
          decodeFrom? (done.push (Char.ofNat scalar)) rest
        else none
      | _ => none

def Piece.decode? (pieces : List Piece) : Option String :=
  decodeFrom? "" pieces

end QueryDialect.Json
