import QueryDialect.Json.Number
import QueryDialect.Json.Piece

namespace QueryDialect.Json

/-- A string keeps its escaped code units as they are written, and a number its literal: whether they
stand for a value is decided when the value is wanted. -/
inductive Token where
  | openArray
  | closeArray
  | openObject
  | closeObject
  | comma
  | colon
  | null
  | bool (value : Bool)
  | number (literal : Number.Literal)
  | string (pieces : List Piece)

namespace Token

/-- The four characters that may stand between tokens. -/
def isSpace (c : Char) : Bool :=
  c = ' ' || c = '\t' || c = '\n' || c = '\r'

def digitValue (c : Char) : Nat :=
  c.toNat - '0'.toNat

def hexValue? (c : Char) : Option Nat :=
  if c.isDigit then some (digitValue c)
  else if 'a' ≤ c ∧ c ≤ 'f' then some (c.toNat - 'a'.toNat + 10)
  else if 'A' ≤ c ∧ c ≤ 'F' then some (c.toNat - 'A'.toNat + 10)
  else none

def escaped? : Char → Option Char
  | '"' => some '"'
  | '\\' => some '\\'
  | '/' => some '/'
  | 'b' => some '\x08'
  | 'f' => some '\x0c'
  | 'n' => some '\n'
  | 'r' => some '\r'
  | 't' => some '\t'
  | _ => none

def unit? (a b c d : Char) : Option Nat := do
  return (((← hexValue? a) * 16 + (← hexValue? b)) * 16 + (← hexValue? c)) * 16 + (← hexValue? d)

/-- Reads a string behind its opening quote; `done` holds the pieces so far, the last one first. -/
def string? (done : List Piece) : List Char → Option (Token × List Char)
  | '"' :: rest => some (.string done.reverse, rest)
  | '\\' :: 'u' :: a :: b :: c :: d :: rest =>
    match unit? a b c d with
    | some code => string? (.unit code :: done) rest
    | none => none
  | '\\' :: c :: rest =>
    match escaped? c with
    | some value => string? (.char value :: done) rest
    | none => none
  | c :: rest => if c < ' ' ∨ c = '\\' then none else string? (.char c :: done) rest
  | [] => none

/-- The leading digits, if there are any, and what follows them. -/
def digits? (chars : List Char) : Option (List Nat × List Char) :=
  match chars.takeWhile Char.isDigit with
  | [] => none
  | digits => some (digits.map digitValue, chars.dropWhile Char.isDigit)

/-- The whole part of a number has no leading zero unless it is zero. -/
def whole? : List Char → Option (List Nat × List Char)
  | '0' :: rest => some ([0], rest)
  | chars => digits? chars

def fraction? : List Char → Option (List Nat × List Char)
  | '.' :: rest => digits? rest
  | chars => some ([], chars)

def sign : List Char → Bool × List Char
  | '-' :: rest => (true, rest)
  | '+' :: rest => (false, rest)
  | chars => (false, chars)

def exponent? (chars : List Char) : Option (Option Int × List Char) :=
  match chars with
  | [] => some (none, [])
  | c :: rest =>
    if c = 'e' ∨ c = 'E' then do
      let (negative, rest) := sign rest
      let (digits, rest) ← digits? rest
      let magnitude : Nat := digits.foldl (· * 10 + ·) 0
      return (some (if negative then -magnitude else magnitude), rest)
    else some (none, chars)

def unsigned? (negative : Bool) (chars : List Char) : Option (Token × List Char) := do
  let (whole, rest) ← whole? chars
  let (fraction, rest) ← fraction? rest
  let (exponent, rest) ← exponent? rest
  return (.number { negative, whole, fraction, exponent }, rest)

/-- The token that begins with the given character, and what follows it. -/
def next? (first : Char) (rest : List Char) : Option (Token × List Char) :=
  match first with
  | '[' => some (.openArray, rest)
  | ']' => some (.closeArray, rest)
  | '\x7b' => some (.openObject, rest)
  | '\x7d' => some (.closeObject, rest)
  | ',' => some (.comma, rest)
  | ':' => some (.colon, rest)
  | '"' => string? [] rest
  | '-' => unsigned? true rest
  | 'n' => if rest.take 3 = ['u', 'l', 'l'] then some (.null, rest.drop 3) else none
  | 't' => if rest.take 3 = ['r', 'u', 'e'] then some (.bool true, rest.drop 3) else none
  | 'f' => if rest.take 4 = ['a', 'l', 's', 'e'] then some (.bool false, rest.drop 4) else none
  | _ => unsigned? false (first :: rest)

theorem length_le_of_string? {done : List Piece} {chars rest : List Char} {token : Token}
    (h : string? done chars = some (token, rest)) : rest.length ≤ chars.length := by
  fun_induction string? done chars with
  | case1 => cases h; exact Nat.le_succ _
  | case2 _ _ _ _ _ _ _ _ ih => exact Nat.le_trans (ih h) (by simp only [List.length_cons]; omega)
  | case4 _ _ _ _ _ _ ih => exact Nat.le_trans (ih h) (by simp only [List.length_cons]; omega)
  | case7 _ _ _ _ _ _ _ ih => exact Nat.le_succ_of_le (ih h)
  | case3 | case5 | case6 | case8 => cases h

theorem length_lt_of_digits? {chars rest : List Char} {digits : List Nat}
    (h : digits? chars = some (digits, rest)) : rest.length < chars.length := by
  unfold digits? at h
  split at h
  · cases h
  next found hne =>
    obtain ⟨-, rfl⟩ := Prod.mk.injEq .. ▸ Option.some.inj h
    have hsplit := congrArg List.length (List.takeWhile_append_dropWhile (p := Char.isDigit) (l := chars))
    have hpos : 0 < (chars.takeWhile Char.isDigit).length := List.length_pos_iff.mpr hne
    rw [List.length_append] at hsplit
    omega

theorem length_lt_of_whole? {chars rest : List Char} {digits : List Nat}
    (h : whole? chars = some (digits, rest)) : rest.length < chars.length := by
  unfold whole? at h
  split at h
  · cases h
    exact Nat.lt_succ_self _
  · exact length_lt_of_digits? h

theorem length_le_of_fraction? {chars rest : List Char} {digits : List Nat}
    (h : fraction? chars = some (digits, rest)) : rest.length ≤ chars.length := by
  unfold fraction? at h
  split at h
  · have := length_lt_of_digits? h
    simp
    omega
  · cases h
    exact Nat.le_refl _

theorem length_sign_le (chars : List Char) : (sign chars).2.length ≤ chars.length := by
  unfold sign
  split <;> simp

theorem length_le_of_exponent? {chars rest : List Char} {exponent : Option Int}
    (h : exponent? chars = some (exponent, rest)) : rest.length ≤ chars.length := by
  unfold exponent? at h
  split at h
  · cases h
    exact Nat.le_refl _
  next c tail =>
    split at h
    · obtain ⟨⟨digits, after⟩, hd, h⟩ := Option.bind_eq_some_iff.mp h
      cases h
      have h₁ : rest.length < (sign tail).2.length := length_lt_of_digits? hd
      have h₂ := length_sign_le tail
      rw [List.length_cons]
      omega
    · cases h
      exact Nat.le_refl _

theorem length_lt_of_unsigned? {negative : Bool} {chars rest : List Char} {token : Token}
    (h : unsigned? negative chars = some (token, rest)) : rest.length < chars.length := by
  obtain ⟨⟨whole, r₁⟩, hw, h⟩ := Option.bind_eq_some_iff.mp h
  obtain ⟨⟨fraction, r₂⟩, hf, h⟩ := Option.bind_eq_some_iff.mp h
  obtain ⟨⟨exponent, r₃⟩, he, h⟩ := Option.bind_eq_some_iff.mp h
  cases h
  have h₁ := length_lt_of_whole? hw
  have h₂ := length_le_of_fraction? hf
  have h₃ := length_le_of_exponent? he
  omega

theorem length_le_of_next? {first : Char} {chars rest : List Char} {token : Token}
    (h : next? first chars = some (token, rest)) : rest.length ≤ chars.length := by
  unfold next? at h
  split at h
  case h_7 => exact length_le_of_string? h
  case h_8 => exact Nat.le_of_lt (length_lt_of_unsigned? h)
  case h_12 => exact Nat.le_of_lt_succ (length_lt_of_unsigned? h)
  all_goals grind

theorem length_lt_of_dropWhile {first : Char} {chars rest after : List Char} {token : Token}
    (hs : chars.dropWhile isSpace = first :: rest) (h : next? first rest = some (token, after)) :
    after.length < chars.length := by
  have h₁ := length_le_of_next? h
  have h₂ := (List.dropWhile_sublist isSpace (l := chars)).length_le
  rw [hs, List.length_cons] at h₂
  omega

/-- The tokens of a text, if all of it is made of tokens; `done` holds those so far, the last one
first. -/
def readAll? (done : List Token) (chars : List Char) : Option (List Token) :=
  match hs : chars.dropWhile isSpace with
  | [] => some done.reverse
  | first :: rest =>
    match h : next? first rest with
    | some (token, after) =>
      have : after.length < chars.length := length_lt_of_dropWhile hs h
      readAll? (token :: done) after
    | none => none
termination_by chars.length

def ofText? (text : String) : Option (List Token) :=
  readAll? [] text.toList

end Token
end QueryDialect.Json
