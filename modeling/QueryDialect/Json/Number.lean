namespace QueryDialect.Json

/-- An integer that a signed or an unsigned 64-bit word holds, or a float. Minus zero is a float. -/
inductive Number where
  | integer (value : Int) (inRange : -0x8000000000000000 ≤ value ∧ value < 0x10000000000000000)
  | float (value : Float) (finite : value.isFinite = true)
  deriving DecidableEq

namespace Number

/-- A number as it is spelled. The fraction is empty when there is no point. -/
structure Literal where
  negative : Bool
  whole : List Nat
  fraction : List Nat
  exponent : Option Int

def Literal.isInteger (literal : Literal) : Bool :=
  literal.fraction.isEmpty && literal.exponent.isNone

def ofInt? (value : Int) : Option Number :=
  if h : -0x8000000000000000 ≤ value ∧ value < 0x10000000000000000 then some (.integer value h)
  else none

def ofFloat? (value : Float) : Option Number :=
  if h : value.isFinite = true then some (.float value h) else none

def ofUInt64 (value : UInt64) : Number :=
  .integer value.toNat ⟨by omega, by have := value.toNat_lt; omega⟩

/-- The number as an unsigned 64-bit word, if it is an integer that is not negative. -/
def toUInt64? : Number → Option UInt64
  | .integer value _ => if 0 ≤ value then some value.toNat.toUInt64 else none
  | .float .. => none

@[simp] theorem toUInt64?_ofUInt64 (value : UInt64) : (ofUInt64 value).toUInt64? = some value := by
  simp [ofUInt64, toUInt64?]

theorem toUInt64?_eq_some_iff {number : Number} {value : UInt64} :
    number.toUInt64? = some value ↔ number = .ofUInt64 value := by
  constructor
  · intro h
    cases number with
    | integer found inRange =>
      rw [toUInt64?] at h
      split at h
      next hp =>
        obtain rfl := Option.some.inj h
        have hf : (found.toNat.toUInt64.toNat : Int) = found := by
          rw [Nat.toUInt64, UInt64.toNat_ofNat', Nat.mod_eq_of_lt (by omega),
            Int.toNat_of_nonneg hp]
        simp only [ofUInt64, hf]
      next => cases h
    | float => cases h
  · rintro rfl
    exact toUInt64?_ofUInt64 value

/-- Appends digits to a significand while it stays below `2 ^ 64`, and gives back the digits that
no longer fit. -/
def absorb (significand : Nat) : List Nat → Nat × List Nat
  | [] => (significand, [])
  | digit :: rest =>
    if significand * 10 + digit < 0x10000000000000000 then absorb (significand * 10 + digit) rest
    else (significand, digit :: rest)

def powerOfTen (exponent : Nat) : Float :=
  Float.ofScientific 1 false exponent

/-- Division by a power of ten, in two steps when the power is beyond the range of floats. A 64-bit
word leaves nothing after two full steps. -/
def dividedByPower (value : Float) (exponent : Nat) : Float :=
  if exponent ≤ 308 then value / powerOfTen exponent
  else if exponent ≤ 616 then value / powerOfTen 308 / powerOfTen (exponent - 308)
  else 0

/-- The significand is rounded to a float before it is scaled, so that two roundings take place. -/
def scaled? (negative : Bool) (significand : Nat) (exponent : Int) : Option Number :=
  let signed (value : Float) := ofFloat? (if negative then -value else value)
  let value := significand.toUInt64.toFloat
  if significand = 0 then signed 0
  else if 308 < exponent then none
  else if 0 ≤ exponent then signed (value * powerOfTen exponent.toNat)
  else signed (dividedByPower value exponent.natAbs)

/-- The value of a literal. Each digit of the whole part that the significand has no room for makes
the exponent one larger; digits of the fraction that it has no room for are dropped. There is no
value if the float would be infinite. -/
def ofLiteral? (literal : Literal) : Option Number :=
  let (whole, beyond) := absorb 0 literal.whole
  if literal.isInteger && beyond.isEmpty then
    if !literal.negative then ofInt? whole
    else if whole = 0 then scaled? true whole 0
    else ofInt? (-whole) <|> scaled? true whole 0
  else
    let (significand, lost) := absorb whole literal.fraction
    let places : Nat := literal.fraction.length - lost.length
    scaled? literal.negative significand
      (beyond.length - (places : Int) + literal.exponent.getD 0)

end Number
end QueryDialect.Json
