import QueryDialect.Decimal.Shortest

namespace QueryDialect.Decimal

/-- The least and the greatest power of ten of a first digit that is written positionally. -/
structure Layout where
  least : Int
  greatest : Int

/-- The digits of the number without trailing zeros. -/
def significant (d : Decimal) : List Char :=
  ((Nat.toDigits 10 d.digits).reverse.dropWhile (· = '0')).reverse

/-- The power of ten of the first digit. -/
def leading (d : Decimal) : Int :=
  d.exponent + (Nat.toDigits 10 d.digits).length - 1

/-- Positional text always has a digit on both sides of its point. -/
def positional (digits : List Char) (leading : Int) : List Char :=
  if leading < 0 then
    '0' :: '.' :: (List.replicate (-leading - 1).toNat '0' ++ digits)
  else
    let width := leading.toNat + 1
    let whole := digits.take width ++ List.replicate (width - digits.length) '0'
    whole ++ '.' :: if digits.length ≤ width then ['0'] else digits.drop width

/-- Text with a power of ten has a point only before further digits, and a signed exponent. -/
def scientific (digits : List Char) (leading : Int) : List Char :=
  let fraction := if digits.length ≤ 1 then [] else '.' :: digits.drop 1
  let sign := if leading < 0 then '-' else '+'
  digits.take 1 ++ fraction ++ 'e' :: sign :: Nat.toDigits 10 leading.natAbs

def Layout.text (layout : Layout) (d : Decimal) : List Char :=
  if layout.least ≤ d.leading ∧ d.leading ≤ layout.greatest then
    positional d.significant d.leading
  else
    scientific d.significant d.leading

end QueryDialect.Decimal
