/-!
# Decimal numerals

A `Decimal` is a count of powers of ten. `Layout.render` writes it: positionally where the exponent
of its leading digit lies in the layout's range, in scientific form elsewhere.
-/

set_option autoImplicit false

namespace CircularArc

structure Decimal where
  digits : Nat
  exponent : Int
deriving DecidableEq

namespace Decimal

def digitCount (value : Nat) : Nat := (Nat.toDigits 10 value).length

def leadingExponent (decimal : Decimal) : Int := digitCount decimal.digits + decimal.exponent - 1

/-- The digits from the leading one on, without trailing zeros; `0` for zero. -/
def significantDigits (decimal : Decimal) : List Char :=
  match ((Nat.toDigits 10 decimal.digits).reverse.dropWhile (· == '0')).reverse with
  | [] => ['0']
  | digits => digits

structure Layout where
  leastPositional : Int
  positionalEnd : Int
  exponentWidth : Nat

def positional (digits : List Char) (leading : Int) : List Char :=
  if leading < 0 then
    '0' :: '.' :: (List.replicate (-leading - 1).toNat '0' ++ digits)
  else
    let wholeCount := leading.toNat + 1
    let whole := digits.take wholeCount ++ List.replicate (wholeCount - digits.length) '0'
    match digits.drop wholeCount with
    | [] => whole ++ ['.', '0']
    | places => whole ++ '.' :: places

def exponentField (width : Nat) (leading : Int) : List Char :=
  let digits := Nat.toDigits 10 leading.natAbs
  (if leading < 0 then '-' else '+') :: (List.replicate (width - digits.length) '0' ++ digits)

/-- Scientific form: one digit, a point only if further digits follow, and the exponent. -/
def scientific (width : Nat) (digits : List Char) (leading : Int) : List Char :=
  match digits with
  | [] => []
  | first :: [] => first :: 'e' :: exponentField width leading
  | first :: places => first :: '.' :: (places ++ 'e' :: exponentField width leading)

def Layout.render (layout : Layout) (decimal : Decimal) : String :=
  let digits := decimal.significantDigits
  let leading := decimal.leadingExponent
  String.ofList <|
    if layout.leastPositional ≤ leading ∧ leading < layout.positionalEnd then
      positional digits leading
    else
      scientific layout.exponentWidth digits leading

end Decimal

end CircularArc
