import ResumableForth.Number.Binary64
import ResumableForth.Number.Decimal

/-! Floating point numbers as text. Writing gives exactly four decimals of the exact value, a half
going to the even neighbour, however large the number is. Reading takes a sign, digits with at most
one point among them, and an exponent, or the name of a number that is not finite. -/
namespace ResumableForth
namespace Binary64

open Decimal

def fourDigits (n : Nat) : List Char :=
  [n / 1000 % 10, n / 100 % 10, n / 10 % 10, n % 10].map Nat.digitChar

/-- A count of ten-thousandths, with its sign, as a numeral with four decimals. -/
def fixedNumeral (negative : Bool) (n : Nat) : String :=
  (if negative then "-" else "") ++ numeral (n / 10000) ++ "." ++ String.ofList (fourDigits n)

/-- A magnitude in ten-thousandths, rounded to a whole number of them. -/
def tenThousandths (rank : Nat) : Nat := roundQuotient (units rank * 10000) unitsPerOne

def fixed4 : Binary64 → String
  | .finite negative rank => fixedNumeral negative (tenThousandths rank.val)
  | .infinite negative => if negative then "-inf" else "inf"
  | .nan => "NaN"

def exponent? : List Char → Option Int
  | [] => some 0
  | c :: rest => if c = 'e' || c = 'E' then integer? rest else none

def fraction : List Char → List Char × List Char
  | '.' :: rest => (rest.takeWhile isDigit, rest.dropWhile isDigit)
  | rest => ([], rest)

/-- A numeral without its sign: the digits as one number, and the power of ten that scales it. -/
def scientific? (text : List Char) : Option (Nat × Int) :=
  let whole := text.takeWhile isDigit
  let (decimals, rest) := fraction (text.dropWhile isDigit)
  if (whole ++ decimals).isEmpty then none
  else (exponent? rest).map fun e => (value (whole ++ decimals), e - decimals.length)

/-- The names of numbers that are not finite, in any mix of upper and lower case. -/
def named? (negative : Bool) (text : List Char) : Option Binary64 :=
  let name := String.ofList (text.map Char.toLower)
  if name = "inf" || name = "infinity" then some (.infinite negative)
  else if name = "nan" then some .nan
  else none

def magnitude? (negative : Bool) (text : List Char) : Option Binary64 :=
  match scientific? text with
  | some (digits, exponent) => some (ofDecimal negative digits exponent)
  | none => named? negative text

def read? (text : String) : Option Binary64 :=
  match text.toList with
  | '-' :: rest => magnitude? true rest
  | '+' :: rest => magnitude? false rest
  | rest => magnitude? false rest

def readFinite? (text : String) : Option Binary64 := (read? text).filter isFinite

/-- The number that its own four-decimal text stands for. -/
def quantize (x : Binary64) : Binary64 := (read? x.fixed4).getD x

end Binary64
end ResumableForth
