/-! Decimal numerals: runs of ASCII digits, with a sign where one is allowed, and the 64-bit
integers among them. Leading zeros are allowed; blanks, separators and other scripts' digits are
not. -/
namespace ResumableForth
namespace Decimal

def isDigit (c : Char) : Bool := decide ('0' ≤ c) && decide (c ≤ '9')

def digitValue (c : Char) : Nat := c.toNat - '0'.toNat

/-- The number that a run of digits stands for, most significant first. -/
def value (digits : List Char) : Nat :=
  digits.foldl (fun total c => 10 * total + digitValue c) 0

def natural? (numeral : List Char) : Option Nat :=
  if !numeral.isEmpty && numeral.all isDigit then some (value numeral) else none

/-- A numeral that may have either sign in front. -/
def integer? : List Char → Option Int
  | '-' :: numeral => (natural? numeral).map fun n => -(n : Int)
  | '+' :: numeral => (natural? numeral).map fun n => (n : Int)
  | numeral => (natural? numeral).map fun n => (n : Int)

/-- The number as a 64-bit signed integer, unless it is out of range. -/
def int64? (n : Int) : Option Int64 :=
  if Int64.minValue.toInt ≤ n ∧ n ≤ Int64.maxValue.toInt then some (Int64.ofInt n) else none

def readInt64? (text : String) : Option Int64 := (integer? text.toList).bind int64?

/-- Reads a 64-bit count, which may have a plus sign in front. -/
def readCount? (text : String) : Option Nat :=
  let digits := match text.toList with
    | '+' :: numeral => natural? numeral
    | numeral => natural? numeral
  digits.filter fun n => decide (n < UInt64.size)

def numeral (n : Nat) : String := String.ofList (Nat.toDigits 10 n)

def signedNumeral (n : Int) : String :=
  if n < 0 then "-" ++ numeral n.natAbs else numeral n.natAbs

@[simp] theorem value_nil : value [] = 0 := rfl

@[simp] theorem natural?_nil : natural? [] = none := rfl

theorem natural?_eq_some {numeral : List Char} (h : numeral ≠ [])
    (digits : ∀ c ∈ numeral, isDigit c = true) : natural? numeral = some (value numeral) := by
  simp [natural?, h, List.all_eq_true.mpr digits]

end Decimal
end ResumableForth
