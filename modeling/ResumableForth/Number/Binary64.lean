/-! Binary floating point numbers of 64 bits, computed exactly. A magnitude is named by its rank
among the magnitudes in increasing order, so that rank zero is zero, neighbours have neighbouring
ranks, and every rank below that of infinity is a finite number. All magnitudes are whole multiples
of the smallest one above zero; `units` gives the multiple. Every operation computes in whole
numbers first and rounds once, to the nearest number and on a tie to the one of even rank. -/
namespace ResumableForth

def binadeSize : Nat := 1 <<< 52

/-- How many units make one: the smallest magnitude above zero is `2 ^ (-1074)`. -/
def unitsPerOne : Nat := 1 <<< 1074

/-- The rank of the first magnitude that is too large to be finite. -/
def infinityRank : Nat := 0x7FF0000000000000

inductive Binary64
  | finite (negative : Bool) (rank : Fin infinityRank)
  | infinite (negative : Bool)
  | nan
  deriving DecidableEq

/-- The quotient rounded to the nearest whole number, a tie going to the even one. -/
def roundQuotient (num den : Nat) : Nat :=
  let q := num / den
  let r := num % den
  if 2 * r < den then q else if den < 2 * r then q + 1 else q + q % 2

namespace Binary64

def units (rank : Nat) : Nat :=
  if rank < binadeSize then rank
  else (binadeSize + rank % binadeSize) <<< (rank / binadeSize - 1)

def zero (negative : Bool) : Binary64 := .finite negative ⟨0, by decide⟩

/-- The number nearest to a quotient of units. Beyond the middle between the largest finite number
and the next power of two the result is infinite. -/
def nearest (negative : Bool) (num den : Nat) : Binary64 :=
  let shift := (num / den).log2 - 52
  let rank := shift * binadeSize + roundQuotient num (den <<< shift)
  if h : rank < infinityRank then .finite negative ⟨rank, h⟩ else .infinite negative

def isFinite : Binary64 → Bool
  | .finite _ _ => true
  | _ => false

def signedUnits (negative : Bool) (rank : Fin infinityRank) : Int :=
  if negative then -(units rank.val : Int) else (units rank.val : Int)

def neg : Binary64 → Binary64
  | .finite negative rank => .finite (!negative) rank
  | .infinite negative => .infinite (!negative)
  | .nan => .nan

def abs : Binary64 → Binary64
  | .finite _ rank => .finite false rank
  | .infinite _ => .infinite false
  | .nan => .nan

def add : Binary64 → Binary64 → Binary64
  | .finite a x, .finite b y =>
    let sum := signedUnits a x + signedUnits b y
    if sum = 0 then zero (a && b) else nearest (decide (sum < 0)) sum.natAbs 1
  | .infinite a, .infinite b => if a = b then .infinite a else .nan
  | .infinite a, .finite _ _ => .infinite a
  | .finite _ _, .infinite b => .infinite b
  | .nan, _ => .nan
  | _, .nan => .nan

def sub (x y : Binary64) : Binary64 := add x (neg y)

def mul : Binary64 → Binary64 → Binary64
  | .finite a x, .finite b y => nearest (a != b) (units x.val * units y.val) unitsPerOne
  | .infinite a, .infinite b => .infinite (a != b)
  | .infinite a, .finite b y => if y.val = 0 then .nan else .infinite (a != b)
  | .finite a x, .infinite b => if x.val = 0 then .nan else .infinite (a != b)
  | .nan, _ => .nan
  | _, .nan => .nan

def div : Binary64 → Binary64 → Binary64
  | .finite a x, .finite b y =>
    if y.val = 0 then if x.val = 0 then .nan else .infinite (a != b)
    else nearest (a != b) (units x.val * unitsPerOne) (units y.val)
  | .infinite _, .infinite _ => .nan
  | .infinite a, .finite b _ => .infinite (a != b)
  | .finite a _, .infinite b => zero (a != b)
  | .nan, _ => .nan
  | _, .nan => .nan

/-- The place of a number on the line; the two zeros share one. -/
def place? : Binary64 → Option Int
  | .finite negative rank => some (if negative then -(rank.val : Int) else (rank.val : Int))
  | .infinite negative => some (if negative then -(infinityRank : Int) else (infinityRank : Int))
  | .nan => none

def lt (x y : Binary64) : Bool :=
  match place? x, place? y with
  | some a, some b => decide (a < b)
  | _, _ => false

/-- Numeric equality: the two zeros are equal and what is no number differs from itself. -/
def numEq (x y : Binary64) : Bool :=
  match place? x, place? y with
  | some a, some b => decide (a = b)
  | _, _ => false

/-- The number nearest to `digits * 10 ^ exponent`. The two early exits only keep the powers of ten
small: a number with its first digit that far up is infinite, and one that far down is zero. -/
def ofDecimal (negative : Bool) (digits : Nat) (exponent : Int) : Binary64 :=
  let leading := exponent + (Nat.toDigits 10 digits).length
  if digits = 0 then zero negative
  else if 400 < leading then .infinite negative
  else if leading < -400 then zero negative
  else nearest negative (digits * Nat.pow 10 exponent.toNat * unitsPerOne)
    (Nat.pow 10 (-exponent).toNat)

end Binary64
end ResumableForth
