import ResumableForth.Number.Binary64.Text
import ResumableForth.Text.Blank

/-! The values on the data stack. A value is a tag with a payload, and it has one canonical text:
that text is printed, persisted, compared and compiled. A floating point value is always held
quantized, so the number is the one that its canonical text stands for. -/
namespace ResumableForth

inductive Tag
  | int | float | str | bool | word | null
  deriving DecidableEq

inductive Value
  | null
  | int (n : Int64)
  | float (x : Binary64)
  | bool (b : Bool)
  | str (text : String)
  | word (name : String)
  deriving DecidableEq

def Tag.name : Tag → String
  | .int => "Int"
  | .float => "Float"
  | .str => "Str"
  | .bool => "Bool"
  | .word => "Word"
  | .null => "Null"

def Tag.ofName? : String → Option Tag
  | "Int" => some .int
  | "Float" => some .float
  | "Str" => some .str
  | "Bool" => some .bool
  | "Word" => some .word
  | "Null" => some .null
  | _ => none

@[simp] theorem Tag.ofName?_name (tag : Tag) : Tag.ofName? tag.name = some tag := by
  cases tag <;> rfl

namespace Value

def tag : Value → Tag
  | .null => .null
  | .int _ => .int
  | .float _ => .float
  | .bool _ => .bool
  | .str _ => .str
  | .word _ => .word

def boolName (b : Bool) : String := if b then "True" else "False"

def readBool? : String → Option Bool
  | "True" => some true
  | "False" => some false
  | _ => none

def canonical : Value → String
  | .null => ""
  | .int n => Decimal.signedNumeral n.toInt
  | .float x => x.fixed4
  | .bool b => boolName b
  | .str text => text
  | .word name => name

/-- A floating point value, rounded to the four decimals of its canonical text. -/
def ofFloat (x : Binary64) : Value := .float x.quantize

def ofCount (n : Nat) : Value := .int (Int64.ofNat n)

def ofCanonical? (tag : Tag) (text : String) : Option Value :=
  match tag with
  | .null => if text.isEmpty then some .null else none
  | .int => (Decimal.readInt64? text).map .int
  | .float => (Binary64.readFinite? text).map ofFloat
  | .bool => (readBool? text).map .bool
  | .str => some (.str text)
  | .word => if Text.isToken text then some (.word text) else none

/-- What a token that names no word stands for: an integer, else a finite number, else a truth
value, else itself. -/
def literal (token : String) : Value :=
  match Decimal.readInt64? token with
  | some n => .int n
  | none =>
    match Binary64.readFinite? token with
    | some x => ofFloat x
    | none =>
      match readBool? token with
      | some b => .bool b
      | none => .str token

def tolerance : Binary64 := Binary64.ofDecimal false 1 (-4)

/-- Equality as a program sees it: floating point values within the tolerance, all others by
canonical text. Values of different tags cannot be compared. -/
def looselyEqual? (a b : Value) : Option Bool :=
  if a.tag = b.tag then
    match a, b with
    | .float x, .float y => some ((Binary64.sub x y).abs.lt tolerance)
    | _, _ => some (decide (a.canonical = b.canonical))
  else none

/-- Equality of the payloads, numeric for floating point values. -/
def identical : Value → Value → Bool
  | .float x, .float y => x.numEq y
  | a, b => decide (a = b)

@[simp] theorem readBool?_boolName (b : Bool) : readBool? (boolName b) = some b := by
  cases b <;> rfl

end Value
end ResumableForth
