import ResumableForth.Json
import ResumableForth.Machine.Basic

/-! What is persisted of a machine: its stack, the words that the program has defined, its input and
how far it has been read, the mode, the open definition and the output. Native words are not
persisted; they come back with the host.

As JSON text, a record is written as an object and read from an object, whose members may come in any order
and among others, or from an array of its fields; a tag or a mode is written as its name and read from it or
from an object with the name for its only key. A text that is not JSON, or not of this shape, is
malformed. -/
namespace ResumableForth

/-- A value as its tag and its canonical text. -/
structure StackEntry where
  tag : Tag
  text : String
  deriving DecidableEq

structure WordEntry where
  name : String
  immediate : Bool
  tokens : List String
  deriving DecidableEq

structure Snapshot where
  /-- The stack, bottom first. -/
  stack : List StackEntry
  words : List WordEntry
  input : List String
  cursor : Nat
  mode : Mode
  openWord : Option String
  output : String
  deriving DecidableEq

namespace Snapshot

def text (s : String) : Json := .string (some s)

def texts (ss : List String) : Json := .array (ss.map text)

def record (members : List (String × Json)) : Json :=
  .object (members.map fun member => (some member.1, member.2))

def jsonOfEntry (entry : StackEntry) : Json :=
  record [("type", text entry.tag.name), ("value", text entry.text)]

def jsonOfWord (word : WordEntry) : Json :=
  record [("WordName", text word.name), ("IsImmediate", .bool word.immediate),
    ("WordText", texts word.tokens)]

def toJson (snapshot : Snapshot) : Json :=
  record [("DataStack", .array (snapshot.stack.map jsonOfEntry)),
    ("WordDict", .array (snapshot.words.map jsonOfWord)),
    ("Input", texts snapshot.input),
    ("InputIndex", .number (Decimal.numeral snapshot.cursor)),
    ("Mode", text snapshot.mode.name),
    ("CurWord", match snapshot.openWord with
      | some name => text name
      | none => .null),
    ("Output", text snapshot.output)]

def encode (snapshot : Snapshot) : String := String.ofList snapshot.toJson.render

def text? : Json → Option String
  | .string text => text
  | _ => none

def list? {α : Type} (item? : Json → Option α) : Json → Option (List α)
  | .array items => items.mapM item?
  | _ => none

def bool? : Json → Option Bool
  | .bool b => some b
  | _ => none

/-- A number that is a plain numeral of a 64-bit count. -/
def count? : Json → Option Nat
  | .number numeral => (Decimal.natural? numeral.toList).filter fun n => decide (n < UInt64.size)
  | _ => none

/-- One of several names, by itself or as the only key of an object. -/
def name? {α : Type} (ofName? : String → Option α) : Json → Option α
  | .string (some name) => ofName? name
  | .object [(some name, .null)] => ofName? name
  | _ => none

def optional? {α : Type} (item? : Json → Option α) : Json → Option (Option α)
  | .null => some none
  | value => (item? value).map some

def members? (members : List (Option String × Json)) : Option (List (String × Json)) :=
  members.mapM fun member => member.1.map fun key => (key, member.2)

def valuesOf (name : String) (members : List (String × Json)) : List Json :=
  (members.filter fun member => decide (member.1 = name)).map Prod.snd

/-- A field that has to be there once. -/
def field? {α : Type} (members : List (String × Json)) (name : String) (item? : Json → Option α) :
    Option α :=
  match valuesOf name members with
  | [value] => item? value
  | _ => none

/-- A field that may be absent, but not repeated. -/
def fieldOr? {α : Type} (members : List (String × Json)) (name : String) (default : α)
    (item? : Json → Option α) : Option α :=
  match valuesOf name members with
  | [] => some default
  | [value] => item? value
  | _ => none

def entry? : Json → Option StackEntry
  | .object members => do
    let members ← members? members
    let tag ← field? members "type" (name? Tag.ofName?)
    let text ← field? members "value" text?
    return ⟨tag, text⟩
  | .array [tag, text] => do
    let tag ← name? Tag.ofName? tag
    let text ← text? text
    return ⟨tag, text⟩
  | _ => none

def word? : Json → Option WordEntry
  | .object members => do
    let members ← members? members
    let name ← field? members "WordName" text?
    let immediate ← field? members "IsImmediate" bool?
    let tokens ← field? members "WordText" (list? text?)
    return ⟨name, immediate, tokens⟩
  | .array [name, immediate, tokens] => do
    let name ← text? name
    let immediate ← bool? immediate
    let tokens ← list? text? tokens
    return ⟨name, immediate, tokens⟩
  | _ => none

def ofFields? (stack words input cursor mode openWord : Json) (output : String) :
    Option Snapshot := do
  let stack ← list? entry? stack
  let words ← list? word? words
  let input ← list? text? input
  let cursor ← count? cursor
  let mode ← name? Mode.ofName? mode
  let openWord ← optional? text? openWord
  return ⟨stack, words, input, cursor, mode, openWord, output⟩

def ofJson? : Json → Option Snapshot
  | .object members => do
    let members ← members? members
    let stack ← field? members "DataStack" (list? entry?)
    let words ← field? members "WordDict" (list? word?)
    let input ← field? members "Input" (list? text?)
    let cursor ← field? members "InputIndex" count?
    let mode ← field? members "Mode" (name? Mode.ofName?)
    let openWord ← fieldOr? members "CurWord" none (optional? text?)
    let output ← fieldOr? members "Output" "" text?
    return ⟨stack, words, input, cursor, mode, openWord, output⟩
  | .array [stack, words, input, cursor, mode, openWord] =>
    ofFields? stack words input cursor mode openWord ""
  | .array [stack, words, input, cursor, mode, openWord, output] => do
    let output ← text? output
    ofFields? stack words input cursor mode openWord output
  | _ => none

def decode? (source : String) : Option Snapshot := (Json.parse? source).bind ofJson?

end Snapshot
end ResumableForth
