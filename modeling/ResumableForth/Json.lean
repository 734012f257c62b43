import ResumableForth.Number.Decimal

/-! JSON values and their texts. The scanner takes one character at a time and the parser one token. A
string token holds its text, or nothing when an escape in it gives half of a surrogate pair: such a string
is well formed but stands for no text. A number token holds its numeral as written. The parser keeps the
open arrays and objects in a list, so that no depth of nesting is too much; the members of an object stay
in the order of the text, repeated keys included. The printer puts no space between tokens, and escapes in
a string only the quote, the backslash and the control characters below the space. -/
namespace ResumableForth
namespace Json

inductive Token
  | openArray | closeArray | openObject | closeObject | comma | colon
  | null
  | bool (b : Bool)
  | number (numeral : String)
  | string (text : Option String)
  deriving DecidableEq

/-- How far a numeral has been read: behind its sign, behind a leading zero, in the whole part,
behind the point, in the decimals, behind the mark of the exponent, behind its sign, or in it. -/
inductive NumberPhase
  | sign | zero | whole | point | decimals | mark | markSign | exponent
  deriving DecidableEq

namespace NumberPhase

def isMark (c : Char) : Bool := c = 'e' || c = 'E'

def next (phase : NumberPhase) (c : Char) : Option NumberPhase :=
  match phase with
  | .sign => if c = '0' then some .zero else if Decimal.isDigit c then some .whole else none
  | .zero => if c = '.' then some .point else if isMark c then some .mark else none
  | .whole =>
    if Decimal.isDigit c then some .whole
    else if c = '.' then some .point else if isMark c then some .mark else none
  | .point => if Decimal.isDigit c then some .decimals else none
  | .decimals =>
    if Decimal.isDigit c then some .decimals else if isMark c then some .mark else none
  | .mark =>
    if c = '+' || c = '-' then some .markSign
    else if Decimal.isDigit c then some .exponent else none
  | .markSign => if Decimal.isDigit c then some .exponent else none
  | .exponent => if Decimal.isDigit c then some .exponent else none

def isEnd : NumberPhase → Bool
  | .zero | .whole | .decimals | .exponent => true
  | _ => false

end NumberPhase

def isHighSurrogate (code : Nat) : Bool := decide (0xD800 ≤ code) && decide (code ≤ 0xDBFF)

def isLowSurrogate (code : Nat) : Bool := decide (0xDC00 ≤ code) && decide (code ≤ 0xDFFF)

def joinSurrogates (high low : Nat) : Nat := 0x10000 + (high - 0xD800) * 0x400 + (low - 0xDC00)

/-- The characters of a sequence of codes, unless a surrogate stands alone in it. -/
def charsOfCodes : List Nat → Option (List Char)
  | [] => some []
  | code :: rest =>
    if isHighSurrogate code then
      match rest with
      | low :: rest =>
        if isLowSurrogate low then
          (charsOfCodes rest).map (Char.ofNat (joinSurrogates code low) :: ·)
        else none
      | [] => none
    else if isLowSurrogate code then none
    else (charsOfCodes rest).map (Char.ofNat code :: ·)

def hexDigit? (c : Char) : Option Nat :=
  if Decimal.isDigit c then some (c.toNat - '0'.toNat)
  else if decide ('a' ≤ c) && decide (c ≤ 'f') then some (c.toNat - 'a'.toNat + 10)
  else if decide ('A' ≤ c) && decide (c ≤ 'F') then some (c.toNat - 'A'.toNat + 10)
  else none

def escaped? : Char → Option Nat
  | '"' => some 0x22
  | '\\' => some 0x5C
  | '/' => some 0x2F
  | 'b' => some 0x08
  | 'f' => some 0x0C
  | 'n' => some 0x0A
  | 'r' => some 0x0D
  | 't' => some 0x09
  | _ => none

/-- What the scanner is in the middle of. Characters and codes are kept latest first. -/
inductive Scanner
  | between
  | number (phase : NumberPhase) (read : List Char)
  | name (read : List Char)
  | string (codes : List Nat)
  | escape (codes : List Nat)
  | hex (codes : List Nat) (count code : Nat)

namespace Scanner

def isSpace (c : Char) : Bool := c = ' ' || c = '\t' || c = '\n' || c = '\r'

def isLetter (c : Char) : Bool := decide ('a' ≤ c) && decide (c ≤ 'z')

def open? (c : Char) : Option (List Token × Scanner) :=
  if isSpace c then some ([], .between)
  else if c = '[' then some ([.openArray], .between)
  else if c = ']' then some ([.closeArray], .between)
  else if c = '\x7b' then some ([.openObject], .between)
  else if c = '\x7d' then some ([.closeObject], .between)
  else if c = ',' then some ([.comma], .between)
  else if c = ':' then some ([.colon], .between)
  else if c = '"' then some ([], .string [])
  else if c = '-' then some ([], .number .sign [c])
  else if c = '0' then some ([], .number .zero [c])
  else if Decimal.isDigit c then some ([], .number .whole [c])
  else if isLetter c then some ([], .name [c])
  else none

def nameToken? (read : List Char) : Option Token :=
  match String.ofList read.reverse with
  | "null" => some .null
  | "true" => some (.bool true)
  | "false" => some (.bool false)
  | _ => none

/-- The token that ends here, when one does. -/
def close? : Scanner → Option (List Token)
  | .between => some []
  | .number phase read => if phase.isEnd then some [.number (String.ofList read.reverse)] else none
  | .name read => (nameToken? read).map ([·])
  | _ => none

/-- Takes a character that ends what the scanner is in the middle of. -/
def reopen? (scanner : Scanner) (c : Char) : Option (List Token × Scanner) := do
  let ended ← scanner.close?
  let (tokens, next) ← open? c
  return (ended ++ tokens, next)

def feed? (scanner : Scanner) (c : Char) : Option (List Token × Scanner) :=
  match scanner with
  | .between => open? c
  | .number phase read =>
    match phase.next c with
    | some next => some ([], .number next (c :: read))
    | none => scanner.reopen? c
  | .name read => if isLetter c then some ([], .name (c :: read)) else scanner.reopen? c
  | .string codes =>
    if c = '"' then
      some ([.string ((charsOfCodes codes.reverse).map String.ofList)], .between)
    else if c = '\\' then some ([], .escape codes)
    else if c.toNat < 0x20 then none
    else some ([], .string (c.toNat :: codes))
  | .escape codes =>
    if c = 'u' then some ([], .hex codes 0 0)
    else (escaped? c).map fun code => ([], .string (code :: codes))
  | .hex codes count code =>
    (hexDigit? c).map fun digit =>
      let code := 16 * code + digit
      if count = 3 then ([], .string (code :: codes)) else ([], .hex codes (count + 1) code)

/-- Takes all characters; `done` holds the tokens so far, latest first. -/
def scan (scanner : Scanner) (done : List Token) : List Char → Option (List Token)
  | [] => scanner.close?.map fun ended => done.reverse ++ ended
  | c :: rest =>
    match scanner.feed? c with
    | some (tokens, next) => scan next (tokens.reverseAux done) rest
    | none => none

end Scanner

def tokens? (text : String) : Option (List Token) := Scanner.scan .between [] text.toList

end Json

inductive Json
  | null
  | bool (b : Bool)
  | number (numeral : String)
  | string (text : Option String)
  | array (items : List Json)
  | object (members : List (Option String × Json))

namespace Json

/-- An array or object that is still open; what it holds so far is kept latest first. -/
inductive Open
  | array (items : List Json)
  | object (members : List (Option String × Json))
  | member (members : List (Option String × Json)) (key : Option String)

/-- What the parser can take next. -/
inductive Goal
  | value | valueOrClose | key | keyOrClose | colon | commaOrClose
  deriving DecidableEq

inductive Parser
  | reading (opened : List Open) (goal : Goal)
  | done (value : Json)

namespace Parser

/-- Puts a finished value where it belongs. -/
def finish (value : Json) : List Open → Option Parser
  | [] => some (.done value)
  | .array items :: opened => some (.reading (.array (value :: items) :: opened) .commaOrClose)
  | .member members key :: opened =>
    some (.reading (.object ((key, value) :: members) :: opened) .commaOrClose)
  | .object _ :: _ => none

def beginValue (opened : List Open) : Token → Option Parser
  | .null => finish .null opened
  | .bool b => finish (.bool b) opened
  | .number numeral => finish (.number numeral) opened
  | .string text => finish (.string text) opened
  | .openArray => some (.reading (.array [] :: opened) .valueOrClose)
  | .openObject => some (.reading (.object [] :: opened) .keyOrClose)
  | _ => none

def closeInnermost (opened : List Open) (token : Token) : Option Parser :=
  match opened, token with
  | .array items :: opened, .closeArray => finish (.array items.reverse) opened
  | .object members :: opened, .closeObject => finish (.object members.reverse) opened
  | _, _ => none

def beginMember (opened : List Open) (token : Token) : Option Parser :=
  match opened, token with
  | .object members :: opened, .string key => some (.reading (.member members key :: opened) .colon)
  | _, _ => none

def separate (opened : List Open) : Option Parser :=
  match opened with
  | .array _ :: _ => some (.reading opened .value)
  | .object _ :: _ => some (.reading opened .key)
  | _ => none

def feed? (parser : Parser) (token : Token) : Option Parser :=
  match parser with
  | .done _ => none
  | .reading opened goal =>
    match goal with
    | .value => beginValue opened token
    | .valueOrClose =>
      if token = .closeArray then closeInnermost opened token else beginValue opened token
    | .key => beginMember opened token
    | .keyOrClose =>
      if token = .closeObject then closeInnermost opened token else beginMember opened token
    | .colon => if token = .colon then some (.reading opened .value) else none
    | .commaOrClose => if token = .comma then separate opened else closeInnermost opened token

/-- Takes all tokens, and gives the value that they make up. -/
def parse (parser : Parser) : List Token → Option Json
  | [] =>
    match parser with
    | .done value => some value
    | .reading _ _ => none
  | token :: rest =>
    match parser.feed? token with
    | some next => parse next rest
    | none => none

end Parser

/-- The value that a text stands for. -/
def parse? (text : String) : Option Json :=
  (tokens? text).bind (Parser.parse (.reading [] .value))

def escapeChar (c : Char) : List Char :=
  if c = '"' then ['\\', '"']
  else if c = '\\' then ['\\', '\\']
  else if c = '\n' then ['\\', 'n']
  else if c = '\r' then ['\\', 'r']
  else if c = '\t' then ['\\', 't']
  else if c.toNat = 0x08 then ['\\', 'b']
  else if c.toNat = 0x0C then ['\\', 'f']
  else if c.toNat < 0x20 then
    ['\\', 'u', '0', '0', Nat.digitChar (c.toNat / 16), Nat.digitChar (c.toNat % 16)]
  else [c]

/-- A string token. What stands for no text is given by half a surrogate pair. -/
def renderString : Option String → List Char
  | some text => '"' :: (text.toList.flatMap escapeChar ++ ['"'])
  | none => ['"', '\\', 'u', 'd', '8', '0', '0', '"']

def renderBool (b : Bool) : List Char := (if b then "true" else "false").toList

def separated : List (List Char) → List Char
  | [] => []
  | [piece] => piece
  | piece :: pieces => piece ++ ',' :: separated pieces

mutual

def render : Json → List Char
  | .null => "null".toList
  | .bool b => renderBool b
  | .number numeral => numeral.toList
  | .string text => renderString text
  | .array items => '[' :: (separated (renderItems items) ++ [']'])
  | .object members => '\x7b' :: (separated (renderMembers members) ++ ['\x7d'])

def renderItems : List Json → List (List Char)
  | [] => []
  | item :: items => render item :: renderItems items

def renderMembers : List (Option String × Json) → List (List Char)
  | [] => []
  | (key, value) :: members =>
    (renderString key ++ ':' :: render value) :: renderMembers members

end

end Json
end ResumableForth
