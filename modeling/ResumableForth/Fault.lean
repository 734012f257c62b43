import ResumableForth.Value
import ResumableForth.Text.Quoted

/-! Why a program, a file or a persisted state is refused. A fault is a cause together with the
words that were running when it arose; the wording of all messages is here and nowhere else. -/
namespace ResumableForth

/-- The families of causes that a caller can tell apart. -/
inductive FaultKind
  | stackUnderflow | typeMismatch | unknownWord | assertionFailure | branchTarget
  | unterminatedComment | unterminatedBlock | callDepthExceeded | arithmetic | compileState
  | invalidMode | codec | inputOutput
  deriving DecidableEq

def FaultKind.title : FaultKind → String
  | .stackUnderflow => "Stack underflow"
  | .typeMismatch => "Type mismatch"
  | .unknownWord => "Unknown word"
  | .assertionFailure => "Assertion failure"
  | .branchTarget => "Branch target error"
  | .unterminatedComment => "Unterminated comment"
  | .unterminatedBlock => "Unterminated block"
  | .callDepthExceeded => "Call depth exceeded"
  | .arithmetic => "Arithmetic error"
  | .compileState => "Compile state error"
  | .invalidMode => "Invalid mode"
  | .codec => "Codec error"
  | .inputOutput => "I/O error"

inductive ReadFailure
  | missing | directory | notDirectory | notText
  | other (reason : String)
  deriving DecidableEq

def ReadFailure.message : ReadFailure → String
  | .missing => "No such file or directory (os error 2)"
  | .directory => "Is a directory (os error 21)"
  | .notDirectory => "Not a directory (os error 20)"
  | .notText => "stream did not contain valid UTF-8"
  | .other reason => reason

inductive Cause
  | emptyStack
  | expectedInt (found : Value)
  | expectedBool (found : Value)
  | pickBeyond (index depth : Nat)
  | pickNegative (index : Int64)
  | operandsDiffer (word : String) (first second : Tag)
  | notApplicable (word : String) (tag : Tag)
  | overflow (word : String)
  | notFinite (word : String)
  | incomparable (first second : Tag)
  | emptyRange (low high : Int64)
  | cursorOutside (index size : Nat)
  | targetMissing (word : String)
  | targetInvalid (word operand : String)
  | targetOutside (word : String) (target size : Nat)
  | commentOpen
  | assertion (found : Value) (input : List String)
  | nameMissing
  | definitionOpen (name current : String)
  | noDefinition
  | definitionLost (name : String)
  | slotNotInt (found : Value)
  | slotNegative (index : Int64)
  | slotOutside (index size : Nat)
  | blockOpen
  | blockWithoutDefinition
  | unknownWord (name : String)
  | nestedTooDeep (name : String) (bound : Nat)
  | readWhileHalted (token : String)
  | nativeUserWord (name : String)
  | malformedState
  | nullEntry (index : Nat)
  | unreadableEntry (index : Nat) (tag : Tag) (text : String)
  | invalidName (name : String)
  | duplicateWord (name : String)
  | indexPastEnd (index size : Nat)
  | openWordUnknown (name : String)
  | compilingNothing
  | unreadableFile (path : String) (failure : ReadFailure)
  | unreadableLine (failure : ReadFailure)
  | unreadableStream (failure : ReadFailure)
  deriving DecidableEq

namespace Cause

def kind : Cause → FaultKind
  | .emptyStack | .pickBeyond .. | .pickNegative _ => .stackUnderflow
  | .expectedInt _ | .expectedBool _ | .operandsDiffer .. | .notApplicable .. | .incomparable ..
  | .slotNotInt _ => .typeMismatch
  | .overflow _ | .notFinite _ | .emptyRange .. => .arithmetic
  | .cursorOutside .. | .targetMissing _ | .targetInvalid .. | .targetOutside .. => .branchTarget
  | .commentOpen => .unterminatedComment
  | .assertion .. => .assertionFailure
  | .nameMissing | .definitionOpen .. | .noDefinition | .definitionLost _ | .slotNegative _
  | .slotOutside .. | .blockWithoutDefinition => .compileState
  | .blockOpen => .unterminatedBlock
  | .unknownWord _ => .unknownWord
  | .nestedTooDeep .. => .callDepthExceeded
  | .readWhileHalted _ => .invalidMode
  | .nativeUserWord _ | .malformedState | .nullEntry _ | .unreadableEntry .. | .invalidName _
  | .duplicateWord _ | .indexPastEnd .. | .openWordUnknown _ | .compilingNothing => .codec
  | .unreadableFile .. | .unreadableLine _ | .unreadableStream _ => .inputOutput

def describe (value : Value) : String := value.tag.name ++ " " ++ value.canonical

def message : Cause → String
  | .emptyStack => "Stack underflow."
  | .expectedInt found => "Expected an Int, found " ++ describe found ++ "."
  | .expectedBool found => "Expected a Bool, found " ++ describe found ++ "."
  | .pickBeyond index depth =>
    "Can not pick item " ++ Decimal.numeral index ++ " from a stack of " ++ Decimal.numeral depth
      ++ "."
  | .pickNegative index =>
    "Can not pick a negative index " ++ Decimal.signedNumeral index.toInt ++ "."
  | .operandsDiffer word first second =>
    word ++ " expects matching operands, found " ++ first.name ++ " and " ++ second.name ++ "."
  | .notApplicable word tag => word ++ " can not be applied to " ++ tag.name ++ " values."
  | .overflow word => word ++ " overflowed or divided by zero."
  | .notFinite word => word ++ " produced a non-finite result."
  | .incomparable first second =>
    "Can not compare " ++ first.name ++ " with " ++ second.name ++ "."
  | .emptyRange low high =>
    "RAND range " ++ Decimal.signedNumeral low.toInt ++ " to " ++ Decimal.signedNumeral high.toInt
      ++ " is empty."
  | .cursorOutside index size =>
    "Index " ++ Decimal.numeral index ++ " is outside of an input of " ++ Decimal.numeral size
      ++ " tokens."
  | .targetMissing word => word ++ " is missing its target."
  | .targetInvalid word operand =>
    word ++ " target " ++ operand ++ " is not a valid index."
  | .targetOutside word target size =>
    word ++ " target " ++ Decimal.numeral target ++ " is outside of an input of "
      ++ Decimal.numeral size ++ " tokens."
  | .commentOpen => "Missing ) for ( in the current input."
  | .assertion found input =>
    "Assertion failed with " ++ describe found ++ " in: " ++ Text.spaced input
  | .nameMissing => "Expected the name of the new word after :."
  | .definitionOpen name current =>
    "Can not start defining " ++ name ++ " while " ++ current ++ " is still open."
  | .noDefinition => "No definition is open."
  | .definitionLost name => "The open definition " ++ name ++ " is not in the dictionary."
  | .slotNotInt found => "! expects an Int slot index, found " ++ describe found ++ "."
  | .slotNegative index =>
    "Slot " ++ Decimal.signedNumeral index.toInt ++ " is outside of the open definition."
  | .slotOutside index size =>
    "Slot " ++ Decimal.numeral index ++ " is outside of a definition of " ++ Decimal.numeral size
      ++ " tokens."
  | .blockOpen => "Missing ] for [ in the current input."
  | .blockWithoutDefinition => "[ needs an open definition to copy into."
  | .unknownWord name => "Word " ++ name ++ " not found."
  | .nestedTooDeep name bound =>
    "Calling " ++ name ++ " would nest deeper than " ++ Decimal.numeral bound ++ " words."
  | .readWhileHalted token => "Read " ++ token ++ " while halted."
  | .nativeUserWord name => "User word " ++ name ++ " is native."
  | .malformedState => "<json>"
  | .nullEntry index => "Stack entry " ++ Decimal.numeral index ++ " is Null."
  | .unreadableEntry index tag text =>
    "Stack entry " ++ Decimal.numeral index ++ " can not be read as " ++ tag.name ++ ": "
      ++ Text.quote text ++ "."
  | .invalidName name => "Invalid word name " ++ Text.quote name ++ "."
  | .duplicateWord name => "Word " ++ name ++ " is defined more than once."
  | .indexPastEnd index size =>
    "Input index " ++ Decimal.numeral index ++ " is past the end of an input of "
      ++ Decimal.numeral size ++ " tokens."
  | .openWordUnknown name => "The open definition " ++ name ++ " is not a persisted word."
  | .compilingNothing => "Compile mode needs an open definition."
  | .unreadableFile path failure => "Could not read file " ++ path ++ ": " ++ failure.message
  | .unreadableLine failure => "Line editor failed: " ++ failure.message
  | .unreadableStream failure => failure.message

end Cause

/-- A running word, and how far its body had been read. -/
structure CallItem where
  word : String
  index : Nat
  deriving DecidableEq

def CallItem.text (item : CallItem) : String := item.word ++ " @ " ++ Decimal.numeral item.index

/-- A cause, with the words that were running, innermost first. -/
structure Fault where
  cause : Cause
  calls : List CallItem := []
  deriving DecidableEq

namespace Fault

def kind (fault : Fault) : FaultKind := fault.cause.kind

def message (fault : Fault) : String := fault.cause.message

/-- The whole report: kind, message and, when words were running, the call stack. -/
def report (fault : Fault) : String :=
  fault.kind.title ++ ": " ++ fault.message ++
    if fault.calls.isEmpty then ""
    else "\n\nCall stack\n" ++ String.join (fault.calls.map fun item => "  " ++ item.text ++ "\n")

end Fault
end ResumableForth
