import ResumableForth.Number.Decimal

/-! The arguments of the command line. Arguments are taken one at a time. Options may stand before or
behind the name of the command; what stands behind it wins, but neither place may hold an option
twice. An option's value follows it as the next argument, which must not look like an option, or
behind an equals sign. -/
namespace ResumableForth
namespace CommandLine

inductive Command
  | repl
  | run (script : String)
  | init
  | step (line : Option String)
  | words
  deriving DecidableEq

structure Request where
  command : Command
  skipPrelude : Bool := false
  prelude : Option String := none
  depthBound : Option Nat := none
  deriving DecidableEq

inductive Stop
  | help | version | badUsage
  deriving DecidableEq

inductive CommandName
  | repl | run | init | step | words
  deriving DecidableEq

def CommandName.ofName? : String → Option CommandName
  | "repl" => some .repl
  | "run" => some .run
  | "init" => some .init
  | "step" => some .step
  | "words" => some .words
  | _ => none

inductive ValueOption
  | prelude | depthBound | line
  deriving DecidableEq

/-- What has been given in one place: before the name of the command, or behind it. -/
structure Given where
  skipPrelude : Bool := false
  prelude : Option String := none
  depthBound : Option Nat := none
  line : Option String := none
  script : Option String := none

structure Arguments where
  command : Option CommandName := none
  before : Given := {}
  given : Given := {}
  /-- The option whose value is the next argument. -/
  awaiting : Option ValueOption := none
  trailing : Bool := false

namespace Given

def setValue (given : Given) (option : ValueOption) (text : String) : Except Stop Given :=
  match option with
  | .prelude =>
    if given.prelude.isSome || text.isEmpty then .error .badUsage
    else .ok { given with prelude := some text }
  | .depthBound =>
    match given.depthBound, Decimal.readCount? text with
    | none, some bound => .ok { given with depthBound := some bound }
    | _, _ => .error .badUsage
  | .line =>
    if given.line.isSome then .error .badUsage else .ok { given with line := some text }

end Given

namespace Arguments

/-- Options begin with a dash that does not stand alone. -/
def looksLikeOption (argument : String) : Bool :=
  match argument.toList with
  | '-' :: _ :: _ => true
  | _ => false

/-- The name and the value around the first equals sign. -/
def splitValue (text : List Char) : String × Option String :=
  let name := String.ofList (text.takeWhile (· ≠ '='))
  match text.dropWhile (· ≠ '=') with
  | _ :: value => (name, some (String.ofList value))
  | [] => (name, none)

def valueOption? (arguments : Arguments) : String → Option ValueOption
  | "prelude" => some .prelude
  | "max-call-depth" => some .depthBound
  | "line" => if arguments.command = some .step then some .line else none
  | _ => none

def setValue (arguments : Arguments) (option : ValueOption) (text : String) :
    Except Stop Arguments :=
  (arguments.given.setValue option text).map fun given =>
    { arguments with given := given, awaiting := none }

def takeFlag (arguments : Arguments) (name : String) : Except Stop Arguments :=
  match name with
  | "no-prelude" =>
    if arguments.given.skipPrelude then .error .badUsage
    else .ok { arguments with given := { arguments.given with skipPrelude := true } }
  | "help" => .error .help
  | "version" => if arguments.command.isNone then .error .version else .error .badUsage
  | _ => .error .badUsage

def takeLong (arguments : Arguments) (text : List Char) : Except Stop Arguments :=
  let (name, value) := splitValue text
  match arguments.valueOption? name, value with
  | some option, some value => arguments.setValue option value
  | some option, none => .ok { arguments with awaiting := some option }
  | none, none => arguments.takeFlag name
  | none, some _ => .error .badUsage

def takeShort (arguments : Arguments) (letter : Char) : Except Stop Arguments :=
  if letter = 'h' then arguments.takeFlag "help"
  else if letter = 'V' then arguments.takeFlag "version"
  else .error .badUsage

/-- Takes an argument that is no option: the script of the command that has one. -/
def takePositional (arguments : Arguments) (argument : String) : Except Stop Arguments :=
  if arguments.command = some .run && arguments.given.script.isNone && !argument.isEmpty then
    .ok { arguments with given := { arguments.given with script := some argument } }
  else .error .badUsage

/-- Takes an argument that is neither a value nor behind a double dash. -/
def takeFree (arguments : Arguments) (argument : String) : Except Stop Arguments :=
  match arguments.command, CommandName.ofName? argument with
  | none, some name =>
    .ok { arguments with command := some name, before := arguments.given, given := {} }
  | _, _ =>
    if arguments.command.isNone && argument = "help" then .error .help
    else
      match argument.toList with
      | ['-', '-'] => .ok { arguments with trailing := true }
      | '-' :: '-' :: text => arguments.takeLong text
      | '-' :: letter :: _ => arguments.takeShort letter
      | _ => arguments.takePositional argument

def take (arguments : Arguments) (argument : String) : Except Stop Arguments :=
  match arguments.awaiting with
  | some option =>
    if looksLikeOption argument then .error .badUsage else arguments.setValue option argument
  | none =>
    if arguments.trailing then arguments.takePositional argument else arguments.takeFree argument

/-- The command, when all that it needs has been given. -/
def command? (arguments : Arguments) : Option Command :=
  match arguments.command with
  | none => some .repl
  | some .repl => some .repl
  | some .run => arguments.given.script.map .run
  | some .init => some .init
  | some .step => some (.step arguments.given.line)
  | some .words => some .words

def finish (arguments : Arguments) : Except Stop Request :=
  match arguments.awaiting, arguments.command? with
  | none, some command => .ok {
      command := command
      skipPrelude := arguments.before.skipPrelude || arguments.given.skipPrelude
      prelude := arguments.given.prelude.or arguments.before.prelude
      depthBound := arguments.given.depthBound.or arguments.before.depthBound }
  | _, _ => .error .badUsage

end Arguments

def request (arguments : List String) : Except Stop Request := do
  let taken ← arguments.foldlM Arguments.take {}
  taken.finish

end CommandLine
end ResumableForth
