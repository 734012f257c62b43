import ResumableForth.Number.Decimal
import ResumableForth.Text.Blank

/-! Settings that shape a machine from outside: the bound on nested words, and the directory in which
the bootstrap library is looked for. -/
namespace ResumableForth

structure Config where
  depthBound : Nat := 128
  libraryPath : Option String := none
  deriving DecidableEq

namespace Config

def depthVariable : String := "STEPFORTH_MAX_CALL_DEPTH"

def libraryVariable : String := "STEPFORTH_LIB_PATH"

def preludeName : String := "prelude.f"

/-- A bound of zero would let no word run, and counts as one. -/
def withDepthBound (config : Config) (bound : Nat) : Config :=
  { config with depthBound := max bound 1 }

def withLibraryPath (config : Config) (path : String) : Config :=
  { config with libraryPath := some path }

/-- The bound that a variable's text gives: a count that is not zero, with blanks around it. -/
def readBound? (text : String) : Option Nat :=
  (Decimal.readCount? (Text.trim text)).filter fun bound => decide (0 < bound)

def ignoredBound? (lookup : String → Option String) : Option String :=
  (lookup depthVariable).filter fun text => (readBound? text).isNone

/-- The settings of an environment. Without a directory there, the program's own is taken. -/
def ofEnvironment (lookup : String → Option String) (programDirectory : Option String) : Config :=
  { depthBound := ((lookup depthVariable).bind readBound?).getD 128
    libraryPath := (lookup libraryVariable).or programDirectory }

def ignoredBoundLine (text : String) : String :=
  "WARN ignoring invalid " ++ depthVariable ++ " value=" ++ text

def joinPath (directory name : String) : String :=
  if directory.isEmpty || directory.toList.getLast? = some '/' then directory ++ name
  else directory ++ "/" ++ name

/-- Where the bootstrap library is looked for. -/
def preludePath (config : Config) : Option String :=
  config.libraryPath.map fun directory => joinPath directory preludeName

end Config
end ResumableForth
