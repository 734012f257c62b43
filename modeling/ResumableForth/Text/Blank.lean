/-! Blank characters, and the splitting of a text at them. A character is blank when it has the
Unicode property `White_Space`; a token is a maximal run of characters that are not blank, and
there is no quoting. -/
namespace ResumableForth
namespace Text

/-- The code points with the property `White_Space`, as closed ranges. -/
def blankRanges : List (Nat × Nat) :=
  [(0x0009,0x000D), (0x0020,0x0020), (0x0085,0x0085), (0x00A0,0x00A0), (0x1680,0x1680),
    (0x2000,0x200A), (0x2028,0x2029), (0x202F,0x202F), (0x205F,0x205F), (0x3000,0x3000)]

def inRanges (ranges : List (Nat × Nat)) (code : Nat) : Bool :=
  ranges.any fun range => decide (range.1 ≤ code) && decide (code ≤ range.2)

def isBlank (c : Char) : Bool := inRanges blankRanges c.toNat

def closeRun (run : List Char) : List String :=
  if run.isEmpty then [] else [String.ofList run.reverse]

/-- The tokens of a text of which `run` has just been read, latest character first. -/
def runs : List Char → List Char → List String
  | run, [] => closeRun run
  | run, c :: rest => if isBlank c then closeRun run ++ runs [] rest else runs (c :: run) rest

def tokens (source : String) : List String := runs [] source.toList

/-- A token is not empty and holds no blank. -/
def isToken (text : String) : Bool := !text.isEmpty && !text.toList.any isBlank

def trim (text : String) : String :=
  String.ofList ((text.toList.dropWhile isBlank).reverse.dropWhile isBlank).reverse

def spaced (texts : List String) : String := " ".intercalate texts

@[simp] theorem closeRun_nil : closeRun [] = [] := rfl

@[simp] theorem closeRun_cons (c : Char) (run : List Char) :
    closeRun (c :: run) = [String.ofList (c :: run).reverse] := rfl

@[simp] theorem runs_nil (run : List Char) : runs run [] = closeRun run := by
  cases run <;> rfl

theorem runs_cons (run : List Char) (c : Char) (rest : List Char) :
    runs run (c :: rest) =
      if isBlank c then closeRun run ++ runs [] rest else runs (c :: run) rest := by
  cases run <;> rfl

theorem tokens_ofList (chars : List Char) : tokens (String.ofList chars) = runs [] chars := by
  simp [tokens]

end Text
end ResumableForth
