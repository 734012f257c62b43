import ResumableForth.Value

/-! The words that a program can name. A lexicon is an ordered list of named words, and a dictionary
lays the lexicon of words defined by the program over a fixed lexicon of native words: a program's
word hides a native word of the same name. What a native word does is not said here; `ν` is the type
of native operations. The listing of a dictionary shows how many names
it knows, then a line for each name in increasing order; the names stand in one column, as many
characters wide as the longest name is long in bytes. -/
namespace ResumableForth

/-- What runs when a word is called: a native operation, or a list of tokens. -/
inductive Body (ν : Type)
  | native (operation : ν)
  | compiled (tokens : List String)

structure Word (ν : Type) where
  body : Body ν
  /-- Does the word run even while a definition is being compiled? -/
  immediate : Bool
  description : String
  signature : String

/-- Named words in the order of their first definition. -/
structure Lexicon (ν : Type) where
  entries : List (String × Word ν)

structure Dictionary (ν : Type) where
  natives : Lexicon ν
  user : Lexicon ν

namespace Word

variable {ν : Type}

def compiled (immediate : Bool) (tokens : List String) : Word ν :=
  { body := .compiled tokens, immediate := immediate, description := "", signature := "" }

def native (immediate : Bool) (operation : ν) (description signature : String) : Word ν :=
  { body := .native operation, immediate := immediate, description := description,
    signature := signature }

def tokens? (word : Word ν) : Option (List String) :=
  match word.body with
  | .native _ => none
  | .compiled tokens => some tokens

end Word

namespace Lexicon

variable {ν : Type}

def empty : Lexicon ν := ⟨[]⟩

def names (lexicon : Lexicon ν) : List String := lexicon.entries.map Prod.fst

def position (name : String) : List (String × Word ν) → Option Nat
  | [] => none
  | entry :: entries => if entry.1 = name then some 0 else (position name entries).map (· + 1)

def position? (lexicon : Lexicon ν) (name : String) : Option Nat := position name lexicon.entries

def find? (lexicon : Lexicon ν) (name : String) : Option (Word ν) :=
  (lexicon.position? name).bind fun i => lexicon.entries[i]?.map Prod.snd

def contains (lexicon : Lexicon ν) (name : String) : Bool := (lexicon.position? name).isSome

/-- Binds a name. A name that is already bound keeps its place. -/
def insert (lexicon : Lexicon ν) (name : String) (word : Word ν) : Lexicon ν :=
  match lexicon.position? name with
  | some i => ⟨lexicon.entries.set i (name, word)⟩
  | none => ⟨lexicon.entries ++ [(name, word)]⟩

/-- The lexicon with the words of another laid over it. -/
def overlay (lexicon upper : Lexicon ν) : Lexicon ν :=
  upper.entries.foldl (fun merged entry => merged.insert entry.1 entry.2) lexicon

def ofList (entries : List (String × Word ν)) : Lexicon ν := overlay empty ⟨entries⟩

@[simp] theorem position_nil (name : String) :
    position name ([] : List (String × Word ν)) = none := rfl

theorem position_cons (name : String) (entry : String × Word ν) (entries : List (String × Word ν)) :
    position name (entry :: entries) =
      if entry.1 = name then some 0 else (position name entries).map (· + 1) := rfl

theorem position_eq_none_iff {name : String} {entries : List (String × Word ν)} :
    position name entries = none ↔ name ∉ entries.map Prod.fst := by
  induction entries with
  | nil => simp
  | cons entry entries ih =>
    by_cases h : entry.1 = name
    · simp [position_cons, h]
    · simp [position_cons, h, ih, Ne.symm h]

theorem map_fst_getElem?_position {name : String} {entries : List (String × Word ν)} {i : Nat}
    (h : position name entries = some i) : entries[i]?.map Prod.fst = some name := by
  induction entries generalizing i with
  | nil => simp at h
  | cons entry entries ih =>
    by_cases hn : entry.1 = name
    · simp [position_cons, hn] at h
      simp [← h, hn]
    · simp only [position_cons, hn, if_false, Option.map_eq_some_iff] at h
      obtain ⟨j, hj, rfl⟩ := h
      simpa using ih hj

theorem contains_iff (lexicon : Lexicon ν) (name : String) :
    lexicon.contains name = true ↔ name ∈ lexicon.names := by
  have h : position name lexicon.entries = none ↔ _ := position_eq_none_iff
  cases hp : position name lexicon.entries <;> simp_all [contains, position?, names]

@[simp] theorem find?_empty (name : String) : (empty : Lexicon ν).find? name = none := rfl

end Lexicon

namespace Dictionary

variable {ν : Type}

def ofNatives (natives : Lexicon ν) : Dictionary ν := ⟨natives, .empty⟩

/-- The word of a name, the program's own before a native one. -/
def find? (dictionary : Dictionary ν) (name : String) : Option (Word ν) :=
  match dictionary.user.position? name with
  | some i => dictionary.user.entries[i]?.map Prod.snd
  | none => dictionary.natives.find? name

def contains (dictionary : Dictionary ν) (name : String) : Bool := (dictionary.find? name).isSome

def define (dictionary : Dictionary ν) (name : String) (word : Word ν) : Dictionary ν :=
  { dictionary with user := dictionary.user.insert name word }

def body? (dictionary : Dictionary ν) (name : String) : Option (List String) :=
  (dictionary.user.find? name).bind Word.tokens?

/-- Edits the token list of one of the program's own words, where it stands. -/
def editBody? (dictionary : Dictionary ν) (name : String) (edit : List String → List String) :
    Option (Dictionary ν) :=
  match dictionary.user.find? name with
  | some word =>
    word.tokens?.map fun tokens =>
      dictionary.define name { word with body := .compiled (edit tokens) }
  | none => none

/-- What a token stands for: the word that it names, or else a literal. -/
def classify (dictionary : Dictionary ν) (token : String) : Value :=
  if dictionary.contains token then .word token else Value.literal token

end Dictionary

def padded (width : Nat) (text : String) : String :=
  text ++ String.ofList (List.replicate (width - text.length) ' ')

namespace Word

variable {ν : Type}

def summary (word : Word ν) : String :=
  (if word.immediate then "  immediate" else "           ") ++
    match word.body with
    | .native _ => "  --  " ++ word.description ++ "  ( " ++ word.signature ++ " )"
    | .compiled tokens => "  --  : " ++ Text.spaced tokens

end Word

namespace Dictionary

variable {ν : Type}

/-- All words, each name once and with the word that it is bound to. -/
def merged (dictionary : Dictionary ν) : Lexicon ν := dictionary.natives.overlay dictionary.user

def sorted (dictionary : Dictionary ν) : List (String × Word ν) :=
  dictionary.merged.entries.mergeSort fun a b => decide (a.1 ≤ b.1)

/-- The size of the longest name in bytes. -/
def nameWidth (dictionary : Dictionary ν) : Nat :=
  (dictionary.merged.names.map String.utf8ByteSize).foldl max 0

def listing (dictionary : Dictionary ν) : String :=
  let lines := dictionary.sorted.map fun entry =>
    padded dictionary.nameWidth entry.1 ++ entry.2.summary ++ "\n"
  Decimal.numeral lines.length ++ " words defined.\n\n" ++ String.join lines

end Dictionary
end ResumableForth
