import Std.Data.HashMap
import ResumableForth.Proofs.Lexicon

/-! Words that are found by an index. The program's words stand in an array in the order of their first
definition, and a hash map leads from a name to the place of its word, so that nothing is searched. The
index is part of a lexicon together with the fact that it points at the right places. Without the index
the words make up a lexicon that is searched, and every operation gives the same with the index and
without. -/
namespace ResumableForth

structure IndexedLexicon (ν : Type) where
  entries : Array (String × Word ν)
  index : Std.HashMap String Nat
  /-- The index leads to a place exactly when that place holds the name. -/
  faithful : ∀ (name : String) (i : Nat), index[name]? = some i ↔ entries[i]?.map Prod.fst = some name

/-- A dictionary whose own words are found by an index. -/
structure IndexedDictionary (ν : Type) where
  natives : Lexicon ν
  user : IndexedLexicon ν

namespace IndexedLexicon

variable {ν : Type}

theorem faithful_empty (name : String) (i : Nat) :
    (∅ : Std.HashMap String Nat)[name]? = some i ↔
      (#[] : Array (String × Word ν))[i]?.map Prod.fst = some name := by
  simp

/-- A word that takes the place of another under the same name leaves the index as it is. -/
theorem faithful_replace (lexicon : IndexedLexicon ν) {name : String} {i : Nat}
    (found : lexicon.index[name]? = some i) (word : Word ν) (other : String) (j : Nat) :
    lexicon.index[other]? = some j ↔
      (lexicon.entries.setIfInBounds i (name, word))[j]?.map Prod.fst = some other := by
  have there : lexicon.entries[i]?.map Prod.fst = some name := (lexicon.faithful name i).mp found
  rw [lexicon.faithful, Array.getElem?_setIfInBounds]
  by_cases same : i = j
  · subst same
    obtain ⟨entry, here, -⟩ := Option.map_eq_some_iff.mp there
    obtain ⟨inside, -⟩ := Array.getElem?_eq_some_iff.mp here
    rw [there, if_pos rfl, if_pos inside, Option.map_some]
  · rw [if_neg same]

/-- A new name is indexed by the place behind all others. -/
theorem faithful_push (lexicon : IndexedLexicon ν) {name : String}
    (fresh : lexicon.index[name]? = none) (word : Word ν) (other : String) (j : Nat) :
    (lexicon.index.insert name lexicon.entries.size)[other]? = some j ↔
      (lexicon.entries.push (name, word))[j]?.map Prod.fst = some other := by
  rw [Std.HashMap.getElem?_insert, Array.getElem?_push]
  by_cases last : j = lexicon.entries.size
  · subst last
    by_cases same : name = other
    · simp [same]
    · have outside : lexicon.index[other]? ≠ some lexicon.entries.size := by
        rw [Ne, lexicon.faithful]
        simp
      simp [same, outside]
  · rw [if_neg last, ← lexicon.faithful]
    by_cases same : name = other
    · subst same
      simp [fresh, Ne.symm last]
    · simp [same]

def empty : IndexedLexicon ν := ⟨#[], ∅, faithful_empty⟩

def replace (lexicon : IndexedLexicon ν) {name : String} {i : Nat}
    (found : lexicon.index[name]? = some i) (word : Word ν) : IndexedLexicon ν :=
  ⟨lexicon.entries.setIfInBounds i (name, word), lexicon.index, lexicon.faithful_replace found word⟩

def push (lexicon : IndexedLexicon ν) {name : String} (fresh : lexicon.index[name]? = none)
    (word : Word ν) : IndexedLexicon ν :=
  ⟨lexicon.entries.push (name, word), lexicon.index.insert name lexicon.entries.size,
    lexicon.faithful_push fresh word⟩

def insert (lexicon : IndexedLexicon ν) (name : String) (word : Word ν) : IndexedLexicon ν :=
  match place : lexicon.index[name]? with
  | some _ => lexicon.replace place word
  | none => lexicon.push place word

def contains (lexicon : IndexedLexicon ν) (name : String) : Bool := lexicon.index.contains name

section

variable (lexicon : IndexedLexicon ν) {name : String} {i : Nat}

/-- The same words without the index. -/
def plain : Lexicon ν := ⟨lexicon.entries.toList⟩

/-- The index leads where a search would. -/
theorem position?_plain (name : String) : lexicon.plain.position? name = lexicon.index[name]? := by
  have listed : ∀ i, lexicon.index[name]? = some i ↔
      lexicon.entries.toList[i]?.map Prod.fst = some name := by
    intro i
    rw [lexicon.faithful, Array.getElem?_toList]
  cases place : Lexicon.position name lexicon.entries.toList with
  | some i =>
    rw [(listed i).mpr (Lexicon.map_fst_getElem?_position place)]
    exact place
  | none =>
    have unknown := Lexicon.position_eq_none_iff.mp place
    cases found : lexicon.index[name]? with
    | none => exact place
    | some i =>
      obtain ⟨entry, there, rfl⟩ := Option.map_eq_some_iff.mp ((listed i).mp found)
      exact absurd (List.mem_map_of_mem (List.mem_of_getElem? there)) unknown

theorem plain_replace (found : lexicon.index[name]? = some i) (word : Word ν) :
    (lexicon.replace found word).plain = lexicon.plain.insert name word := by
  have place : Lexicon.position name lexicon.plain.entries = some i :=
    (lexicon.position?_plain name).trans found
  rw [Lexicon.insert_of_position place, plain, replace, Array.toList_setIfInBounds]
  rfl

theorem plain_push (fresh : lexicon.index[name]? = none) (word : Word ν) :
    (lexicon.push fresh word).plain = lexicon.plain.insert name word := by
  have unknown : name ∉ lexicon.plain.names :=
    Lexicon.position_eq_none_iff.mp ((lexicon.position?_plain name).trans fresh)
  rw [Lexicon.insert_of_not_mem unknown, plain, push, Array.toList_push]
  rfl

theorem plain_insert (name : String) (word : Word ν) :
    (lexicon.insert name word).plain = lexicon.plain.insert name word := by
  rw [insert]
  split
  · exact lexicon.plain_replace _ word
  · exact lexicon.plain_push _ word

end
end IndexedLexicon

namespace IndexedDictionary

variable {ν : Type}

def ofNatives (natives : Lexicon ν) : IndexedDictionary ν := ⟨natives, .empty⟩

def find? (dictionary : IndexedDictionary ν) (name : String) : Option (Word ν) :=
  match dictionary.user.index[name]? with
  | some i => dictionary.user.entries[i]?.map Prod.snd
  | none => dictionary.natives.find? name

def define (dictionary : IndexedDictionary ν) (name : String) (word : Word ν) : IndexedDictionary ν :=
  { dictionary with user := dictionary.user.insert name word }

def body? (dictionary : IndexedDictionary ν) (name : String) : Option (List String) :=
  match dictionary.user.index[name]? with
  | some i => dictionary.user.entries[i]?.bind fun entry => entry.2.tokens?
  | none => none

/-- Edits the token list of one of the program's own words, where it stands. -/
def editBody? (dictionary : IndexedDictionary ν) (name : String)
    (edit : List String → List String) : Option (IndexedDictionary ν) :=
  match place : dictionary.user.index[name]? with
  | some i =>
    dictionary.user.entries[i]?.bind fun entry =>
      entry.2.tokens?.map fun tokens =>
        { dictionary with
          user := dictionary.user.replace place { entry.2 with body := .compiled (edit tokens) } }
  | none => none

variable (dictionary : IndexedDictionary ν)

def plain : Dictionary ν := ⟨dictionary.natives, dictionary.user.plain⟩

theorem position?_plain (name : String) :
    dictionary.plain.user.position? name = dictionary.user.index[name]? :=
  dictionary.user.position?_plain name

theorem getElem?_plain (i : Nat) : dictionary.plain.user.entries[i]? = dictionary.user.entries[i]? :=
  Array.getElem?_toList

theorem contains_plain (name : String) :
    dictionary.plain.user.contains name = dictionary.user.contains name := by
  rw [Lexicon.contains, IndexedLexicon.contains, Std.HashMap.contains_eq_isSome_getElem?,
    position?_plain]

theorem find?_plain (name : String) : dictionary.plain.find? name = dictionary.find? name := by
  rw [Dictionary.find?, find?, position?_plain]
  cases dictionary.user.index[name]? with
  | none => rfl
  | some i => simp only [getElem?_plain]

theorem body?_plain (name : String) : dictionary.plain.body? name = dictionary.body? name := by
  rw [Dictionary.body?, body?, Lexicon.find?, position?_plain]
  cases dictionary.user.index[name]? with
  | none => rfl
  | some i =>
    rw [Option.bind_some, getElem?_plain]
    exact Option.bind_map ..

theorem plain_define (name : String) (word : Word ν) :
    (dictionary.define name word).plain = dictionary.plain.define name word :=
  congrArg (Dictionary.mk dictionary.natives) (dictionary.user.plain_insert name word)

theorem plain_editBody? (name : String) (change : List String → List String) :
    (dictionary.editBody? name change).map plain = dictionary.plain.editBody? name change := by
  rw [editBody?]
  split
  · next i place =>
    have found : dictionary.plain.user.find? name = dictionary.user.entries[i]?.map Prod.snd := by
      rw [Lexicon.find?, position?_plain, place, Option.bind_some, getElem?_plain]
    rw [Dictionary.editBody?, found]
    cases dictionary.user.entries[i]? with
    | none => rfl
    | some entry =>
      cases body : entry.2.tokens? with
      | none => simp [body]
      | some tokens =>
        simp only [Option.bind_some, Option.map_some, body]
        exact congrArg some (congrArg (Dictionary.mk dictionary.natives)
          (dictionary.user.plain_replace place _))
  · next place =>
    have missing : dictionary.plain.user.find? name = none := by
      rw [Lexicon.find?, position?_plain, place, Option.bind_none]
    rw [Dictionary.editBody?, missing]
    rfl

end IndexedDictionary
end ResumableForth
