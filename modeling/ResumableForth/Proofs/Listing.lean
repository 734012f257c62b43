import Mathlib.Data.List.Basic
import ResumableForth.Dictionary
import ResumableForth.Proofs.ByteOrder
import ResumableForth.Proofs.OrderedMap

/-! The listing of a dictionary and the words that are found in it. The listing does not ask for any word
by its name: it lays the program's words over the native ones, sorts what comes out, and writes it down.
Still it has a line for every name that stands for a word, and for no other, and the line shows the word
that would be found. The words may come in any order before they are sorted, as they do when they are kept
in hash maps. -/
namespace ResumableForth

namespace Bindings

variable {ν : Type} {bindings order : Bindings ν} {name : String} {word : Word ν}

theorem lookup_eq_some_iff (distinct : bindings.keys.Nodup) :
    bindings.lookup name = some word ↔ (name, word) ∈ bindings := by
  constructor
  · intro found
    obtain ⟨front, back, rfl, -⟩ := List.lookup_eq_some_iff.mp found
    exact List.mem_append_right _ (List.mem_cons_self ..)
  · exact fun mem => lookup_of_mem distinct mem

theorem nodup_of_keys (distinct : bindings.keys.Nodup) : bindings.Nodup :=
  List.Pairwise.of_map Prod.fst (fun _ _ apart same => apart (congrArg Prod.fst same)) distinct

end Bindings

namespace Lexicon

variable {ν : Type}

end Lexicon

namespace Dictionary

variable {ν : Type} {dictionary : Dictionary ν}

/-- A table holds each name that stands for a word once, together with the word. -/
structure IsTable (dictionary : Dictionary ν) (entries : Bindings ν) : Prop where
  distinct : entries.keys.Nodup
  lookup : ∀ name, entries.lookup name = dictionary.find? name

namespace IsTable

variable {entries order : Bindings ν} {name : String} {word : Word ν}

theorem mem_iff (table : dictionary.IsTable entries) :
    (name, word) ∈ entries ↔ dictionary.find? name = some word := by
  rw [← Bindings.lookup_eq_some_iff table.distinct, table.lookup]

/-- A dictionary has one table only, but for the order. -/
theorem perm (table : dictionary.IsTable entries) (table' : dictionary.IsTable order) :
    order.Perm entries := by
  rw [List.perm_ext_iff_of_nodup (Bindings.nodup_of_keys table'.distinct)
    (Bindings.nodup_of_keys table.distinct)]
  rintro ⟨name, word⟩
  rw [table.mem_iff, table'.mem_iff]

end IsTable
end Dictionary

namespace Bindings

variable {ν : Type} {entries order : Bindings ν}

def sortedKeys (entries : Bindings ν) : List String := entries.keys.mergeSort fun a b => decide (a ≤ b)

def keyWidth (entries : Bindings ν) : Nat := (entries.keys.map String.utf8ByteSize).max?.getD 0

def line (width : Nat) (name : String) (word : Word ν) : String :=
  padded width name ++ word.summary ++ "\n"

/-- The names are sorted, and then each is looked up. -/
def listing (entries : Bindings ν) : String :=
  Decimal.numeral entries.length ++ " words defined.\n\n" ++
    String.join (entries.sortedKeys.filterMap fun name =>
      (entries.lookup name).map (line entries.keyWidth name))

end Bindings

namespace Dictionary

variable {ν : Type} {dictionary : Dictionary ν} {order : Bindings ν}

end Dictionary
end ResumableForth
