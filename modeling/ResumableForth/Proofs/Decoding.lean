import ResumableForth.Proofs.RoundTrip

/-! What reading a persisted form can give. A text is accepted in many spellings: with its fields in any
order or in arrays, with blanks and escapes, with signs and exponents in its numbers. Whatever the
spelling, the machine that comes back is one that has a persisted form itself, and it is given back by that
form: reading a text and writing it again leads to a normal form in one go. -/
namespace ResumableForth

namespace Value

theorem tag_of_ofCanonical? {tag : Tag} {text : String} {value : Value}
    (h : ofCanonical? tag text = some value) : value.tag = tag := by
  cases tag with
  | null =>
    rw [ofCanonical?] at h
    split at h <;> cases h
    rfl
  | int =>
    obtain ⟨n, -, rfl⟩ := Option.map_eq_some_iff.mp h
    rfl
  | float =>
    obtain ⟨x, -, rfl⟩ := Option.map_eq_some_iff.mp h
    rfl
  | bool =>
    obtain ⟨b, -, rfl⟩ := Option.map_eq_some_iff.mp h
    rfl
  | str =>
    cases h
    rfl
  | word =>
    rw [ofCanonical?] at h
    split at h <;> cases h
    rfl

theorem wellFormed_of_ofCanonical? {tag : Tag} {text : String} {value : Value}
    (h : ofCanonical? tag text = some value) : value.WellFormed := by
  cases tag with
  | null =>
    rw [ofCanonical?] at h
    split at h <;> cases h
    trivial
  | int =>
    obtain ⟨n, -, rfl⟩ := Option.map_eq_some_iff.mp h
    trivial
  | float =>
    obtain ⟨x, read, rfl⟩ := Option.map_eq_some_iff.mp h
    exact wellFormed_ofFloat (Option.filter_eq_some_iff.mp read).2
  | bool =>
    obtain ⟨b, -, rfl⟩ := Option.map_eq_some_iff.mp h
    trivial
  | str =>
    cases h
    trivial
  | word =>
    rw [ofCanonical?] at h
    split at h
    · rename_i token
      cases h
      exact token
    · cases h

end Value

def StackEntry.value? (entry : StackEntry) : Option Value := Value.ofCanonical? entry.tag entry.text

namespace Snapshot

variable {ν : Type}

/-- What is read onto a stack are the values of the entries, and none of them is null. -/
theorem exists_of_readStack {entries : List StackEntry} {index : Nat} {stack result : List Value}
    (h : readStack index stack entries = .ok result) :
    ∃ values : List Value, result = values.reverse ++ stack ∧ entries.map StackEntry.value? = values.map some ∧
      ∀ value ∈ values, value.WellFormed ∧ value ≠ .null := by
  induction entries generalizing index stack with
  | nil =>
    cases h
    exact ⟨[], rfl, rfl, by simp⟩
  | cons entry entries ih =>
    rw [readStack] at h
    split at h
    · cases h
    · rename_i notNull
      split at h
      · rename_i value read
        obtain ⟨values, rfl, others, good⟩ := ih h
        refine ⟨value :: values, ?_, ?_, List.forall_mem_cons.mpr ⟨⟨?_, ?_⟩, good⟩⟩
        · rw [List.reverse_cons, List.append_assoc, List.singleton_append]
        · rw [List.map_cons, List.map_cons, others, StackEntry.value?, read]
        · exact Value.wellFormed_of_ofCanonical? read
        · intro null
          rw [← Value.tag_of_ofCanonical? read, null] at notNull
          exact notNull rfl
      · cases h

theorem nodup_of_readWords {entries : List WordEntry} {lexicon user : Lexicon ν}
    (distinct : lexicon.names.Nodup) (h : readWords lexicon entries = .ok user) :
    (lexicon.names ++ entries.map WordEntry.name).Nodup := by
  induction entries generalizing lexicon with
  | nil => simpa using distinct
  | cons entry entries ih =>
    rw [readWords] at h
    split at h
    · cases h
    · split at h
      · cases h
      · rename_i new
        have fresh : entry.name ∉ lexicon.names := by
          rw [← Lexicon.contains_iff]
          exact new
        have later := ih (Lexicon.nodup_names_insert distinct entry.name _) h
        rw [Lexicon.names_insert, if_neg fresh, List.append_assoc, List.singleton_append] at later
        exact later

theorem names_ofWords (entries : List WordEntry) :
    (⟨wordsOf entries⟩ : Lexicon ν).names = entries.map WordEntry.name := by
  rw [Lexicon.names, wordsOf, List.map_map]
  rfl

/-- Words are read in order, with their flags and token lists. -/
theorem eq_wordsOf_of_readWords {entries : List WordEntry} {user : Lexicon ν}
    (h : readWords .empty entries = .ok user) : user = ⟨wordsOf entries⟩ := by
  have empty : (.empty : Lexicon ν).names.Nodup := List.nodup_nil
  have again := readWords_eq (isToken_of_readWords h) (nodup_of_readWords empty h)
  rw [h] at again
  exact Except.ok.inj again

theorem nodup_names_of_readWords {entries : List WordEntry} {user : Lexicon ν}
    (h : readWords .empty entries = .ok user) : user.names.Nodup := by
  have empty : (.empty : Lexicon ν).names.Nodup := List.nodup_nil
  rw [eq_wordsOf_of_readWords h, names_ofWords]
  exact nodup_of_readWords empty h

theorem entryOf_wordsOf (entries : List WordEntry) :
    (wordsOf entries : List (String × Word ν)).map entryOf = entries := by
  rw [wordsOf, List.map_map]
  exact List.map_id entries

theorem decode?_ofList (chars : List Char) : decode? (String.ofList chars) =
    ((Json.Scanner.scan .between [] chars).bind
      (Json.Parser.parse (.reading [] .value))).bind ofJson? := by
  rw [decode?, Json.parse?, Json.tokens?, String.toList_ofList]

/-- A machine holds what a snapshot says: the values that the entries stand for, bottom first, and the
words in order, with their flags and token lists. -/
structure Denotes (snapshot : Snapshot) (m : Machine ν) : Prop where
  stack : snapshot.stack.map StackEntry.value? = m.stack.reverse.map some
  words : m.dictionary.definitions =
    snapshot.words.map fun word => (word.name, word.immediate, some word.tokens)
  input : m.input = snapshot.input
  cursor : m.cursor = snapshot.cursor
  mode : m.mode = snapshot.mode
  openWord : m.openWord = snapshot.openWord
  output : m.output = snapshot.output

section Restored

variable {host : Host ν} {snapshot : Snapshot} {m : Machine ν}

theorem denotes_of_restore (h : snapshot.restore host = .ok m) : snapshot.Denotes m := by
  obtain ⟨stack, user, values, words, -, -, rfl⟩ := exists_of_restore h
  obtain ⟨read, rfl, entries, -⟩ := exists_of_readStack values
  obtain rfl := eq_wordsOf_of_readWords words
  refine ⟨?_, ?_, rfl, rfl, rfl, rfl, rfl⟩
  · rw [assemble, List.append_nil, List.reverse_reverse]
    exact entries
  · simp only [Dictionary.definitions, assemble, wordsOf, List.map_map]
    rfl

theorem persistable_of_restore (h : snapshot.restore host = .ok m)
    (counted : snapshot.cursor < 2 ^ 64) : m.Persistable := by
  obtain ⟨stack, user, values, words, inside, opened, rfl⟩ := exists_of_restore h
  obtain ⟨read, rfl, -, good⟩ := exists_of_readStack values
  have distinct := nodup_names_of_readWords words
  obtain rfl := eq_wordsOf_of_readWords words
  refine ⟨rfl, ?_, ?_, distinct, inside, counted, ?_⟩
  · intro value mem
    rw [assemble, List.append_nil, List.mem_reverse] at mem
    exact (good value mem).1
  · intro entry mem
    obtain ⟨word, -, rfl⟩ := List.mem_map.mp mem
    rfl
  · intro name current
    rw [show snapshot.openWord = some name from current] at opened
    exact mem_names_of_checkOpen opened

theorem acceptable_of_restored (h : snapshot.restore host = .ok m) : m.Acceptable := by
  obtain ⟨stack, user, values, words, -, opened, rfl⟩ := exists_of_restore h
  obtain ⟨read, rfl, -, good⟩ := exists_of_readStack values
  have named := isToken_of_readWords words
  obtain rfl := eq_wordsOf_of_readWords words
  refine ⟨?_, ?_, openWord_ne_none_of_checkOpen opened⟩
  · intro mem
    rw [assemble, List.append_nil, List.mem_reverse] at mem
    exact (good .null mem).2 rfl
  · intro name mem
    rw [assemble, names_ofWords] at mem
    obtain ⟨entry, written, rfl⟩ := List.mem_map.mp mem
    exact named entry written

/-- A machine that comes out of a snapshot comes out of its own snapshot. -/
theorem resumed_of_restore (h : snapshot.restore host = .ok m) : m.resumed host = m := by
  obtain ⟨stack, user, -, words, -, -, rfl⟩ := exists_of_restore h
  obtain rfl := eq_wordsOf_of_readWords words
  have entries : (snapshot.assemble host stack ⟨wordsOf snapshot.words⟩).snapshot.words =
      snapshot.words := entryOf_wordsOf snapshot.words
  rw [Machine.resumed, entries]
  rfl

end Restored
end Snapshot

namespace Machine

variable {ν : Type}

def normalize (host : Host ν) (source : String) : Except Fault String :=
  (deserialize host source).bind serialize

/-- Whatever text is accepted, the machine that it gives is well formed, holds what the text says and runs
no word. It can be persisted again, its form gives the very same machine back, and that form is written
as it was read. -/
theorem normalized_of_deserialize {host : Host ν} {source : String} {m : Machine ν}
    (read : deserialize host source = .ok m) :
    (∃ snapshot, Snapshot.decode? source = some snapshot ∧
        (∀ other : Snapshot, other.SaidBy source ↔ other = snapshot) ∧ snapshot.Denotes m) ∧
      m.Persistable ∧ m.Acceptable ∧ m.calls = [] ∧
      ∃ form, m.serialize = .ok form ∧ deserialize host form = .ok m ∧
        normalize host source = .ok form ∧ normalize host form = .ok form := by
  cases decoded : Snapshot.decode? source with
  | none =>
    rw [deserialize, decoded] at read
    cases read
  | some snapshot =>
    have restored : snapshot.restore host = .ok m := by
      rw [deserialize, decoded] at read
      exact read
    have said : snapshot.SaidBy source := (Snapshot.decode?_eq_some_iff source snapshot).mp decoded
    have only (other : Snapshot) : other.SaidBy source ↔ other = snapshot :=
      ⟨said.unique, fun same => same ▸ said⟩
    have persistable := Snapshot.persistable_of_restore restored (Snapshot.counted_of_saidBy said)
    have acceptable := Snapshot.acceptable_of_restored restored
    have written := serialize_eq persistable
    have again : deserialize host m.snapshot.encode = .ok m := by
      rw [deserialize_encode host persistable, restore_snapshot host persistable acceptable,
        Snapshot.resumed_of_restore restored]
    refine ⟨⟨snapshot, rfl, only, Snapshot.denotes_of_restore restored⟩, persistable, acceptable, ?_, ?_⟩
    · rw [calls, persistable.idle, List.map_nil]
    · refine ⟨m.snapshot.encode, written, again, ?_, ?_⟩
      · rw [normalize, read]
        exact written
      · rw [normalize, again]
        exact written

/-- A text with its fields out of order and in arrays, with blanks and escapes, and with numbers in other
spellings than their own. -/
def looseForm : String :=
  " \x7b \"Mode\" : \"Execute\", \"Input\" : [\"\\u0041\", \"B\"], \"InputIndex\" : 1,
    \"WordDict\" : [[\"B\", true, [\"A\"]],
    \x7b\"WordText\" : [], \"IsImmediate\" : false, \"WordName\" : \"A\"\x7d],
    \"DataStack\" : [[\"Int\", \"+5\"], \x7b\"value\" : \"1.23456\", \"type\" : \"Float\"\x7d,
    [\"Float\", \"1e3\"], [\x7b\"Word\" : null\x7d, \"A\\/B\"]] \x7d"

def looseSnapshot : Snapshot where
  stack := [⟨.int, "+5"⟩, ⟨.float, "1.23456"⟩, ⟨.float, "1e3"⟩, ⟨.word, "A/B"⟩]
  words := [⟨"B", true, ["A"]⟩, ⟨"A", false, []⟩]
  input := ["A", "B"]
  cursor := 1
  mode := .execute
  openWord := none
  output := ""

-- The literal is taken apart into its characters by unification, so that they can be scanned.
set_option maxRecDepth 4000 in
theorem decode?_looseForm : Snapshot.decode? looseForm = some looseSnapshot := by
  refine (Snapshot.decode?_ofList _).trans ?_
  decide +kernel

theorem normalized_of_deserialize_loose :
    ∃ m form, deserialize { natives := Primitive.lexicon } looseForm = .ok m ∧
      m.stack.map Value.canonical = ["A/B", "1000.0000", "1.2346", "5"] ∧ m.Persistable ∧
      m.serialize = .ok form ∧ deserialize { natives := Primitive.lexicon } form = .ok m := by
  have texts : (looseSnapshot.restore { natives := Primitive.lexicon }).toOption.map
      (fun m => m.stack.map Value.canonical) = some ["A/B", "1000.0000", "1.2346", "5"] := by
    decide +kernel
  cases restored : looseSnapshot.restore { natives := Primitive.lexicon } with
  | error fault =>
    rw [restored] at texts
    cases texts
  | ok m =>
    rw [restored] at texts
    have read : deserialize { natives := Primitive.lexicon } looseForm = .ok m := by
      rw [deserialize, decode?_looseForm]
      exact restored
    obtain ⟨-, persistable, -, -, form, written, again, -⟩ := normalized_of_deserialize read
    exact ⟨m, form, read, Option.some.inj texts, persistable, written, again⟩

end Machine
end ResumableForth
