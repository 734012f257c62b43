import ResumableForth.Primitive
import ResumableForth.Proofs.Lexicon
import ResumableForth.Proofs.Quantization
import ResumableForth.Proofs.SnapshotText
import ResumableForth.Trace

/-! Putting a machine away and taking it up again. Which machines have a persisted form, which of
these forms are accepted, and that a form which is accepted gives the same state back. -/
namespace ResumableForth

namespace Value

/-- Values that agree with their canonical text: a floating point value is finite and quantized, and
the name of a word is a token. -/
def WellFormed : Value → Prop
  | .float x => x.isFinite = true ∧ x.quantize = x
  | .word name => Text.isToken name = true
  | _ => True

theorem ofCanonical?_canonical {value : Value} (h : value.WellFormed) :
    ofCanonical? value.tag value.canonical = some value := by
  cases value with
  | null => rfl
  | int n => simp [ofCanonical?, tag, canonical]
  | float x =>
    obtain ⟨finite, quantized⟩ := h
    simp [ofCanonical?, tag, canonical, Binary64.readFinite?_fixed4 finite, ofFloat, quantized]
  | bool b => simp [ofCanonical?, tag, canonical]
  | str text => rfl
  | word name =>
    have token : Text.isToken name = true := h
    simp [ofCanonical?, tag, canonical, token]

theorem tag_eq_null_iff (value : Value) : value.tag = .null ↔ value = .null := by
  cases value <;> simp [tag]

theorem wellFormed_ofFloat {x : Binary64} (h : x.isFinite = true) : (ofFloat x).WellFormed :=
  ⟨Binary64.isFinite_quantize h, Binary64.quantize_quantize h⟩

end Value

namespace Snapshot

variable {ν : Type}

theorem kind_of_readStack_error {entries : List StackEntry} {index : Nat} {stack : List Value}
    {fault : Fault} (h : readStack index stack entries = .error fault) : fault.kind = .codec := by
  induction entries generalizing index stack with
  | nil => cases h
  | cons entry entries ih =>
    rw [readStack] at h
    split at h
    · cases h
      rfl
    · split at h
      · exact ih h
      · cases h
        rfl

theorem kind_of_readWords_error {entries : List WordEntry} {lexicon : Lexicon ν} {fault : Fault}
    (h : readWords lexicon entries = .error fault) : fault.kind = .codec := by
  induction entries generalizing lexicon with
  | nil => cases h
  | cons entry entries ih =>
    rw [readWords] at h
    split at h
    · cases h
      rfl
    · split at h
      · cases h
        rfl
      · exact ih h

theorem kind_of_checkOpen_error {lexicon : Lexicon ν} {mode : Mode} {name : Option String}
    {fault : Fault} (h : checkOpen lexicon mode name = .error fault) : fault.kind = .codec := by
  cases name with
  | none =>
    rw [checkOpen] at h
    split at h
    · cases h
      rfl
    · cases h
  | some name =>
    rw [checkOpen] at h
    split at h
    · cases h
    · cases h
      rfl

def assemble (host : Host ν) (snapshot : Snapshot) (stack : List Value) (user : Lexicon ν) :
    Machine ν :=
  { Machine.start host with
    dictionary := ⟨host.natives, user⟩
    stack := stack
    input := snapshot.input
    cursor := snapshot.cursor
    mode := snapshot.mode
    openWord := snapshot.openWord
    output := snapshot.output }

theorem restore_eq (host : Host ν) (snapshot : Snapshot) :
    snapshot.restore host =
      (readStack 0 [] snapshot.stack).bind fun stack =>
        (readWords .empty snapshot.words).bind fun user =>
          if snapshot.input.length < snapshot.cursor then
            .error { cause := .indexPastEnd snapshot.cursor snapshot.input.length }
          else
            (checkOpen user snapshot.mode snapshot.openWord).bind fun _ =>
              .ok (snapshot.assemble host stack user) := by
  rw [restore]
  by_cases past : snapshot.input.length < snapshot.cursor
  · simp only [past, if_true]
    rfl
  · simp only [past, if_false]
    rfl

theorem exists_of_bind_ok {α β : Type} {check : Except Fault α} {next : α → Except Fault β} {y : β}
    (h : check.bind next = .ok y) : ∃ x, check = .ok x ∧ next x = .ok y := by
  cases check with
  | error fault => cases h
  | ok x => exact ⟨x, rfl, h⟩

/-- What is restored has passed all checks. -/
theorem exists_of_restore {host : Host ν} {snapshot : Snapshot} {m : Machine ν}
    (h : snapshot.restore host = .ok m) :
    ∃ stack user, readStack 0 [] snapshot.stack = .ok stack ∧
      readWords .empty snapshot.words = .ok user ∧ snapshot.cursor ≤ snapshot.input.length ∧
      checkOpen user snapshot.mode snapshot.openWord = .ok () ∧ m = snapshot.assemble host stack user := by
  rw [restore_eq] at h
  obtain ⟨stack, values, h⟩ := exists_of_bind_ok h
  obtain ⟨user, words, h⟩ := exists_of_bind_ok h
  split at h
  · cases h
  · rename_i inside
    obtain ⟨_, opened, h⟩ := exists_of_bind_ok h
    cases h
    exact ⟨stack, user, values, words, Nat.not_lt.mp inside, opened, rfl⟩

theorem kind_of_bind_error {α β : Type} {check : Except Fault α} {next : α → Except Fault β}
    (first : ∀ fault, check = .error fault → fault.kind = .codec)
    (second : ∀ x fault, next x = .error fault → fault.kind = .codec) {fault : Fault}
    (h : check.bind next = .error fault) : fault.kind = .codec := by
  cases check with
  | error failure =>
    cases h
    exact first fault rfl
  | ok x => exact second x fault h

theorem kind_of_restore_error {host : Host ν} {snapshot : Snapshot} {fault : Fault}
    (h : snapshot.restore host = .error fault) : fault.kind = .codec := by
  rw [restore_eq] at h
  refine kind_of_bind_error (fun _ => kind_of_readStack_error) (fun stack _ h => ?_) h
  refine kind_of_bind_error (fun _ => kind_of_readWords_error) (fun user _ h => ?_) h
  split at h
  · cases h
    rfl
  · refine kind_of_bind_error (fun _ => kind_of_checkOpen_error) (fun _ _ h => ?_) h
    cases h

theorem readStack_map {values : List Value} (wellFormed : ∀ value ∈ values, value.WellFormed)
    (present : .null ∉ values) (index : Nat) (stack : List Value) :
    readStack index stack (values.map stackEntry) = .ok (values.reverse ++ stack) := by
  induction values generalizing index stack with
  | nil => rfl
  | cons value values ih =>
    obtain ⟨here, later⟩ := List.forall_mem_cons.mp wellFormed
    have notNull : value.tag ≠ .null := by
      intro tag
      exact present (by simp [(Value.tag_eq_null_iff value).mp tag])
    have absent : Value.null ∉ values := fun mem => present (by simp [mem])
    rw [List.map_cons, readStack]
    simp only [stackEntry, if_neg notNull, Value.ofCanonical?_canonical here]
    rw [ih later absent]
    simp

theorem null_not_mem_of_readStack {values : List Value} {index : Nat} {stack result : List Value}
    (h : readStack index stack (values.map stackEntry) = .ok result) : .null ∉ values := by
  induction values generalizing index stack with
  | nil => simp
  | cons value values ih =>
    rw [List.map_cons, readStack] at h
    split at h
    · cases h
    · rename_i notNull
      split at h
      · intro mem
        rcases List.mem_cons.mp mem with same | later
        · exact notNull ((Value.tag_eq_null_iff value).mpr same.symm)
        · exact ih h later
      · cases h

def wordsOf (entries : List WordEntry) : List (String × Word ν) :=
  entries.map fun entry => (entry.name, .compiled entry.immediate entry.tokens)

theorem readWords_cons {entry : WordEntry} {entries : List WordEntry} {lexicon : Lexicon ν}
    (token : Text.isToken entry.name = true)
    (distinct : (lexicon.names ++ (entry :: entries).map WordEntry.name).Nodup) :
    readWords lexicon (entry :: entries) =
      readWords ⟨lexicon.entries ++ [(entry.name, .compiled entry.immediate entry.tokens)]⟩ entries := by
  have fresh : entry.name ∉ lexicon.names := by
    rw [List.map_cons, List.nodup_append] at distinct
    exact fun mem => distinct.2.2 _ mem _ (by simp) rfl
  have unknown : lexicon.contains entry.name = false := by
    rw [← Bool.not_eq_true, Lexicon.contains_iff]
    exact fresh
  have inserted := Lexicon.insert_of_not_mem fresh
    (.compiled entry.immediate entry.tokens)
  rw [readWords]
  simp only [token, Bool.not_true, Bool.false_eq_true, if_false, unknown, inserted]

/-- Words under new and distinct names are defined in order, when the names are tokens. -/
theorem readWords_eq {entries : List WordEntry} {lexicon : Lexicon ν}
    (tokens : ∀ entry ∈ entries, Text.isToken entry.name = true)
    (distinct : (lexicon.names ++ entries.map WordEntry.name).Nodup) :
    readWords lexicon entries = .ok ⟨lexicon.entries ++ wordsOf entries⟩ := by
  induction entries generalizing lexicon with
  | nil => simp [readWords, wordsOf]
  | cons entry entries ih =>
    obtain ⟨here, later⟩ := List.forall_mem_cons.mp tokens
    rw [readWords_cons here distinct, ih later]
    · simp [wordsOf]
    · simpa [Lexicon.names] using distinct

theorem readWords_eq_error {entries : List WordEntry} {lexicon : Lexicon ν}
    (distinct : (lexicon.names ++ entries.map WordEntry.name).Nodup) {name : String}
    (bad : (entries.map WordEntry.name).find? (fun name => !Text.isToken name) = some name) :
    readWords lexicon entries = .error { cause := .invalidName name } := by
  induction entries generalizing lexicon with
  | nil => simp at bad
  | cons entry entries ih =>
    by_cases token : Text.isToken entry.name = true
    · rw [readWords_cons token distinct]
      apply ih
      · simpa [Lexicon.names] using distinct
      · simpa [token] using bad
    · rw [Bool.not_eq_true] at token
      obtain rfl : entry.name = name := by simpa [token] using bad
      simp [readWords, token]

theorem isToken_of_readWords {entries : List WordEntry} {lexicon result : Lexicon ν}
    (h : readWords lexicon entries = .ok result) :
    ∀ entry ∈ entries, Text.isToken entry.name = true := by
  induction entries generalizing lexicon with
  | nil => simp
  | cons entry entries ih =>
    rw [readWords] at h
    split at h
    · cases h
    · rename_i token
      split at h
      · cases h
      · intro other mem
        rcases List.mem_cons.mp mem with rfl | later
        · simpa using token
        · exact ih h other later

theorem checkOpen_eq {lexicon : Lexicon ν} {mode : Mode} {name : Option String}
    (known : ∀ word, name = some word → word ∈ lexicon.names)
    (opened : mode = .compile → name ≠ none) : checkOpen lexicon mode name = .ok () := by
  cases name with
  | none =>
    rw [checkOpen, if_neg]
    exact fun compiling => opened compiling rfl
  | some word => rw [checkOpen, if_pos ((Lexicon.contains_iff lexicon word).mpr (known word rfl))]

theorem mem_names_of_checkOpen {lexicon : Lexicon ν} {mode : Mode} {name : String}
    (h : checkOpen lexicon mode (some name) = .ok ()) : name ∈ lexicon.names := by
  rw [checkOpen] at h
  split at h
  · rename_i contains
    exact (Lexicon.contains_iff lexicon name).mp contains
  · cases h

theorem openWord_ne_none_of_checkOpen {lexicon : Lexicon ν} {mode : Mode} {name : Option String}
    (h : checkOpen lexicon mode name = .ok ()) : mode = .compile → name ≠ none := by
  rintro rfl rfl
  simp [checkOpen] at h

def entryOf (entry : String × Word ν) : WordEntry :=
  ⟨entry.1, entry.2.immediate, entry.2.tokens?.getD []⟩

theorem mapM_wordEntry {entries : List (String × Word ν)}
    (compiled : ∀ entry ∈ entries, entry.2.tokens?.isSome = true) :
    entries.mapM wordEntry = .ok (entries.map entryOf) := by
  induction entries with
  | nil => rfl
  | cons entry entries ih =>
    obtain ⟨here, later⟩ := List.forall_mem_cons.mp compiled
    obtain ⟨tokens, body⟩ := Option.isSome_iff_exists.mp here
    have first : wordEntry entry = .ok (entryOf entry) := by
      simp [wordEntry, entryOf, body]
    rw [List.mapM_cons, first, ih later]
    rfl

end Snapshot

namespace Dictionary

variable {ν : Type}

/-- What a program has defined: names in order, each with its flag and its token list. -/
def definitions (dictionary : Dictionary ν) : List (String × Bool × Option (List String)) :=
  dictionary.user.entries.map fun entry => (entry.1, entry.2.immediate, entry.2.tokens?)

end Dictionary

namespace Machine

variable {ν : Type}

/-- The machines that have a persisted form: no word is running, the values agree with their texts,
the program's words have token lists and distinct names, the cursor is a 64-bit count inside the
input, and the open definition is one of the words. -/
structure Persistable (m : Machine ν) : Prop where
  idle : m.frames = []
  values : ∀ value ∈ m.stack, value.WellFormed
  compiled : ∀ entry ∈ m.dictionary.user.entries, entry.2.tokens?.isSome = true
  distinct : m.dictionary.user.names.Nodup
  inside : m.cursor ≤ m.input.length
  counted : m.cursor < 2 ^ 64
  known : ∀ name, m.openWord = some name → name ∈ m.dictionary.user.names

/-- The machines whose persisted form is accepted: no value is null, names are tokens, and a
definition is open while compiling. -/
structure Acceptable (m : Machine ν) : Prop where
  present : .null ∉ m.stack
  named : ∀ name ∈ m.dictionary.user.names, Text.isToken name = true
  opened : m.mode = .compile → m.openWord ≠ none

structure SameState (m m' : Machine ν) : Prop where
  stack : m.stack = m'.stack
  definitions : m.dictionary.definitions = m'.dictionary.definitions
  input : m.input = m'.input
  cursor : m.cursor = m'.cursor
  mode : m.mode = m'.mode
  openWord : m.openWord = m'.openWord
  output : m.output = m'.output

def snapshot (m : Machine ν) : Snapshot where
  stack := m.stack.reverse.map Snapshot.stackEntry
  words := m.dictionary.user.entries.map Snapshot.entryOf
  input := m.input
  cursor := m.cursor
  mode := m.mode
  openWord := m.openWord
  output := m.output

/-- The machine that comes back from a persisted form which is accepted. -/
def resumed (host : Host ν) (m : Machine ν) : Machine ν :=
  m.snapshot.assemble host m.stack ⟨Snapshot.wordsOf m.snapshot.words⟩

theorem serialize_eq {m : Machine ν} (h : m.Persistable) : m.serialize = .ok m.snapshot.encode := by
  rw [serialize, Snapshot.ofMachine, Snapshot.mapM_wordEntry h.compiled]
  rfl

theorem deserialize_encode (host : Host ν) {m : Machine ν} (h : m.Persistable) :
    deserialize host m.snapshot.encode = m.snapshot.restore host := by
  rw [deserialize, Snapshot.decode?_encode h.counted]

theorem map_name_words (m : Machine ν) :
    m.snapshot.words.map WordEntry.name = m.dictionary.user.names := by
  simp [snapshot, Lexicon.names, Function.comp_def, Snapshot.entryOf]

theorem names_wordsOf (m : Machine ν) :
    (⟨Snapshot.wordsOf m.snapshot.words⟩ : Lexicon ν).names = m.dictionary.user.names := by
  rw [← map_name_words]
  simp [Lexicon.names, Snapshot.wordsOf, Function.comp_def]

theorem readStack_snapshot {m : Machine ν} (values : ∀ value ∈ m.stack, value.WellFormed)
    (present : .null ∉ m.stack) : Snapshot.readStack 0 [] m.snapshot.stack = .ok m.stack := by
  have wellFormed : ∀ value ∈ m.stack.reverse, value.WellFormed :=
    fun value mem => values value (List.mem_reverse.mp mem)
  have absent : .null ∉ m.stack.reverse := fun mem => present (List.mem_reverse.mp mem)
  rw [snapshot, Snapshot.readStack_map wellFormed absent]
  simp

theorem nodup_snapshot {m : Machine ν} (distinct : m.dictionary.user.names.Nodup) :
    ((.empty : Lexicon ν).names ++ m.snapshot.words.map WordEntry.name).Nodup := by
  rw [map_name_words]
  exact distinct

theorem readWords_snapshot {m : Machine ν}
    (named : ∀ name ∈ m.dictionary.user.names, Text.isToken name = true)
    (distinct : m.dictionary.user.names.Nodup) :
    Snapshot.readWords .empty m.snapshot.words =
      .ok (⟨Snapshot.wordsOf m.snapshot.words⟩ : Lexicon ν) := by
  have tokens : ∀ entry ∈ m.snapshot.words, Text.isToken entry.name = true := by
    intro entry mem
    apply named
    rw [← map_name_words]
    exact List.mem_map_of_mem mem
  exact Snapshot.readWords_eq tokens (nodup_snapshot distinct)

/-- A persisted form that is acceptable is accepted. -/
theorem restore_snapshot (host : Host ν) {m : Machine ν} (h : m.Persistable) (ok : m.Acceptable) :
    m.snapshot.restore host = .ok (m.resumed host) := by
  have opened : Snapshot.checkOpen (⟨Snapshot.wordsOf m.snapshot.words⟩ : Lexicon ν)
      m.snapshot.mode m.snapshot.openWord = .ok () := by
    apply Snapshot.checkOpen_eq _ ok.opened
    rw [names_wordsOf]
    exact h.known
  have inside : ¬ m.snapshot.input.length < m.snapshot.cursor := Nat.not_lt.mpr h.inside
  rw [Snapshot.restore_eq, readStack_snapshot h.values ok.present, readWords_snapshot ok.named h.distinct]
  simp only [Except.bind, if_neg inside]
  rw [opened]
  rfl

theorem restore_snapshot_unnamed (host : Host ν) {m : Machine ν} (h : m.Persistable)
    (present : .null ∉ m.stack) {name : String}
    (bad : m.dictionary.user.names.find? (fun name => !Text.isToken name) = some name) :
    m.snapshot.restore host = .error { cause := .invalidName name } := by
  rw [← map_name_words] at bad
  rw [Snapshot.restore_eq, readStack_snapshot h.values present,
    Snapshot.readWords_eq_error (nodup_snapshot h.distinct) bad]
  rfl

theorem restore_snapshot_unopened (host : Host ν) {m : Machine ν} (h : m.Persistable)
    (present : .null ∉ m.stack) (named : ∀ name ∈ m.dictionary.user.names, Text.isToken name = true)
    (compiling : m.mode = .compile) (idle : m.openWord = none) :
    m.snapshot.restore host = .error { cause := .compilingNothing } := by
  have inside : ¬ m.snapshot.input.length < m.snapshot.cursor := Nat.not_lt.mpr h.inside
  have unopened : Snapshot.checkOpen (⟨Snapshot.wordsOf m.snapshot.words⟩ : Lexicon ν)
      m.snapshot.mode m.snapshot.openWord = .error { cause := .compilingNothing } := by
    rw [show m.snapshot.openWord = none from idle, show m.snapshot.mode = .compile from compiling]
    rfl
  rw [Snapshot.restore_eq, readStack_snapshot h.values present, readWords_snapshot named h.distinct]
  simp only [Except.bind, if_neg inside]
  rw [unopened]

theorem acceptable_of_restore {host : Host ν} {m m' : Machine ν}
    (h : m.snapshot.restore host = .ok m') : m.Acceptable := by
  obtain ⟨values, user, stack, words, -, opened, -⟩ := Snapshot.exists_of_restore h
  refine ⟨?_, ?_, Snapshot.openWord_ne_none_of_checkOpen opened⟩
  · intro mem
    exact Snapshot.null_not_mem_of_readStack stack (List.mem_reverse.mpr mem)
  · intro name mem
    rw [← map_name_words] at mem
    obtain ⟨entry, written, rfl⟩ := List.mem_map.mp mem
    exact Snapshot.isToken_of_readWords words entry written

/-- A persisted form without null values is refused for a name exactly when one of the names is no
token. -/
theorem deserialize_unnamed_iff (host : Host ν) {m : Machine ν} (h : m.Persistable)
    (present : .null ∉ m.stack) :
    (∃ name, deserialize host m.snapshot.encode = .error { cause := .invalidName name }) ↔
      ∃ name ∈ m.dictionary.user.names, Text.isToken name = false := by
  rw [deserialize_encode host h]
  constructor
  · rintro ⟨name, refused⟩
    by_contra good
    have named : ∀ name ∈ m.dictionary.user.names, Text.isToken name = true := by simpa using good
    by_cases opened : m.mode = .compile → m.openWord ≠ none
    · rw [restore_snapshot host h ⟨present, named, opened⟩] at refused
      cases refused
    · obtain ⟨compiling, none⟩ : m.mode = .compile ∧ m.openWord = none := by simpa using opened
      rw [restore_snapshot_unopened host h present named compiling none] at refused
      cases refused
  · rintro ⟨name, mem, blank⟩
    cases bad : m.dictionary.user.names.find? fun name => !Text.isToken name with
    | none =>
      have named := List.find?_eq_none.mp bad name mem
      simp [blank] at named
    | some first => exact ⟨first, restore_snapshot_unnamed host h present bad⟩

/-- It is refused for want of an open definition exactly when there is none while compiling, and no
name has been refused before. -/
theorem deserialize_unopened_iff (host : Host ν) {m : Machine ν} (h : m.Persistable)
    (present : .null ∉ m.stack) :
    deserialize host m.snapshot.encode = .error { cause := .compilingNothing } ↔
      (∀ name ∈ m.dictionary.user.names, Text.isToken name = true) ∧
        m.mode = .compile ∧ m.openWord = none := by
  rw [deserialize_encode host h]
  constructor
  · intro refused
    by_cases named : ∀ name ∈ m.dictionary.user.names, Text.isToken name = true
    · refine ⟨named, ?_⟩
      by_contra other
      have opened : m.mode = .compile → m.openWord ≠ none := by simpa using other
      rw [restore_snapshot host h ⟨present, named, opened⟩] at refused
      cases refused
    · cases bad : m.dictionary.user.names.find? fun name => !Text.isToken name with
      | none => exact absurd (by simpa using bad) named
      | some name =>
        rw [restore_snapshot_unnamed host h present bad] at refused
        cases refused
  · rintro ⟨named, compiling, none⟩
    exact restore_snapshot_unopened host h present named compiling none

theorem sameState_resumed (host : Host ν) {m : Machine ν} (h : m.Persistable) :
    m.SameState (m.resumed host) where
  stack := rfl
  definitions := by
    simp only [Dictionary.definitions, resumed, Snapshot.assemble, Snapshot.wordsOf, snapshot,
      List.map_map]
    apply List.map_congr_left
    intro entry mem
    obtain ⟨tokens, body⟩ := Option.isSome_iff_exists.mp (h.compiled entry mem)
    simp [Snapshot.entryOf, body]
  input := rfl
  cursor := rfl
  mode := rfl
  openWord := rfl
  output := rfl

/-- Persisting never changes a state silently: the form can be written, it is accepted exactly when
no value is null, all names are tokens and a definition is open while compiling, what comes back is
the same state, and a refusal is a fault of the persisted form. -/
theorem deserialize_serialize (host : Host ν) {m : Machine ν} (h : m.Persistable) :
    ∃ form, m.serialize = .ok form ∧
      ((∃ m', deserialize host form = .ok m') ↔ m.Acceptable) ∧
      (∀ m', deserialize host form = .ok m' → m.SameState m') ∧
      (∀ fault, deserialize host form = .error fault → fault.kind = .codec) := by
  refine ⟨m.snapshot.encode, serialize_eq h, ?_, ?_, ?_⟩
  · rw [deserialize_encode host h]
    constructor
    · rintro ⟨m', restored⟩
      exact acceptable_of_restore restored
    · intro ok
      exact ⟨m.resumed host, restore_snapshot host h ok⟩
  · intro m' restored
    rw [deserialize_encode host h] at restored
    have again := restore_snapshot host h (acceptable_of_restore restored)
    rw [restored] at again
    cases again
    exact sameState_resumed host h
  · intro fault refused
    rw [deserialize_encode host h] at refused
    exact Snapshot.kind_of_restore_error refused

/-- A machine in the middle of a definition, with a negative zero and a text that needs escapes. -/
def interrupted : Machine Primitive :=
  { start { natives := Primitive.lexicon } with
    dictionary := ⟨Primitive.lexicon, ⟨[("SQUARE", .compiled false ["DUP"])]⟩⟩
    stack := [.str "\"two\"\nlines\t\\", .float (.zero true)]
    input := [":", "SQUARE", "DUP", "*", ";"]
    cursor := 3
    mode := .compile
    openWord := some "SQUARE"
    output := "-0.0000\n" }

theorem deserialize_serialize_interrupted :
    interrupted.Persistable ∧ interrupted.Acceptable ∧
      ∃ form m', interrupted.serialize = .ok form ∧
        deserialize { natives := Primitive.lexicon } form = .ok m' ∧ interrupted.SameState m' := by
  have zero : (Value.float (.zero true)).WellFormed := by
    refine ⟨rfl, ?_⟩
    decide +kernel
  have persistable : interrupted.Persistable :=
    { idle := rfl
      values := by simpa [interrupted, Value.WellFormed] using zero
      compiled := by simp [interrupted]
      distinct := by simp [interrupted, Lexicon.names]
      inside := by decide
      counted := by decide
      known := by simp [interrupted, Lexicon.names] }
  have acceptable : interrupted.Acceptable :=
    { present := by simp [interrupted]
      named := by simp [interrupted, Lexicon.names]; decide
      opened := by simp [interrupted] }
  obtain ⟨form, written, accepted, same, -⟩ :=
    deserialize_serialize { natives := Primitive.lexicon } persistable
  obtain ⟨m', read⟩ := accepted.mpr acceptable
  exact ⟨persistable, acceptable, form, m', written, read, same m' read⟩

end Machine
end ResumableForth
