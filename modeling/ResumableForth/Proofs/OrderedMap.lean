import ResumableForth.Proofs.Indexed

/-! Dictionaries as ordered maps. The program's words form an association list: a new name goes to its end,
and a name that is there already keeps its place and gets another word. All that can be seen of a dictionary
after any number of edits can be read off this list and the native words. That holds for a dictionary that
searches its entries, and also for one that finds them by an index, since no edit makes the index stale. -/
namespace ResumableForth

/-- The word with its token list changed. A native word has none, and stays as it is. -/
def Word.mapTokens {ν : Type} (change : List String → List String) (word : Word ν) : Word ν :=
  match word.body with
  | .native _ => word
  | .compiled tokens => { word with body := .compiled (change tokens) }

abbrev Bindings (ν : Type) := List (String × Word ν)

/-- A change to the program's words: a word is bound to a name, or the token list of a word is changed
where it stands. -/
inductive Edit (ν : Type)
  | define (name : String) (word : Word ν)
  | amend (name : String) (change : List String → List String)

/-- What can be seen of a dictionary: the program's words in order, whether a name is one of theirs, the
word that a name stands for, and the token lists that can be changed. -/
structure Aspect (ν : Type) where
  words : List (String × Word ν)
  isOwn : String → Bool
  find? : String → Option (Word ν)
  body? : String → Option (List String)

namespace Bindings

variable {ν : Type}

def keys (bindings : Bindings ν) : List String := bindings.map Prod.fst

def put (name : String) (word : Word ν) : Bindings ν → Bindings ν
  | [] => [(name, word)]
  | entry :: later => if entry.1 = name then (name, word) :: later else entry :: put name word later

def amend (name : String) (change : List String → List String) (bindings : Bindings ν) : Bindings ν :=
  bindings.map fun entry => if entry.1 = name then (entry.1, entry.2.mapTokens change) else entry

def edit (bindings : Bindings ν) : Edit ν → Bindings ν
  | .define name word => bindings.put name word
  | .amend name change => bindings.amend name change

/-- The bindings that edits leave behind when there were none before. -/
def ofEdits (edits : List (Edit ν)) : Bindings ν := edits.foldl edit []

/-- What the program's words and the native ones look like together: the program's own come first. -/
def aspect (natives : Lexicon ν) (bindings : Bindings ν) : Aspect ν where
  words := bindings
  isOwn name := decide (name ∈ bindings.keys)
  find? name := (bindings.lookup name).or (natives.find? name)
  body? name := (bindings.lookup name).bind Word.tokens?

end Bindings

namespace Dictionary

variable {ν : Type}

def edit (dictionary : Dictionary ν) : Edit ν → Dictionary ν
  | .define name word => dictionary.define name word
  | .amend name change => (dictionary.editBody? name change).getD dictionary

def edited (dictionary : Dictionary ν) (edits : List (Edit ν)) : Dictionary ν := edits.foldl edit dictionary

def aspect (dictionary : Dictionary ν) : Aspect ν where
  words := dictionary.user.entries
  isOwn := dictionary.user.contains
  find? := dictionary.find?
  body? := dictionary.body?

end Dictionary

namespace IndexedDictionary

variable {ν : Type}

def edit (dictionary : IndexedDictionary ν) : Edit ν → IndexedDictionary ν
  | .define name word => dictionary.define name word
  | .amend name change => (dictionary.editBody? name change).getD dictionary

def edited (dictionary : IndexedDictionary ν) (edits : List (Edit ν)) : IndexedDictionary ν :=
  edits.foldl edit dictionary

def aspect (dictionary : IndexedDictionary ν) : Aspect ν where
  words := dictionary.user.entries.toList
  isOwn := dictionary.user.contains
  find? := dictionary.find?
  body? := dictionary.body?

end IndexedDictionary

namespace Bindings

variable {ν : Type} {bindings : Bindings ν} {name other : String} {word : Word ν}
  {change : List String → List String}

theorem lookup_cons (entry : String × Word ν) (later : Bindings ν) :
    List.lookup name (entry :: later) = if name = entry.1 then some entry.2 else later.lookup name := by
  obtain ⟨key, word⟩ := entry
  by_cases same : name = key
  · simp [same]
  · have differs : (name == key) = false := beq_eq_false_iff_ne.mpr same
    simp [List.lookup_cons, differs, same]

theorem lookup_eq_none_iff_not_mem : bindings.lookup name = none ↔ name ∉ bindings.keys := by
  rw [List.lookup_eq_none_iff, keys, List.mem_map]
  constructor
  · rintro apart ⟨entry, mem, rfl⟩
    simpa using apart entry mem
  · intro fresh entry mem
    rw [bne_iff_ne]
    exact fun same => fresh ⟨entry, mem, same.symm⟩

theorem exists_lookup_of_mem (known : name ∈ bindings.keys) : ∃ word, bindings.lookup name = some word := by
  apply Option.ne_none_iff_exists'.mp
  rw [Ne, lookup_eq_none_iff_not_mem]
  exact not_not_intro known

theorem lookup_of_mem (distinct : bindings.keys.Nodup) {entry : String × Word ν}
    (mem : entry ∈ bindings) : bindings.lookup entry.1 = some entry.2 := by
  induction bindings with
  | nil => simp at mem
  | cons first later ih =>
    obtain ⟨fresh, rest⟩ := List.nodup_cons.mp distinct
    rw [lookup_cons]
    rcases List.mem_cons.mp mem with rfl | there
    · rw [if_pos rfl]
    · have other : entry.1 ≠ first.1 := by
        intro same
        exact fresh (same ▸ List.mem_map_of_mem there)
      rw [if_neg other, ih rest there]

theorem mem_keys_put : other ∈ (bindings.put name word).keys ↔ other = name ∨ other ∈ bindings.keys := by
  induction bindings with
  | nil => simp [put, keys]
  | cons entry later ih =>
    simp only [keys] at ih
    by_cases same : entry.1 = name
    · simp [put, keys, same]
    · simp only [put, keys, if_neg same, List.map_cons, List.mem_cons, ih]
      exact or_left_comm

theorem nodup_keys_put (distinct : bindings.keys.Nodup) : (bindings.put name word).keys.Nodup := by
  induction bindings with
  | nil => simp [put, keys]
  | cons entry later ih =>
    obtain ⟨fresh, rest⟩ := List.nodup_cons.mp distinct
    by_cases same : entry.1 = name
    · subst same
      rw [put, if_pos rfl]
      exact distinct
    · have fresh' : entry.1 ∉ (put name word later).keys := by
        rw [mem_keys_put]
        exact not_or.mpr ⟨same, fresh⟩
      rw [put, if_neg same]
      exact List.nodup_cons.mpr ⟨fresh', ih rest⟩

theorem put_of_mem (known : name ∈ bindings.keys) (distinct : bindings.keys.Nodup) :
    bindings.put name word =
      bindings.map fun entry => if entry.1 = name then (entry.1, word) else entry := by
  induction bindings with
  | nil => simp [keys] at known
  | cons entry later ih =>
    obtain ⟨fresh, rest⟩ := List.nodup_cons.mp distinct
    rw [put, List.map_cons]
    by_cases same : entry.1 = name
    · subst same
      have untouched : ∀ other ∈ later, (if other.1 = entry.1 then (other.1, word) else other) = other := by
        intro other mem
        apply if_neg
        intro same
        exact fresh (same ▸ List.mem_map_of_mem mem)
      rw [if_pos rfl, if_pos rfl, List.map_congr_left (g := id) untouched, List.map_id]
    · have known' : name ∈ keys later := by
        rcases List.mem_cons.mp known with here | there
        · exact absurd here.symm same
        · exact there
      rw [if_neg same, if_neg same, ih known' rest]

@[simp] theorem keys_amend : (bindings.amend name change).keys = bindings.keys := by
  rw [keys, amend, List.map_map]
  apply List.map_congr_left
  intro entry _
  by_cases same : entry.1 = name <;> simp [same]

theorem lookup_amend : (bindings.amend name change).lookup other =
    if other = name then (bindings.lookup name).map (Word.mapTokens change)
    else bindings.lookup other := by
  induction bindings with
  | nil => simp [amend]
  | cons entry later ih =>
    rw [amend, List.map_cons, lookup_cons, lookup_cons, lookup_cons, ← amend, ih]
    by_cases same : entry.1 = name
    · subst same
      by_cases here : other = entry.1 <;> simp [here]
    · by_cases asked : other = name
      · subst asked
        simp [same, Ne.symm same]
      · simp [same, asked]

theorem amend_of_fixed (distinct : bindings.keys.Nodup)
    (fixed : ∀ word, bindings.lookup name = some word → word.mapTokens change = word) :
    bindings.amend name change = bindings := by
  have untouched : ∀ entry ∈ bindings,
      (if entry.1 = name then (entry.1, entry.2.mapTokens change) else entry) = entry := by
    intro entry mem
    by_cases here : entry.1 = name
    · rw [if_pos here, fixed entry.2 (here ▸ lookup_of_mem distinct mem)]
    · rw [if_neg here]
  rw [amend, List.map_congr_left (g := id) untouched, List.map_id]

theorem amend_of_lookup (distinct : bindings.keys.Nodup) (found : bindings.lookup name = some word) :
    bindings.amend name change = bindings.put name (word.mapTokens change) := by
  have known : name ∈ bindings.keys := by
    apply Decidable.byContradiction
    intro unknown
    rw [lookup_eq_none_iff_not_mem.mpr unknown] at found
    cases found
  rw [put_of_mem known distinct, amend]
  apply List.map_congr_left
  intro entry mem
  by_cases here : entry.1 = name
  · have own : bindings.lookup name = some entry.2 := here ▸ lookup_of_mem distinct mem
    obtain rfl : word = entry.2 := Option.some.inj (found.symm.trans own)
    rfl
  · rw [if_neg here, if_neg here]

theorem mem_keys_edit (known : name ∈ bindings.keys) (edit : Edit ν) :
    name ∈ (bindings.edit edit).keys := by
  cases edit with
  | define other word => exact mem_keys_put.mpr (.inr known)
  | amend other change =>
    rw [Bindings.edit, keys_amend]
    exact known

theorem nodup_keys_edit (distinct : bindings.keys.Nodup) (edit : Edit ν) :
    (bindings.edit edit).keys.Nodup := by
  cases edit with
  | define other word => exact nodup_keys_put distinct
  | amend other change =>
    rw [Bindings.edit, keys_amend]
    exact distinct

theorem nodup_keys_ofEdits (edits : List (Edit ν)) : (ofEdits edits).keys.Nodup := by
  have nothing : (keys ([] : Bindings ν)).Nodup := List.nodup_nil
  exact List.foldlRecOn (motive := fun bindings => (keys bindings).Nodup) edits edit nothing
    fun _ distinct change _ => nodup_keys_edit distinct change

theorem exists_lookup_append {edits : List (Edit ν)} (known : name ∈ (ofEdits edits).keys)
    (later : List (Edit ν)) : ∃ word, (ofEdits (edits ++ later)).lookup name = some word := by
  apply exists_lookup_of_mem
  rw [ofEdits, List.foldl_append]
  exact List.foldlRecOn (motive := fun bindings => name ∈ keys bindings) later edit known
    fun _ known change _ => mem_keys_edit known change

theorem find?_aspect {natives : Lexicon ν} (found : bindings.lookup name = some word) :
    (bindings.aspect natives).find? name = some word := by
  change (bindings.lookup name).or (natives.find? name) = some word
  rw [found, Option.some_or]

end Bindings

namespace Lexicon

variable {ν : Type}

theorem entries_insert (lexicon : Lexicon ν) (name : String) (word : Word ν) :
    (lexicon.insert name word).entries = Bindings.put name word lexicon.entries := by
  obtain ⟨entries⟩ := lexicon
  induction entries with
  | nil => rfl
  | cons entry later ih =>
    rw [insert, position?] at ih ⊢
    rw [position_cons, Bindings.put, ← ih]
    by_cases same : entry.1 = name
    · simp [same]
    · rw [if_neg same, if_neg same]
      cases position name later <;> rfl

theorem find?_eq_lookup (lexicon : Lexicon ν) (name : String) :
    lexicon.find? name = lexicon.entries.lookup name := by
  obtain ⟨entries⟩ := lexicon
  induction entries with
  | nil => rfl
  | cons entry later ih =>
    rw [find?, position?] at ih ⊢
    rw [position_cons, Bindings.lookup_cons, ← ih]
    by_cases same : entry.1 = name
    · simp [same]
    · rw [if_neg same, if_neg (Ne.symm same)]
      cases position name later <;> rfl

end Lexicon

namespace Dictionary

variable {ν : Type} {dictionary : Dictionary ν} {name : String} {change : List String → List String}

theorem aspect_eq (dictionary : Dictionary ν) :
    dictionary.aspect = Bindings.aspect dictionary.natives dictionary.user.entries := by
  have own : dictionary.user.contains =
      fun name => decide (name ∈ Bindings.keys dictionary.user.entries) := by
    funext name
    rw [Bool.eq_iff_iff, Lexicon.contains_iff, decide_eq_true_iff]
    rfl
  have found : dictionary.find? =
      fun name => (dictionary.user.entries.lookup name).or (dictionary.natives.find? name) := by
    funext name
    rw [find?_eq, Lexicon.find?_eq_lookup dictionary.user]
  have bodies : dictionary.body? =
      fun name => (dictionary.user.entries.lookup name).bind Word.tokens? := by
    funext name
    rw [body?, Lexicon.find?_eq_lookup]
  rw [aspect, own, found, bodies]
  rfl

theorem editBody?_eq (distinct : (Bindings.keys dictionary.user.entries).Nodup) :
    dictionary.editBody? name change =
      (dictionary.body? name).map fun _ =>
        { dictionary with user := ⟨Bindings.amend name change dictionary.user.entries⟩ } := by
  rw [editBody?, body?]
  cases found : dictionary.user.find? name with
  | none => rfl
  | some word =>
    have bound : Bindings.amend name change dictionary.user.entries =
        Bindings.put name (word.mapTokens change) dictionary.user.entries :=
      Bindings.amend_of_lookup distinct (Lexicon.find?_eq_lookup _ _ ▸ found)
    rw [Option.bind_some, bound, ← Lexicon.entries_insert]
    obtain ⟨body, immediate, description, signature⟩ := word
    cases body <;> rfl

theorem aspect_editBody? (distinct : (Bindings.keys dictionary.user.entries).Nodup) :
    (dictionary.editBody? name change).map aspect =
      ((dictionary.user.entries.lookup name).bind Word.tokens?).map fun _ =>
        Bindings.aspect dictionary.natives (Bindings.amend name change dictionary.user.entries) := by
  rw [editBody?_eq distinct, Option.map_map, body?, Lexicon.find?_eq_lookup]
  congr 1
  funext tokens
  exact aspect_eq _

/-- What one edit does to a dictionary is what it does to the bindings. -/
theorem edit_eq (distinct : (Bindings.keys dictionary.user.entries).Nodup) (change : Edit ν) :
    dictionary.edit change =
      { dictionary with user := ⟨Bindings.edit dictionary.user.entries change⟩ } := by
  cases change with
  | define name word => rw [edit, define, Bindings.edit, ← Lexicon.entries_insert]
  | amend name change =>
    rw [edit, editBody?_eq distinct, Bindings.edit]
    cases body : dictionary.body? name with
    | some tokens => rfl
    | none =>
      have fixed : ∀ word, dictionary.user.entries.lookup name = some word →
          word.mapTokens change = word := by
        intro word found
        rw [body?, Lexicon.find?_eq_lookup, found] at body
        obtain ⟨code, immediate, description, signature⟩ := word
        cases code with
        | native operation => rfl
        | compiled tokens => cases body
      rw [Bindings.amend_of_fixed distinct fixed]
      rfl

/-- What any number of edits does to a dictionary is what they do to the bindings. -/
theorem edited_eq (distinct : (Bindings.keys dictionary.user.entries).Nodup) (edits : List (Edit ν)) :
    dictionary.edited edits =
      { dictionary with user := ⟨edits.foldl Bindings.edit dictionary.user.entries⟩ } := by
  induction edits generalizing dictionary with
  | nil => rfl
  | cons change later ih =>
    have distinct' : (Bindings.keys (dictionary.edit change).user.entries).Nodup := by
      rw [edit_eq distinct]
      exact Bindings.nodup_keys_edit distinct change
    rw [edited, List.foldl_cons, ← edited, ih distinct', edit_eq distinct]
    rfl

end Dictionary

namespace IndexedDictionary

variable {ν : Type} (dictionary : IndexedDictionary ν)

theorem words_aspect : dictionary.aspect.words = dictionary.user.entries.toList := rfl

theorem aspect_plain : dictionary.plain.aspect = dictionary.aspect := by
  have own : dictionary.plain.user.contains = dictionary.user.contains := funext dictionary.contains_plain
  have found : dictionary.plain.find? = dictionary.find? := funext dictionary.find?_plain
  have bodies : dictionary.plain.body? = dictionary.body? := funext dictionary.body?_plain
  rw [Dictionary.aspect, aspect, own, found, bodies]
  rfl

theorem aspect_editBody? (name : String) (change : List String → List String) :
    (dictionary.editBody? name change).map aspect =
      (dictionary.plain.editBody? name change).map Dictionary.aspect := by
  rw [← plain_editBody?, Option.map_map]
  congr 1
  funext other
  exact other.aspect_plain.symm

theorem plain_edit (change : Edit ν) : (dictionary.edit change).plain = dictionary.plain.edit change := by
  cases change with
  | define name word => exact dictionary.plain_define name word
  | amend name change =>
    rw [edit, Dictionary.edit, ← plain_editBody?]
    cases dictionary.editBody? name change <;> rfl

/-- After any number of edits the index still leads where a search would. -/
theorem plain_edited (edits : List (Edit ν)) :
    (dictionary.edited edits).plain = dictionary.plain.edited edits := by
  induction edits generalizing dictionary with
  | nil => rfl
  | cons change later ih =>
    rw [edited, List.foldl_cons, ← edited, ih, plain_edit]
    rfl

end IndexedDictionary

section

variable {ν : Type} (natives : Lexicon ν) (edits : List (Edit ν))

theorem Dictionary.edited_ofNatives :
    (ofNatives natives).edited edits = ⟨natives, ⟨Bindings.ofEdits edits⟩⟩ := by
  have nothing : (Bindings.keys (ofNatives natives).user.entries).Nodup := List.nodup_nil
  exact edited_eq nothing edits

theorem IndexedDictionary.plain_edited_ofNatives :
    ((ofNatives natives).edited edits).plain = ⟨natives, ⟨Bindings.ofEdits edits⟩⟩ :=
  (plain_edited (ofNatives natives) edits).trans (Dictionary.edited_ofNatives natives edits)

theorem Dictionary.aspect_edited_ofNatives :
    ((ofNatives natives).edited edits).aspect = (Bindings.ofEdits edits).aspect natives := by
  rw [edited_ofNatives]
  exact aspect_eq _

theorem IndexedDictionary.aspect_edited_ofNatives :
    ((ofNatives natives).edited edits).aspect = (Bindings.ofEdits edits).aspect natives := by
  rw [← aspect_plain, plain_edited_ofNatives]
  exact Dictionary.aspect_eq _

end

/-- Dictionaries refine ordered maps. After any edits, over any native words, a dictionary looks as the
bindings do that the edits make: the program's words are these in the same order, its names are the keys,
and a name stands for the word that it is bound to, or else for a native one. A token list can be changed
exactly when a name is bound to a compiled word, and then it changes in this binding and nowhere else. A
name that is bound once stays bound to a word of the program, whatever follows, so that a native word that
is hidden never comes back. All this holds of the dictionary that is searched and of the one with an
index. -/
theorem edited_refines_bindings {ν : Type} (natives : Lexicon ν) (edits : List (Edit ν)) :
    let bindings := Bindings.ofEdits edits
    let searched := (Dictionary.ofNatives natives).edited edits
    let indexed := (IndexedDictionary.ofNatives natives).edited edits
    (searched.aspect = bindings.aspect natives ∧ indexed.aspect = bindings.aspect natives) ∧
      bindings.keys.Nodup ∧
      (∀ name change,
        let changed := ((bindings.lookup name).bind Word.tokens?).map fun _ =>
          (bindings.amend name change).aspect natives
        (searched.editBody? name change).map Dictionary.aspect = changed ∧
          (indexed.editBody? name change).map IndexedDictionary.aspect = changed) ∧
      (∀ name change, (bindings.amend name change).keys = bindings.keys ∧
        ∀ other, (bindings.amend name change).lookup other =
          if other = name then (bindings.lookup name).map (Word.mapTokens change)
          else bindings.lookup other) ∧
      ∀ name ∈ bindings.keys, ∀ later, ∃ word,
        (Bindings.ofEdits (edits ++ later)).lookup name = some word ∧
          ((Dictionary.ofNatives natives).edited (edits ++ later)).find? name = some word ∧
          ((IndexedDictionary.ofNatives natives).edited (edits ++ later)).find? name = some word := by
  intro bindings searched indexed
  have distinct : bindings.keys.Nodup := Bindings.nodup_keys_ofEdits edits
  have plain : searched = ⟨natives, ⟨bindings⟩⟩ := Dictionary.edited_ofNatives natives edits
  have plain' : indexed.plain = ⟨natives, ⟨bindings⟩⟩ :=
    IndexedDictionary.plain_edited_ofNatives natives edits
  refine ⟨⟨Dictionary.aspect_edited_ofNatives natives edits,
    IndexedDictionary.aspect_edited_ofNatives natives edits⟩, distinct, ?_, ?_, ?_⟩
  · intro name change
    rw [IndexedDictionary.aspect_editBody?, plain, plain', Dictionary.aspect_editBody? distinct]
    exact ⟨rfl, rfl⟩
  · intro name change
    exact ⟨Bindings.keys_amend, fun other => Bindings.lookup_amend⟩
  · intro name known later
    obtain ⟨word, found⟩ := Bindings.exists_lookup_append known later
    refine ⟨word, found, ?_, ?_⟩
    · have looks := Dictionary.aspect_edited_ofNatives natives (edits ++ later)
      exact (congrArg (·.find? name) looks).trans (Bindings.find?_aspect found)
    · have looks := IndexedDictionary.aspect_edited_ofNatives natives (edits ++ later)
      exact (congrArg (·.find? name) looks).trans (Bindings.find?_aspect found)

/-- A word is defined under the name of a native one, and changed after another word was defined. -/
theorem edited_refines_bindings_hiding :
    let natives : Lexicon Unit := ⟨[("DUP", .native false () "Duplicate." "a -- a a")]⟩
    let first : List (Edit Unit) := [.define "DUP" (.compiled false ["1"])]
    let later : List (Edit Unit) :=
      [.define "A" (.compiled true []), .amend "DUP" (· ++ ["2"]), .amend "B" (· ++ ["3"])]
    "DUP" ∈ (Bindings.ofEdits first).keys ∧
      ((IndexedDictionary.ofNatives natives).edited (first ++ later)).find? "DUP" =
        some (.compiled false ["1", "2"]) ∧
      ((IndexedDictionary.ofNatives natives).edited (first ++ later)).user.entries.toList.map Prod.fst =
        ["DUP", "A"] := by
  intro natives first later
  have known : "DUP" ∈ (Bindings.ofEdits first).keys := by decide
  obtain ⟨-, -, -, -, stays⟩ := edited_refines_bindings natives first
  obtain ⟨⟨-, looks⟩, -⟩ := edited_refines_bindings natives (first ++ later)
  obtain ⟨word, found, -, found'⟩ := stays "DUP" known later
  refine ⟨known, ?_, ?_⟩
  · rw [found', ← found]
    rfl
  · rw [← IndexedDictionary.words_aspect, looks]
    rfl

end ResumableForth
