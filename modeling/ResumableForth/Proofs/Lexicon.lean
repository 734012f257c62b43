import ResumableForth.Dictionary

/-! Lexicons and dictionaries as maps from names to words: what a definition changes, what it leaves
alone, and how it acts on the list of names. -/
namespace ResumableForth

namespace Word

variable {ν : Type}

@[simp] theorem tokens?_compiled (immediate : Bool) (tokens : List String) :
    (compiled immediate tokens : Word ν).tokens? = some tokens := rfl

@[simp] theorem immediate_compiled (immediate : Bool) (tokens : List String) :
    (compiled immediate tokens : Word ν).immediate = immediate := rfl

end Word

namespace Lexicon

variable {ν : Type}

/-- Where a name stands depends on the names only. -/
theorem position_congr {first second : List (String × Word ν)}
    (h : first.map Prod.fst = second.map Prod.fst) (name : String) :
    position name first = position name second := by
  induction first generalizing second with
  | nil =>
    obtain rfl : second = [] := by simpa using h.symm
    rfl
  | cons entry first ih =>
    cases second with
    | nil => simp at h
    | cons other second =>
      obtain ⟨head, tail⟩ : entry.1 = other.1 ∧ first.map Prod.fst = second.map Prod.fst := by
        simpa using h
      rw [position_cons, position_cons, head, ih tail]

theorem position_append_of_not_mem {name : String} {front back : List (String × Word ν)}
    (h : name ∉ front.map Prod.fst) :
    position name (front ++ back) = (position name back).map (· + front.length) := by
  induction front with
  | nil => simp
  | cons entry front ih =>
    obtain ⟨head, tail⟩ : name ≠ entry.1 ∧ name ∉ front.map Prod.fst := by simpa using h
    rw [List.cons_append, position_cons, if_neg head.symm, ih tail]
    simp [Function.comp_def, Nat.add_assoc]

theorem position_append_of_mem {name : String} {front back : List (String × Word ν)}
    (h : name ∈ front.map Prod.fst) : position name (front ++ back) = position name front := by
  induction front with
  | nil => simp at h
  | cons entry front ih =>
    rw [List.cons_append, position_cons, position_cons]
    by_cases head : entry.1 = name
    · simp [head]
    · have tail : name ∈ front.map Prod.fst := by
        rcases List.mem_cons.mp h with same | tail
        · exact absurd same.symm head
        · exact tail
      rw [if_neg head, if_neg head, ih tail]

theorem position_lt {name : String} {entries : List (String × Word ν)} {i : Nat}
    (h : position name entries = some i) : i < entries.length := by
  have place := map_fst_getElem?_position h
  rcases Nat.lt_or_ge i entries.length with inside | outside
  · exact inside
  · simp [List.getElem?_eq_none outside] at place

theorem position_inj {name other : String} {entries : List (String × Word ν)} {i : Nat}
    (h : position name entries = some i) (h' : position other entries = some i) : name = other := by
  have place := map_fst_getElem?_position h
  rw [map_fst_getElem?_position h'] at place
  exact (Option.some.inj place).symm

theorem map_fst_set {name : String} {entries : List (String × Word ν)} {i : Nat}
    (h : position name entries = some i) (word : Word ν) :
    (entries.set i (name, word)).map Prod.fst = entries.map Prod.fst := by
  have inside := position_lt h
  have place : entries[i].1 = name := by
    simpa [List.getElem?_eq_getElem inside] using map_fst_getElem?_position h
  rw [List.map_set]
  apply List.ext_getElem?
  intro j
  by_cases same : i = j
  · subst same
    simp [place, inside]
  · simp [same]

theorem insert_of_position {lexicon : Lexicon ν} {name : String} {i : Nat}
    (h : position name lexicon.entries = some i) (word : Word ν) :
    lexicon.insert name word = ⟨lexicon.entries.set i (name, word)⟩ := by
  rw [insert, position?, h]

theorem insert_of_not_mem {lexicon : Lexicon ν} {name : String} (h : name ∉ lexicon.names)
    (word : Word ν) : lexicon.insert name word = ⟨lexicon.entries ++ [(name, word)]⟩ := by
  rw [insert, position?, position_eq_none_iff.mpr h]

theorem exists_position_of_mem {lexicon : Lexicon ν} {name : String} (h : name ∈ lexicon.names) :
    ∃ i, position name lexicon.entries = some i := by
  cases place : position name lexicon.entries with
  | none => exact absurd h (position_eq_none_iff.mp place)
  | some i => exact ⟨i, rfl⟩

theorem names_insert (lexicon : Lexicon ν) (name : String) (word : Word ν) :
    (lexicon.insert name word).names =
      if name ∈ lexicon.names then lexicon.names else lexicon.names ++ [name] := by
  by_cases known : name ∈ lexicon.names
  · obtain ⟨i, place⟩ := exists_position_of_mem known
    rw [if_pos known, insert_of_position place]
    exact map_fst_set place word
  · rw [if_neg known, insert_of_not_mem known]
    simp [names]

theorem mem_names_insert {lexicon : Lexicon ν} {name other : String} {word : Word ν} :
    other ∈ (lexicon.insert name word).names ↔ other = name ∨ other ∈ lexicon.names := by
  rw [names_insert]
  by_cases known : name ∈ lexicon.names
  · rw [if_pos known]
    constructor
    · exact Or.inr
    · rintro (rfl | mem)
      · exact known
      · exact mem
  · simp [known, or_comm]

theorem nodup_names_insert {lexicon : Lexicon ν} (h : lexicon.names.Nodup) (name : String)
    (word : Word ν) : (lexicon.insert name word).names.Nodup := by
  rw [names_insert]
  by_cases known : name ∈ lexicon.names
  · rwa [if_pos known]
  · rw [if_neg known, List.nodup_append]
    refine ⟨h, by simp, ?_⟩
    intro a mem b hb
    obtain rfl : b = name := by simpa using hb
    rintro rfl
    exact known mem

theorem mem_entries_insert {lexicon : Lexicon ν} {name : String} {word : Word ν}
    {entry : String × Word ν} (h : entry ∈ (lexicon.insert name word).entries) :
    entry = (name, word) ∨ entry ∈ lexicon.entries := by
  by_cases known : name ∈ lexicon.names
  · obtain ⟨i, place⟩ := exists_position_of_mem known
    rw [insert_of_position place] at h
    exact (List.mem_or_eq_of_mem_set h).symm
  · rw [insert_of_not_mem known] at h
    rcases List.mem_append.mp h with old | new
    · exact Or.inr old
    · exact Or.inl (by simpa using new)

theorem find?_eq {lexicon : Lexicon ν} {name : String} {i : Nat}
    (h : position name lexicon.entries = some i) :
    lexicon.find? name = lexicon.entries[i]?.map Prod.snd := by
  rw [find?, position?, h]
  rfl

@[simp] theorem find?_insert_self (lexicon : Lexicon ν) (name : String) (word : Word ν) :
    (lexicon.insert name word).find? name = some word := by
  by_cases known : name ∈ lexicon.names
  · obtain ⟨i, place⟩ := exists_position_of_mem known
    have inside := position_lt place
    have same : position name (lexicon.entries.set i (name, word)) = some i := by
      rw [position_congr (map_fst_set place word), place]
    rw [insert_of_position place, find?_eq same]
    simp [inside]
  · have place : position name (lexicon.entries ++ [(name, word)]) = some lexicon.entries.length := by
      rw [position_append_of_not_mem known]
      simp [position_cons]
    rw [insert_of_not_mem known, find?_eq place]
    simp

theorem find?_insert_of_ne {lexicon : Lexicon ν} {name other : String} (h : other ≠ name)
    (word : Word ν) : (lexicon.insert name word).find? other = lexicon.find? other := by
  by_cases known : name ∈ lexicon.names
  · obtain ⟨i, place⟩ := exists_position_of_mem known
    rw [insert_of_position place, find?, find?, position?, position?,
      position_congr (map_fst_set place word)]
    cases otherPlace : position other lexicon.entries with
    | none => rfl
    | some j =>
      have apart : i ≠ j := by
        rintro rfl
        exact h (position_inj otherPlace place)
      simp [apart]
  · rw [insert_of_not_mem known, find?, find?, position?, position?]
    by_cases old : other ∈ lexicon.names
    · rw [position_append_of_mem old]
      cases otherPlace : position other lexicon.entries with
      | none => rfl
      | some j => simp [List.getElem?_append_left (position_lt otherPlace)]
    · rw [position_append_of_not_mem old, position_eq_none_iff.mpr old]
      simp [position_cons, h.symm]

theorem insert_of_find? {lexicon : Lexicon ν} {name : String} {word : Word ν}
    (found : lexicon.find? name = some word) : lexicon.insert name word = lexicon := by
  obtain ⟨i, place, here⟩ := Option.bind_eq_some_iff.mp found
  obtain ⟨entry, there, rfl⟩ := Option.map_eq_some_iff.mp here
  have named := map_fst_getElem?_position place
  rw [there] at named
  obtain rfl : entry.1 = name := Option.some.inj named
  obtain ⟨inside, rfl⟩ := List.getElem?_eq_some_iff.mp there
  rw [insert_of_position place, List.set_getElem_self]

@[simp] theorem insert_insert (lexicon : Lexicon ν) (name : String) (first second : Word ν) :
    (lexicon.insert name first).insert name second = lexicon.insert name second := by
  by_cases known : name ∈ lexicon.names
  · obtain ⟨i, place⟩ := exists_position_of_mem known
    have same : position name (lexicon.insert name first).entries = some i := by
      rw [insert_of_position place, position_congr (map_fst_set place first), place]
    rw [insert_of_position same, insert_of_position place, insert_of_position place]
    simp
  · have place : position name (lexicon.insert name first).entries =
        some lexicon.entries.length := by
      rw [insert_of_not_mem known, position_append_of_not_mem known]
      simp [position_cons]
    rw [insert_of_position place, insert_of_not_mem known, insert_of_not_mem known]
    simp

end Lexicon

namespace Dictionary

variable {ν : Type}

theorem find?_eq (dictionary : Dictionary ν) (name : String) :
    dictionary.find? name = (dictionary.user.find? name).or (dictionary.natives.find? name) := by
  cases place : dictionary.user.position? name with
  | none =>
    have none : dictionary.user.find? name = none := by rw [Lexicon.find?, place, Option.bind_none]
    rw [find?, place, none, Option.none_or]
  | some i =>
    have inside := Lexicon.position_lt place
    have some := Lexicon.find?_eq place
    rw [find?, place, some]
    simp [List.getElem?_eq_getElem inside]

@[simp] theorem natives_define (dictionary : Dictionary ν) (name : String) (word : Word ν) :
    (dictionary.define name word).natives = dictionary.natives := rfl

@[simp] theorem user_define (dictionary : Dictionary ν) (name : String) (word : Word ν) :
    (dictionary.define name word).user = dictionary.user.insert name word := rfl

@[simp] theorem find?_define_self (dictionary : Dictionary ν) (name : String) (word : Word ν) :
    (dictionary.define name word).find? name = some word := by
  simp [find?_eq]

theorem find?_define_of_ne {dictionary : Dictionary ν} {name other : String} (h : other ≠ name)
    (word : Word ν) : (dictionary.define name word).find? other = dictionary.find? other := by
  simp [find?_eq, Lexicon.find?_insert_of_ne h]

@[simp] theorem define_define (dictionary : Dictionary ν) (name : String) (first second : Word ν) :
    (dictionary.define name first).define name second = dictionary.define name second := by
  simp [define]

@[simp] theorem body?_define_self (dictionary : Dictionary ν) (name : String) (word : Word ν) :
    (dictionary.define name word).body? name = word.tokens? := by
  simp [body?]

/-- What an edit of a body comes to. -/
theorem editBody?_eq_some {dictionary next : Dictionary ν} {name : String}
    {edit : List String → List String} (h : dictionary.editBody? name edit = some next) :
    ∃ word tokens, dictionary.user.find? name = some word ∧ word.tokens? = some tokens ∧
      next = dictionary.define name { word with body := .compiled (edit tokens) } := by
  rw [editBody?] at h
  cases found : dictionary.user.find? name with
  | none => simp [found] at h
  | some word =>
    cases tokens : word.tokens? with
    | none => simp [found, tokens] at h
    | some body =>
      simp only [found, tokens, Option.map_some, Option.some.injEq] at h
      exact ⟨word, body, rfl, tokens, h.symm⟩

theorem exists_editBody? {dictionary : Dictionary ν} {name : String} {tokens : List String}
    (h : dictionary.body? name = some tokens) (edit : List String → List String) :
    ∃ next, dictionary.editBody? name edit = some next := by
  obtain ⟨word, found, body⟩ := Option.bind_eq_some_iff.mp h
  refine ⟨dictionary.define name { word with body := .compiled (edit tokens) }, ?_⟩
  simp [editBody?, found, body]

@[simp] theorem editBody?_define_compiled (dictionary : Dictionary ν) (name : String)
    (immediate : Bool) (tokens : List String) (edit : List String → List String) :
    (dictionary.define name (.compiled immediate tokens)).editBody? name edit =
      some (dictionary.define name (.compiled immediate (edit tokens))) := by
  rw [editBody?, user_define, Lexicon.find?_insert_self]
  simp [Word.tokens?, Word.compiled]

end Dictionary
end ResumableForth
