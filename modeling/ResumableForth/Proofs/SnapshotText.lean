import Mathlib.Data.List.Forall2
import ResumableForth.Proofs.JsonText
import ResumableForth.Snapshot

/-! Which texts say what is in a snapshot. A record is an object with its fields, in any order and among
others, or an array of their values; what the fields hold is said by relations between JSON values and parts
of a snapshot, which do not follow the reader. A text is read as the snapshot that it says, and as no other;
and a snapshot whose cursor is a 64-bit count is said by the text that is written for it. -/
namespace ResumableForth
namespace Snapshot

open Json

def spread (fields : List (String × List Json)) : List (String × Json) :=
  fields.flatMap fun field => field.2.map (Prod.mk field.1)

/-- The members of an object are the fields, and others under other names, in any order. -/
def Holds (fields : List (String × List Json)) (members : List (Option String × Json)) : Prop :=
  ∃ others : List (String × Json), (∀ other ∈ others, other.1 ∉ fields.map Prod.fst) ∧
    members.Perm ((spread fields ++ others).map fun member => (some member.1, member.2))

/-- A record is an object with its fields, or an array of their values, where only the last one may be
missing. -/
def IsRecord (fields : List (String × List Json)) (json : Json) : Prop :=
  (∃ members, json = .object members ∧ Holds fields members) ∨
    json = .array (fields.flatMap Prod.snd) ∧ ∀ field ∈ fields.dropLast, field.2 ≠ []

def IsText (json : Json) (s : String) : Prop := json = .string (some s)

def IsList {α : Type} (is : Json → α → Prop) (json : Json) (xs : List α) : Prop :=
  ∃ items, json = .array items ∧ List.Forall₂ is items xs

def IsName {α : Type} (name : α → String) (json : Json) (x : α) : Prop :=
  json = .string (some (name x)) ∨ json = .object [(some (name x), .null)]

def IsCount (json : Json) (n : Nat) : Prop := n < 2 ^ 64 ∧ json = .number (Decimal.numeral n)

def IsOptional {α : Type} (is : Json → α → Prop) (json : Json) (x : Option α) : Prop :=
  json = .null ∧ x = none ∨ ∃ y, is json y ∧ x = some y

/-- A field that may be missing, and then has a value of its own. -/
def IsDefault {α : Type} (is : Json → α → Prop) (default : α) : Option Json → α → Prop
  | some json, x => is json x
  | none, x => x = default

def IsEntry (json : Json) (entry : StackEntry) : Prop :=
  ∃ tag text, IsName Tag.name tag entry.tag ∧ IsText text entry.text ∧
    IsRecord [("type", [tag]), ("value", [text])] json

def IsWord (json : Json) (word : WordEntry) : Prop :=
  ∃ name immediate tokens, IsText name word.name ∧ immediate = .bool word.immediate ∧
    IsList IsText tokens word.tokens ∧
    IsRecord [("WordName", [name]), ("IsImmediate", [immediate]), ("WordText", [tokens])] json

def IsSnapshot (json : Json) (snapshot : Snapshot) : Prop :=
  ∃ stack words input cursor mode openWord output, IsList IsEntry stack snapshot.stack ∧
    IsList IsWord words snapshot.words ∧ IsList IsText input snapshot.input ∧
    IsCount cursor snapshot.cursor ∧ IsName Mode.name mode snapshot.mode ∧
    IsDefault (IsOptional IsText) none openWord snapshot.openWord ∧
    IsDefault IsText "" output snapshot.output ∧
    IsRecord [("DataStack", [stack]), ("WordDict", [words]), ("Input", [input]), ("InputIndex", [cursor]),
      ("Mode", [mode]), ("CurWord", openWord.toList), ("Output", output.toList)] json

/-- A text says what is in a snapshot. -/
def SaidBy (snapshot : Snapshot) (source : String) : Prop :=
  ∃ json : Json, json.SpelledBy source ∧ IsSnapshot json snapshot

theorem mapM_eq_some_iff {α β : Type} {f : α → Option β} {xs : List α} {ys : List β} :
    xs.mapM f = some ys ↔ List.Forall₂ (fun x y => f x = some y) xs ys := by
  induction xs generalizing ys with
  | nil =>
    rw [List.mapM_nil, List.forall₂_nil_left_iff]
    exact ⟨fun h => (Option.some.inj h).symm, fun h => congrArg some h.symm⟩
  | cons x xs ih =>
    rw [List.mapM_cons, List.forall₂_cons_left_iff]
    constructor
    · intro h
      obtain ⟨y, first, rest⟩ := Option.bind_eq_some_iff.mp h
      obtain ⟨ys', later, same⟩ := Option.bind_eq_some_iff.mp rest
      cases same
      exact ⟨y, ys', first, ih.mp later, rfl⟩
    · rintro ⟨y, ys', first, later, rfl⟩
      rw [first, ih.mpr later]
      rfl

theorem members?_eq_some_iff {members : List (Option String × Json)} {named : List (String × Json)} :
    members? members = some named ↔ members = named.map fun member => (some member.1, member.2) := by
  have one (member : Option String × Json) (other : String × Json) :
      (member.1.map fun key => (key, member.2)) = some other ↔ member = (some other.1, other.2) := by
    obtain ⟨key, value⟩ := member
    obtain ⟨name, content⟩ := other
    cases key <;> simp
  rw [members?, mapM_eq_some_iff]
  simp only [one]
  rw [← List.forall₂_map_right_iff (R := Eq), List.forall₂_eq_eq_eq]

section Fields

variable {α : Type} {members : List (String × Json)} {name : String} {item? : Json → Option α} {x : α}

theorem field?_eq_some_iff :
    field? members name item? = some x ↔ ∃ value, valuesOf name members = [value] ∧ item? value = some x := by
  rw [field?]
  split
  · rename_i value single
    simp [single]
  · rename_i other
    constructor
    · rintro ⟨⟩
    · rintro ⟨value, single, -⟩
      exact absurd single (other value)

theorem fieldOr?_eq_some_iff {default : α} :
    fieldOr? members name default item? = some x ↔
      ∃ value : Option Json, valuesOf name members = value.toList ∧
        IsDefault (fun json x => item? json = some x) default value x := by
  rw [fieldOr?]
  constructor
  · intro h
    split at h
    · rename_i missing
      exact ⟨none, missing, (Option.some.inj h).symm⟩
    · rename_i value single
      exact ⟨some value, single, h⟩
    · cases h
  · rintro ⟨value, values, is⟩
    cases value with
    | none =>
      rw [values]
      exact congrArg some is.symm
    | some value =>
      rw [values]
      exact is

theorem map_mk_valuesOf (name : String) (members : List (String × Json)) :
    (valuesOf name members).map (Prod.mk name) = members.filter fun member => decide (member.1 = name) := by
  have same : ∀ member ∈ members.filter fun member => decide (member.1 = name),
      (Prod.mk name ∘ Prod.snd) member = id member := by
    intro member mem
    obtain rfl : member.1 = name := of_decide_eq_true (List.mem_filter.mp mem).2
    rfl
  rw [valuesOf, List.map_map, List.map_congr_left same, List.map_id]

theorem valuesOf_append (name : String) (front back : List (String × Json)) :
    valuesOf name (front ++ back) = valuesOf name front ++ valuesOf name back := by
  simp [valuesOf]

theorem valuesOf_eq_nil (other : ∀ member ∈ members, member.1 ≠ name) : valuesOf name members = [] := by
  rw [valuesOf, List.map_eq_nil_iff, List.filter_eq_nil_iff]
  intro member mem
  simpa using other member mem

theorem valuesOf_map_mk (name : String) (values : List Json) :
    valuesOf name (values.map (Prod.mk name)) = values := by
  induction values with
  | nil => rfl
  | cons value values ih => simpa [valuesOf] using ih

theorem name_of_mem_spread {fields : List (String × List Json)} {member : String × Json}
    (mem : member ∈ spread fields) : member.1 ∈ fields.map Prod.fst := by
  obtain ⟨field, there, value⟩ := List.mem_flatMap.mp mem
  obtain ⟨_, -, rfl⟩ := List.mem_map.mp value
  exact List.mem_map_of_mem there

theorem valuesOf_spread {fields : List (String × List Json)} (distinct : (fields.map Prod.fst).Nodup)
    {field : String × List Json} (mem : field ∈ fields) : valuesOf field.1 (spread fields) = field.2 := by
  induction fields with
  | nil => cases mem
  | cons first fields ih =>
    obtain ⟨fresh, rest⟩ := List.nodup_cons.mp distinct
    have parts : spread (first :: fields) = first.2.map (Prod.mk first.1) ++ spread fields := rfl
    rw [parts, valuesOf_append]
    rcases List.mem_cons.mp mem with rfl | there
    · rw [valuesOf_map_mk, valuesOf_eq_nil, List.append_nil]
      rintro member there same
      exact fresh (same ▸ name_of_mem_spread there)
    · rw [ih rest there, valuesOf_eq_nil, List.nil_append]
      intro member mem same
      obtain ⟨_, -, rfl⟩ := List.mem_map.mp mem
      exact fresh (same ▸ List.mem_map_of_mem there)

/-- Members in the order of names, with all others behind them. -/
theorem perm_flatMap_filter {names : List String} (distinct : names.Nodup) (members : List (String × Json)) :
    members.Perm ((names.flatMap fun name => members.filter fun member => decide (member.1 = name)) ++
      members.filter fun member => decide (member.1 ∉ names)) := by
  induction names generalizing members with
  | nil => simp
  | cons name names ih =>
    obtain ⟨fresh, rest⟩ := List.nodup_cons.mp distinct
    have split := List.filter_append_perm (fun member : String × Json => decide (member.1 = name)) members
    have later := ih rest (members.filter fun member => !decide (member.1 = name))
    have same : (names.flatMap fun other =>
        (members.filter fun member => !decide (member.1 = name)).filter
          fun member => decide (member.1 = other)) =
        names.flatMap fun other => members.filter fun member => decide (member.1 = other) := by
      apply List.flatMap_congr
      intro other there
      rw [List.filter_filter]
      apply List.filter_congr
      intro member _
      by_cases is : member.1 = other
      · have differs : other ≠ name := fun same => fresh (same ▸ there)
        simp [is, differs]
      · simp [is]
    have outside : (members.filter fun member => !decide (member.1 = name)).filter
        (fun member => decide (member.1 ∉ names)) =
        members.filter fun member => decide (member.1 ∉ name :: names) := by
      rw [List.filter_filter]
      apply List.filter_congr
      intro member _
      by_cases is : member.1 = name <;> simp [is]
    rw [same, outside] at later
    rw [List.flatMap_cons, List.append_assoc]
    exact split.symm.trans (later.append_left _)

end Fields

theorem exists_map_of_isSome {members : List (Option String × Json)}
    (h : ∀ member ∈ members, member.1.isSome = true) :
    ∃ named : List (String × Json), members = named.map fun member => (some member.1, member.2) := by
  induction members with
  | nil => exact ⟨[], rfl⟩
  | cons member members ih =>
    obtain ⟨first, others⟩ := List.forall_mem_cons.mp h
    obtain ⟨key, named⟩ := Option.isSome_iff_exists.mp first
    obtain ⟨rest, rfl⟩ := ih others
    exact ⟨(key, member.2) :: rest, by rw [List.map_cons, ← named]⟩

theorem valuesOf_of_perm {fields : List (String × List Json)} (distinct : (fields.map Prod.fst).Nodup)
    {others named : List (String × Json)} (apart : ∀ other ∈ others, other.1 ∉ fields.map Prod.fst)
    (perm : named.Perm (spread fields ++ others)) {field : String × List Json} (mem : field ∈ fields)
    (single : field.2.length ≤ 1) : valuesOf field.1 named = field.2 := by
  have missing : valuesOf field.1 others = [] := by
    apply valuesOf_eq_nil
    intro other there same
    exact apart other there (same ▸ List.mem_map_of_mem mem)
  have values := (perm.filter fun member => decide (member.1 = field.1)).map Prod.snd
  change (valuesOf field.1 named).Perm (valuesOf field.1 (spread fields ++ others)) at values
  rw [valuesOf_append, valuesOf_spread distinct mem, missing, List.append_nil] at values
  cases content : field.2 with
  | nil =>
    rw [content] at values
    exact values.eq_nil
  | cons value rest =>
    rw [content, List.length_cons] at single
    obtain rfl : rest = [] := List.eq_nil_of_length_eq_zero (by omega)
    rw [content] at values
    exact List.perm_singleton.mp values

/-- An object holds its fields when each name has its value, whatever the order of the members. -/
theorem holds_iff (fields : List (String × List Json)) (distinct : (fields.map Prod.fst).Nodup)
    (single : ∀ field ∈ fields, field.2.length ≤ 1) {members : List (Option String × Json)} :
    Holds fields members ↔
      ∃ named, members? members = some named ∧ ∀ field ∈ fields, valuesOf field.1 named = field.2 := by
  constructor
  · rintro ⟨others, apart, perm⟩
    have keyed : ∀ member ∈ members, member.1.isSome = true := by
      intro member mem
      obtain ⟨_, -, rfl⟩ := List.mem_map.mp (perm.subset mem)
      rfl
    obtain ⟨named, rfl⟩ := exists_map_of_isSome keyed
    have same : named.Perm (spread fields ++ others) := by
      have back := perm.filterMap fun member => member.1.map fun key => (key, member.2)
      rw [List.filterMap_map, List.filterMap_map] at back
      simpa [Function.comp_def] using back
    refine ⟨named, members?_eq_some_iff.mpr rfl, fun field mem => ?_⟩
    exact valuesOf_of_perm distinct apart same mem (single field mem)
  · rintro ⟨named, listed, values⟩
    obtain rfl := members?_eq_some_iff.mp listed
    refine ⟨named.filter fun member => decide (member.1 ∉ fields.map Prod.fst), ?_, ?_⟩
    · intro other mem
      exact of_decide_eq_true (List.mem_filter.mp mem).2
    · have fields' : spread fields = (fields.map Prod.fst).flatMap
          fun name => named.filter fun member => decide (member.1 = name) := by
        rw [spread, List.flatMap_map]
        apply List.flatMap_congr
        intro field mem
        rw [← values field mem, map_mk_valuesOf]
      rw [fields']
      exact (perm_flatMap_filter distinct named).map _

theorem text?_eq_some_iff {json : Json} {s : String} : text? json = some s ↔ IsText json s := by
  rw [IsText]
  cases json <;> simp [text?]

theorem bool?_eq_some_iff {json : Json} {b : Bool} : bool? json = some b ↔ json = .bool b := by
  cases json <;> simp [bool?]

theorem list?_eq_some_iff {α : Type} {item? : Json → Option α} {is : Json → α → Prop}
    (items : ∀ json x, item? json = some x ↔ is json x) {json : Json} {xs : List α} :
    list? item? json = some xs ↔ IsList is json xs := by
  cases json with
  | array values => simp [list?, IsList, mapM_eq_some_iff, items]
  | _ => simp [list?, IsList]

theorem name?_eq_some_iff {α : Type} {ofName? : String → Option α} {name : α → String}
    (names : ∀ s x, ofName? s = some x ↔ s = name x) {json : Json} {x : α} :
    name? ofName? json = some x ↔ IsName name json x := by
  rw [name?.eq_def]
  constructor
  · intro h
    split at h
    · exact .inl (by rw [(names _ _).mp h])
    · exact .inr (by rw [(names _ _).mp h])
    · cases h
  · rintro (rfl | rfl)
    · exact (names _ _).mpr rfl
    · exact (names _ _).mpr rfl

theorem optional?_eq_some_iff {α : Type} {item? : Json → Option α} {is : Json → α → Prop}
    (items : ∀ json x, item? json = some x ↔ is json x) (null : item? .null = none) {json : Json}
    {x : Option α} : optional? item? json = some x ↔ IsOptional is json x := by
  rw [optional?.eq_def, IsOptional]
  split
  · constructor
    · rintro ⟨⟩
      exact .inl ⟨rfl, rfl⟩
    · rintro (⟨-, rfl⟩ | ⟨y, given, -⟩)
      · rfl
      · rw [← items, null] at given
        cases given
  · rename_i value other
    rw [Option.map_eq_some_iff]
    constructor
    · rintro ⟨y, read, rfl⟩
      exact .inr ⟨y, (items _ _).mp read, rfl⟩
    · rintro (⟨rfl, -⟩ | ⟨y, given, rfl⟩)
      · exact absurd rfl other
      · exact ⟨y, (items _ _).mpr given, rfl⟩

theorem count?_numeral {n : Nat} (h : n < 2 ^ 64) : count? (.number (Decimal.numeral n)) = some n := by
  have counted : n < UInt64.size := h
  rw [count?, Decimal.toList_numeral, Decimal.natural?_toDigits, Option.filter_some,
    if_pos (decide_eq_true counted)]

theorem count?_eq_some_iff {json : Json} (written : Written json) {n : Nat} :
    count? json = some n ↔ IsCount json n := by
  constructor
  · intro h
    cases json with
    | number numeral =>
      rw [count?, Option.filter_eq_some_iff] at h
      have digits := eq_toDigits_of_natural? (written numeral (by simp [tokensOf])) h.1
      refine ⟨of_decide_eq_true h.2, ?_⟩
      rw [Decimal.numeral, ← digits, String.ofList_toList]
    | _ => cases h
  · rintro ⟨counted, rfl⟩
    exact count?_numeral counted

theorem tag_ofName?_eq_some_iff (s : String) (tag : Tag) : Tag.ofName? s = some tag ↔ s = tag.name := by
  constructor
  · intro h
    rw [Tag.ofName?.eq_def] at h
    split at h <;> cases h <;> rfl
  · rintro rfl
    exact Tag.ofName?_name tag

theorem mode_ofName?_eq_some_iff (s : String) (mode : Mode) : Mode.ofName? s = some mode ↔ s = mode.name := by
  constructor
  · intro h
    rw [Mode.ofName?.eq_def] at h
    split at h <;> cases h <;> rfl
  · rintro rfl
    exact Mode.ofName?_name mode

theorem tag?_eq_some_iff {json : Json} {tag : Tag} :
    name? Tag.ofName? json = some tag ↔ IsName Tag.name json tag := name?_eq_some_iff tag_ofName?_eq_some_iff

theorem mode?_eq_some_iff {json : Json} {mode : Mode} :
    name? Mode.ofName? json = some mode ↔ IsName Mode.name json mode :=
  name?_eq_some_iff mode_ofName?_eq_some_iff

theorem texts?_eq_some_iff {json : Json} {ss : List String} :
    list? text? json = some ss ↔ IsList IsText json ss := list?_eq_some_iff fun _ _ => text?_eq_some_iff

theorem entry?_eq_some_iff (json : Json) (entry : StackEntry) :
    entry? json = some entry ↔ IsEntry json entry := by
  constructor
  · intro h
    rw [ entry?.eq_def] at h
    split at h
    · rename_i members
      simp only [Option.bind_eq_bind, Option.bind_eq_some_iff, field?_eq_some_iff, tag?_eq_some_iff,
        text?_eq_some_iff] at h
      obtain ⟨named, listed, tag, ⟨tagJson, tags, isTag⟩, text, ⟨textJson, texts, isText⟩, made⟩ := h
      cases made
      refine ⟨tagJson, textJson, isTag, isText, .inl ⟨members, rfl, ?_⟩⟩
      exact (holds_iff _ (by simp) (by simp)).mpr ⟨named, listed, by simp [tags, texts]⟩
    · rename_i tagJson textJson
      simp only [Option.bind_eq_bind, Option.bind_eq_some_iff, tag?_eq_some_iff, text?_eq_some_iff] at h
      obtain ⟨tag, isTag, text, isText, made⟩ := h
      cases made
      exact ⟨tagJson, textJson, isTag, isText, .inr ⟨rfl, by simp⟩⟩
    · cases h
  · rintro ⟨tag, text, isTag, isText, record⟩
    rw [← tag?_eq_some_iff] at isTag
    rw [← text?_eq_some_iff] at isText
    rcases record with ⟨members, rfl, holds⟩ | ⟨rfl, -⟩
    · obtain ⟨named, listed, values⟩ := (holds_iff _ (by simp) (by simp)).mp holds
      simp only [List.forall_mem_cons] at values
      simp [ entry?, listed, field?, values, isTag, isText]
    · simp [ entry?, isTag, isText]

theorem word?_eq_some_iff (json : Json) (word : WordEntry) : word? json = some word ↔ IsWord json word := by
  constructor
  · intro h
    rw [word?.eq_def] at h
    split at h
    · rename_i members
      simp only [Option.bind_eq_bind, Option.bind_eq_some_iff, field?_eq_some_iff, text?_eq_some_iff,
        bool?_eq_some_iff, texts?_eq_some_iff] at h
      obtain ⟨named, listed, name, ⟨nameJson, names, isName⟩, immediate, ⟨immediateJson, flags, isFlag⟩,
        tokens, ⟨tokensJson, bodies, isBody⟩, made⟩ := h
      cases made
      refine ⟨nameJson, immediateJson, tokensJson, isName, isFlag, isBody, .inl ⟨members, rfl, ?_⟩⟩
      exact (holds_iff _ (by simp) (by simp)).mpr ⟨named, listed, by simp [names, flags, bodies]⟩
    · rename_i nameJson immediateJson tokensJson
      simp only [Option.bind_eq_bind, Option.bind_eq_some_iff, text?_eq_some_iff, bool?_eq_some_iff,
        texts?_eq_some_iff] at h
      obtain ⟨name, isName, immediate, isFlag, tokens, isBody, made⟩ := h
      cases made
      exact ⟨nameJson, immediateJson, tokensJson, isName, isFlag, isBody, .inr ⟨rfl, by simp⟩⟩
    · cases h
  · rintro ⟨name, immediate, tokens, isName, isFlag, isBody, record⟩
    rw [← text?_eq_some_iff] at isName
    rw [← bool?_eq_some_iff] at isFlag
    rw [← texts?_eq_some_iff] at isBody
    rcases record with ⟨members, rfl, holds⟩ | ⟨rfl, -⟩
    · obtain ⟨named, listed, values⟩ := (holds_iff _ (by simp) (by simp)).mp holds
      simp only [List.forall_mem_cons] at values
      simp [word?, listed, field?, values, isName, isFlag, isBody]
    · simp [word?, isName, isFlag, isBody]

theorem entries?_eq_some_iff {json : Json} {entries : List StackEntry} :
    list? entry? json = some entries ↔ IsList IsEntry json entries := list?_eq_some_iff entry?_eq_some_iff

theorem words?_eq_some_iff {json : Json} {words : List WordEntry} :
    list? word? json = some words ↔ IsList IsWord json words := list?_eq_some_iff word?_eq_some_iff

theorem openWord?_eq_some_iff {json : Json} {openWord : Option String} :
    optional? text? json = some openWord ↔ IsOptional IsText json openWord :=
  optional?_eq_some_iff (fun _ _ => text?_eq_some_iff) rfl

theorem written_of_valuesOf {members : List (Option String × Json)} {named : List (String × Json)}
    (written : Written (.object members)) (listed : members? members = some named) {name : String}
    {value : Json} (values : valuesOf name named = [value]) : Written value := by
  obtain rfl := members?_eq_some_iff.mp listed
  have mem : value ∈ valuesOf name named := by simp [values]
  obtain ⟨member, there, rfl⟩ := List.mem_map.mp mem
  exact (written_object _).mp written _ (List.mem_map_of_mem (List.mem_filter.mp there).1)

section Record

variable {stack words input cursor mode openWord : Json} {snapshot : Snapshot}

theorem ofFields?_eq_some_iff {output : String} (written : Written cursor) :
    ofFields? stack words input cursor mode openWord output = some snapshot ↔
      IsList IsEntry stack snapshot.stack ∧ IsList IsWord words snapshot.words ∧
      IsList IsText input snapshot.input ∧ IsCount cursor snapshot.cursor ∧
      IsName Mode.name mode snapshot.mode ∧ IsOptional IsText openWord snapshot.openWord ∧
      output = snapshot.output := by
  simp only [← entries?_eq_some_iff, ← words?_eq_some_iff, ← texts?_eq_some_iff,
    ← count?_eq_some_iff written, ← mode?_eq_some_iff, ← openWord?_eq_some_iff]
  constructor
  · intro h
    simp only [ofFields?, Option.bind_eq_bind, Option.bind_eq_some_iff] at h
    obtain ⟨_, stack, _, words, _, input, _, cursor, _, mode, _, openWord, made⟩ := h
    cases made
    exact ⟨stack, words, input, cursor, mode, openWord, rfl⟩
  · rintro ⟨stack, words, input, cursor, mode, openWord, rfl⟩
    simp [ofFields?, stack, words, input, cursor, mode, openWord]

end Record

theorem ofJson?_object_eq_some_iff {members : List (Option String × Json)}
    (written : Written (.object members)) (snapshot : Snapshot) :
    ofJson? (.object members) = some snapshot ↔ IsSnapshot (.object members) snapshot := by
  simp only [ofJson?, Option.bind_eq_bind, Option.bind_eq_some_iff, field?_eq_some_iff,
    fieldOr?_eq_some_iff, entries?_eq_some_iff, words?_eq_some_iff, texts?_eq_some_iff, mode?_eq_some_iff,
    openWord?_eq_some_iff, text?_eq_some_iff]
  constructor
  · rintro ⟨named, listed, _, ⟨stack, stackAt, isStack⟩, _, ⟨words, wordsAt, isWords⟩,
      _, ⟨input, inputAt, isInput⟩, _, ⟨cursor, cursorAt, isCursor⟩, _, ⟨mode, modeAt, isMode⟩,
      _, ⟨openWord, openAt, isOpen⟩, _, ⟨output, outputAt, isOutput⟩, made⟩
    cases made
    rw [count?_eq_some_iff (written_of_valuesOf written listed cursorAt)] at isCursor
    refine ⟨stack, words, input, cursor, mode, openWord, output, isStack, isWords, isInput, isCursor, isMode,
      isOpen, isOutput, .inl ⟨members, rfl, (holds_iff _ (by simp) ?_).mpr ⟨named, listed, ?_⟩⟩⟩
    · simp [Option.length_toList_le]
    · simp [stackAt, wordsAt, inputAt, cursorAt, modeAt, openAt, outputAt]
  · rintro ⟨stack, words, input, cursor, mode, openWord, output, isStack, isWords, isInput, isCursor, isMode,
      isOpen, isOutput, ⟨_, same, holds⟩ | ⟨same, -⟩⟩
    · cases same
      obtain ⟨named, listed, values⟩ := (holds_iff _ (by simp) (by simp [Option.length_toList_le])).mp holds
      simp only [List.forall_mem_cons] at values
      obtain ⟨stackAt, wordsAt, inputAt, cursorAt, modeAt, openAt, outputAt, -⟩ := values
      rw [← count?_eq_some_iff (written_of_valuesOf written listed cursorAt)] at isCursor
      exact ⟨named, listed, _, ⟨stack, stackAt, isStack⟩, _, ⟨words, wordsAt, isWords⟩,
        _, ⟨input, inputAt, isInput⟩, _, ⟨cursor, cursorAt, isCursor⟩, _, ⟨mode, modeAt, isMode⟩,
        _, ⟨openWord, openAt, isOpen⟩, _, ⟨output, outputAt, isOutput⟩, rfl⟩
    · cases same

theorem ofJson?_array_eq_some_iff {items : List Json} (written : Written (.array items))
    (snapshot : Snapshot) : ofJson? (.array items) = some snapshot ↔ IsSnapshot (.array items) snapshot := by
  rw [written_array] at written
  constructor
  · intro h
    rw [ofJson?.eq_def] at h
    split at h
    · rename_i same
      cases same
    · rename_i stack words input cursor mode openWord same
      cases same
      rw [ofFields?_eq_some_iff (written cursor (by simp))] at h
      obtain ⟨isStack, isWords, isInput, isCursor, isMode, isOpen, isOutput⟩ := h
      exact ⟨stack, words, input, cursor, mode, some openWord, none, isStack, isWords, isInput, isCursor,
        isMode, isOpen, isOutput.symm, .inr ⟨rfl, by simp⟩⟩
    · rename_i stack words input cursor mode openWord output same
      cases same
      obtain ⟨text, isText, h⟩ := Option.bind_eq_some_iff.mp h
      rw [ofFields?_eq_some_iff (written cursor (by simp))] at h
      obtain ⟨isStack, isWords, isInput, isCursor, isMode, isOpen, rfl⟩ := h
      exact ⟨stack, words, input, cursor, mode, some openWord, some output, isStack, isWords, isInput,
        isCursor, isMode, isOpen, text?_eq_some_iff.mp isText, .inr ⟨rfl, by simp⟩⟩
    · cases h
  · rintro ⟨stack, words, input, cursor, mode, openWord, output, isStack, isWords, isInput, isCursor, isMode,
      isOpen, isOutput, ⟨_, same, -⟩ | ⟨same, full⟩⟩
    · cases same
    · cases same
      obtain ⟨openWord, rfl⟩ : ∃ json, openWord = some json := by
        cases openWord with
        | none => simp at full
        | some json => exact ⟨json, rfl⟩
      have fields := (ofFields?_eq_some_iff (written cursor (by simp))).mpr
        ⟨isStack, isWords, isInput, isCursor, isMode, isOpen, rfl⟩
      cases output with
      | none =>
        have empty : snapshot.output = "" := isOutput
        rw [empty] at fields
        exact fields
      | some output =>
        have text := text?_eq_some_iff.mpr isOutput
        simp [ofJson?, text, fields]

/-- A value whose numbers are numerals is taken for a snapshot when it is one. -/
theorem ofJson?_eq_some_iff {json : Json} (written : Written json) (snapshot : Snapshot) :
    ofJson? json = some snapshot ↔ IsSnapshot json snapshot := by
  cases json with
  | object members => exact ofJson?_object_eq_some_iff written snapshot
  | array items => exact ofJson?_array_eq_some_iff written snapshot
  | _ => simp [ofJson?, IsSnapshot, IsRecord]

/-- A text is read as the snapshot that it says. -/
theorem decode?_eq_some_iff (source : String) (snapshot : Snapshot) :
    decode? source = some snapshot ↔ snapshot.SaidBy source := by
  rw [decode?, Option.bind_eq_some_iff]
  simp only [parse?_eq_some_iff]
  constructor
  · rintro ⟨json, spelled, read⟩
    exact ⟨json, spelled, (ofJson?_eq_some_iff (written_of_spelledBy spelled) snapshot).mp read⟩
  · rintro ⟨json, spelled, is⟩
    exact ⟨json, spelled, (ofJson?_eq_some_iff (written_of_spelledBy spelled) snapshot).mpr is⟩

theorem counted_of_saidBy {source : String} {snapshot : Snapshot} (h : snapshot.SaidBy source) :
    snapshot.cursor < 2 ^ 64 := by
  obtain ⟨_, -, _, _, _, _, _, _, _, -, -, -, counted, -⟩ := h
  exact counted.1

/-- A text says one thing at most. -/
theorem SaidBy.unique {source : String} {snapshot other : Snapshot} (h : snapshot.SaidBy source)
    (h' : other.SaidBy source) : other = snapshot := by
  rw [← decode?_eq_some_iff] at h h'
  exact Option.some.inj (h'.symm.trans h)

theorem isRecord_record (fields : List (String × Json)) :
    IsRecord (fields.map fun field => (field.1, [field.2])) (record fields) := by
  refine .inl ⟨_, rfl, [], List.forall_mem_nil _, ?_⟩
  simp [spread, List.flatMap_map]

theorem isList_map {α : Type} {is : Json → α → Prop} {write : α → Json} (h : ∀ x, is (write x) x)
    (xs : List α) : IsList is (.array (xs.map write)) xs := by
  refine ⟨_, rfl, ?_⟩
  rw [List.forall₂_map_left_iff, List.forall₂_same]
  exact fun x _ => h x

theorem isList_texts (ss : List String) : IsList IsText (texts ss) ss := by
  have one (s : String) : IsText (text s) s := rfl
  exact isList_map one ss

theorem isEntry_jsonOfEntry (entry : StackEntry) : IsEntry (jsonOfEntry entry) entry :=
  ⟨_, _, .inl rfl, rfl, isRecord_record _⟩

theorem isWord_jsonOfWord (word : WordEntry) : IsWord (jsonOfWord word) word :=
  ⟨_, _, _, rfl, rfl, isList_texts _, isRecord_record _⟩

theorem isSnapshot_toJson {snapshot : Snapshot} (h : snapshot.cursor < 2 ^ 64) :
    IsSnapshot snapshot.toJson snapshot := by
  refine ⟨_, _, _, _, _, some _, some _, isList_map isEntry_jsonOfEntry _, isList_map isWord_jsonOfWord _,
    isList_texts _, ⟨h, rfl⟩, .inl rfl, ?_, rfl, isRecord_record _⟩
  cases snapshot.openWord with
  | none => exact .inl ⟨rfl, rfl⟩
  | some name => exact .inr ⟨name, rfl, rfl⟩

@[simp] theorem written_text (s : String) : Written (text s) := by
  intro numeral mem
  simp [text, tokensOf] at mem

@[simp] theorem written_texts (ss : List String) : Written (texts ss) := by
  rw [texts, written_array]
  simp

theorem written_record (members : List (String × Json)) :
    Written (record members) ↔ ∀ member ∈ members, Written member.2 := by
  rw [record, written_object, List.forall_mem_map]

theorem written_jsonOfEntry (entry : StackEntry) : Written (jsonOfEntry entry) := by
  simp [jsonOfEntry, written_record]

theorem written_jsonOfWord (word : WordEntry) : Written (jsonOfWord word) := by
  have flag : Written (.bool word.immediate) := by
    intro numeral mem
    simp [tokensOf] at mem
  simp [jsonOfWord, written_record, flag]

theorem written_toJson (snapshot : Snapshot) : Written snapshot.toJson := by
  have entries : Written (.array (snapshot.stack.map jsonOfEntry)) := by
    rw [written_array]
    simp [written_jsonOfEntry]
  have words : Written (.array (snapshot.words.map jsonOfWord)) := by
    rw [written_array]
    simp [written_jsonOfWord]
  have cursor : Written (.number (Decimal.numeral snapshot.cursor)) := by
    intro numeral mem
    simp only [tokensOf, List.mem_singleton, Token.number.injEq] at mem
    rw [mem]
    exact isNumeral_numeral _
  rw [toJson, written_record]
  simp only [List.forall_mem_cons]
  refine ⟨entries, words, written_texts _, cursor, written_text _, ?_, written_text _, by simp⟩
  cases snapshot.openWord with
  | none =>
    intro numeral mem
    simp [tokensOf] at mem
  | some name => exact written_text name

/-- A snapshot is said by its own text. -/
theorem saidBy_encode {snapshot : Snapshot} (h : snapshot.cursor < 2 ^ 64) :
    snapshot.SaidBy snapshot.encode := by
  refine ⟨snapshot.toJson, ?_, isSnapshot_toJson h⟩
  rw [encode, SpelledBy, String.toList_ofList]
  exact spells_render _ (written_toJson snapshot)

theorem decode?_encode {snapshot : Snapshot} (h : snapshot.cursor < 2 ^ 64) :
    decode? snapshot.encode = some snapshot :=
  (decode?_eq_some_iff _ _).mpr (saidBy_encode h)

end Snapshot
end ResumableForth
