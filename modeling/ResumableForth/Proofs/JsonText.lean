import ResumableForth.Proofs.JsonScanning

/-! A text is read as the value that it spells, and as no other. The tokens are followed through the parser,
which puts a value into whatever array or object is open; and what the parser has read at any time are the
tokens of the arrays and objects that are open, as far as they go. The text that a value is printed as spells
the value, so that it is read back. -/
namespace ResumableForth
namespace Json

namespace Parser

def resume (parser : Option Parser) (tokens : List Token) : Option Json :=
  parser.bind fun parser => parser.parse tokens

theorem parse_cons (parser : Parser) (token : Token) (rest : List Token) :
    parser.parse (token :: rest) = resume (parser.feed? token) rest := by
  rw [parse, resume]
  cases parser.feed? token <;> rfl

theorem parse_valueOrClose {token : Token} (h : token ≠ .closeArray) (opened : List Open)
    (rest : List Token) :
    parse (.reading opened .valueOrClose) (token :: rest) =
      parse (.reading opened .value) (token :: rest) := by
  rw [parse_cons, parse_cons]
  simp [feed?, h]

theorem exists_tokensOf_cons (value : Json) :
    ∃ token rest, tokensOf value = token :: rest ∧ token ≠ .closeArray := by
  cases value <;> exact ⟨_, _, rfl, by simp⟩

mutual

theorem parse_tokensOf (value : Json) (opened : List Open) (rest : List Token) :
    parse (.reading opened .value) (tokensOf value ++ rest) = resume (finish value opened) rest := by
  match value with
  | .null => exact parse_cons _ _ _
  | .bool _ => exact parse_cons _ _ _
  | .number _ => exact parse_cons _ _ _
  | .string _ => exact parse_cons _ _ _
  | .array [] =>
    calc
      _ = parse (.reading (.array [] :: opened) .valueOrClose) (.closeArray :: rest) := rfl
      _ = _ := parse_cons _ _ _
  | .array (item :: items) =>
    have first := parse_tokensOf item (.array [] :: opened) (tokensOfItems items ++ .closeArray :: rest)
    have others := parse_tokensOfItems items [item] opened rest
    obtain ⟨token, tokens, head, other⟩ := exists_tokensOf_cons item
    calc
      _ = parse (.reading (.array [] :: opened) .valueOrClose)
          (tokensOf item ++ (tokensOfItems items ++ .closeArray :: rest)) := by
        simp only [tokensOf, tokensOfItems, List.drop_one, List.tail_cons, List.cons_append,
          List.append_assoc, List.nil_append]
        rfl
      _ = parse (.reading (.array [] :: opened) .value)
          (tokensOf item ++ (tokensOfItems items ++ .closeArray :: rest)) := by
        rw [head, List.cons_append, parse_valueOrClose other]
      _ = _ := first.trans others
  | .object [] =>
    calc
      _ = parse (.reading (.object [] :: opened) .keyOrClose) (.closeObject :: rest) := rfl
      _ = _ := parse_cons _ _ _
  | .object ((key, item) :: members) =>
    have first := parse_tokensOf item (.member [] key :: opened)
      (tokensOfMembers members ++ .closeObject :: rest)
    have others := parse_tokensOfMembers members [(key, item)] opened rest
    calc
      _ = parse (.reading (.member [] key :: opened) .value)
          (tokensOf item ++ (tokensOfMembers members ++ .closeObject :: rest)) := by
        simp only [tokensOf, tokensOfMembers, List.drop_one, List.tail_cons, List.cons_append,
          List.append_assoc, List.nil_append]
        rfl
      _ = _ := first.trans others

theorem parse_tokensOfItems (items done : List Json) (opened : List Open) (rest : List Token) :
    parse (.reading (.array done :: opened) .commaOrClose)
        (tokensOfItems items ++ .closeArray :: rest) =
      resume (finish (.array (done.reverse ++ items)) opened) rest := by
  match items with
  | [] => exact (parse_cons _ _ _).trans (by rw [List.append_nil]; rfl)
  | item :: items =>
    have first := parse_tokensOf item (.array done :: opened)
      (tokensOfItems items ++ .closeArray :: rest)
    have others := parse_tokensOfItems items (item :: done) opened rest
    calc
      _ = parse (.reading (.array done :: opened) .value)
          (tokensOf item ++ (tokensOfItems items ++ .closeArray :: rest)) := by
        rw [tokensOfItems, List.cons_append, List.append_assoc]
        rfl
      _ = resume (finish (.array ((item :: done).reverse ++ items)) opened) rest :=
        first.trans others
      _ = _ := by simp

theorem parse_tokensOfMembers (members done : List (Option String × Json)) (opened : List Open)
    (rest : List Token) :
    parse (.reading (.object done :: opened) .commaOrClose)
        (tokensOfMembers members ++ .closeObject :: rest) =
      resume (finish (.object (done.reverse ++ members)) opened) rest := by
  match members with
  | [] => exact (parse_cons _ _ _).trans (by rw [List.append_nil]; rfl)
  | (key, item) :: members =>
    have first := parse_tokensOf item (.member done key :: opened)
      (tokensOfMembers members ++ .closeObject :: rest)
    have others := parse_tokensOfMembers members ((key, item) :: done) opened rest
    calc
      _ = parse (.reading (.member done key :: opened) .value)
          (tokensOf item ++ (tokensOfMembers members ++ .closeObject :: rest)) := by
        rw [tokensOfMembers]
        simp only [List.cons_append, List.append_assoc]
        rfl
      _ = resume (finish (.object (((key, item) :: done).reverse ++ members)) opened) rest :=
        first.trans others
      _ = _ := by simp

end

/-- The tokens of an array that is open, with more behind its items, which are latest first. -/
def begunArray (items : List Json) (more : List Token) : List Token :=
  .openArray :: (tokensOfItems items.reverse ++ more).drop 1

def begunObject (members : List (Option String × Json)) (more : List Token) : List Token :=
  .openObject :: (tokensOfMembers members.reverse ++ more).drop 1

theorem tokensOfItems_append (items more : List Json) :
    tokensOfItems (items ++ more) = tokensOfItems items ++ tokensOfItems more := by
  induction items with
  | nil => rfl
  | cons item items ih => simp [tokensOfItems, ih]

theorem tokensOfMembers_append (members more : List (Option String × Json)) :
    tokensOfMembers (members ++ more) = tokensOfMembers members ++ tokensOfMembers more := by
  induction members with
  | nil => rfl
  | cons member members ih => simp [tokensOfMembers, ih]

theorem drop_one_append {α : Type} {front : List α} (some : front ≠ []) (back : List α) :
    (front ++ back).drop 1 = front.drop 1 ++ back := by
  obtain ⟨x, front, rfl⟩ := List.exists_cons_of_ne_nil some
  rfl

theorem begunArray_append (items : List Json) {more : List Token}
    (some : tokensOfItems items.reverse ++ more ≠ [])
    (next : List Token) : begunArray items more ++ next = begunArray items (more ++ next) := by
  rw [begunArray, begunArray, ← List.append_assoc, drop_one_append some]
  rfl

theorem begunObject_append (members : List (Option String × Json)) {more : List Token}
    (some : tokensOfMembers members.reverse ++ more ≠ []) (next : List Token) :
    begunObject members more ++ next = begunObject members (more ++ next) := by
  rw [begunObject, begunObject, ← List.append_assoc, drop_one_append some]
  rfl

theorem begunArray_cons (item : Json) (items : List Json) :
    begunArray items [.comma] ++ tokensOf item = begunArray (item :: items) [] := by
  rw [begunArray_append items (by simp)]
  simp [begunArray, tokensOfItems_append, tokensOfItems]

theorem begunObject_cons (key : Option String) (value : Json) (members : List (Option String × Json)) :
    begunObject members [.comma, .string key, .colon] ++ tokensOf value =
      begunObject ((key, value) :: members) [] := by
  rw [begunObject_append members (by simp)]
  simp [begunObject, tokensOfMembers_append, tokensOfMembers]

theorem tokensOfItems_ne_nil {items : List Json} (some : items ≠ []) :
    tokensOfItems items.reverse ++ [] ≠ [] := by
  obtain ⟨item, items, rfl⟩ := List.exists_cons_of_ne_nil some
  simp [tokensOfItems_append, tokensOfItems]

theorem tokensOfMembers_ne_nil {members : List (Option String × Json)} (some : members ≠ []) :
    tokensOfMembers members.reverse ++ [] ≠ [] := by
  obtain ⟨member, members, rfl⟩ := List.exists_cons_of_ne_nil some
  simp [tokensOfMembers_append, tokensOfMembers]

theorem tokensOf_array_reverse (items : List Json) :
    begunArray items [] ++ [.closeArray] = tokensOf (.array items.reverse) := by
  rw [begunArray, tokensOf, List.append_nil]
  rfl

theorem tokensOf_object_reverse (members : List (Option String × Json)) :
    begunObject members [] ++ [.closeObject] = tokensOf (.object members.reverse) := by
  rw [begunObject, tokensOf, List.append_nil]
  rfl

/-- The tokens in front of a value inside the arrays and objects that are open. -/
inductive Before : List Open → List Token → Prop
  | nil : Before [] []
  | array {opened : List Open} {tokens : List Token} (items : List Json) (before : Before opened tokens) :
    Before (.array items :: opened) (tokens ++ begunArray items [.comma])
  | member {opened : List Open} {tokens : List Token} (members : List (Option String × Json))
    (key : Option String) (before : Before opened tokens) :
    Before (.member members key :: opened) (tokens ++ begunObject members [.comma, .string key, .colon])

inductive Read : Parser → List Token → Prop
  | done (value : Json) : Read (.done value) (tokensOf value)
  | value {opened : List Open} {tokens : List Token} (before : Before opened tokens) :
    Read (.reading opened .value) tokens
  | valueOrClose {opened : List Open} {tokens : List Token} (before : Before opened tokens) :
    Read (.reading (.array [] :: opened) .valueOrClose) (tokens ++ begunArray [] [])
  | key {opened : List Open} {tokens : List Token} (members : List (Option String × Json))
    (before : Before opened tokens) :
    Read (.reading (.object members :: opened) .key) (tokens ++ begunObject members [.comma])
  | keyOrClose {opened : List Open} {tokens : List Token} (before : Before opened tokens) :
    Read (.reading (.object [] :: opened) .keyOrClose) (tokens ++ begunObject [] [])
  | colon {opened : List Open} {tokens : List Token} (members : List (Option String × Json))
    (key : Option String) (before : Before opened tokens) :
    Read (.reading (.member members key :: opened) .colon)
      (tokens ++ begunObject members [.comma, .string key])
  | items {opened : List Open} {tokens : List Token} {items : List Json} (some : items ≠ [])
    (before : Before opened tokens) :
    Read (.reading (.array items :: opened) .commaOrClose) (tokens ++ begunArray items [])
  | members {opened : List Open} {tokens : List Token} {members : List (Option String × Json)}
    (some : members ≠ []) (before : Before opened tokens) :
    Read (.reading (.object members :: opened) .commaOrClose) (tokens ++ begunObject members [])

variable {opened : List Open} {tokens : List Token} {token : Token} {parser next : Parser}

theorem Before.finish (before : Before opened tokens) (value : Json)
    (finished : finish value opened = some next) : Read next (tokens ++ tokensOf value) := by
  cases before with
  | nil =>
    cases finished
    exact .done value
  | array items before =>
    cases finished
    rw [List.append_assoc, begunArray_cons]
    exact .items (List.cons_ne_nil _ _) before
  | member members key before =>
    cases finished
    rw [List.append_assoc, begunObject_cons]
    exact .members (List.cons_ne_nil _ _) before

theorem Before.beginValue (before : Before opened tokens)
    (begun : beginValue opened token = some next) : Read next (tokens ++ [token]) := by
  cases token with
  | null => exact before.finish .null begun
  | bool b => exact before.finish (.bool b) begun
  | number numeral => exact before.finish (.number numeral) begun
  | string text => exact before.finish (.string text) begun
  | openArray =>
    cases begun
    exact .valueOrClose before
  | openObject =>
    cases begun
    exact .keyOrClose before
  | closeArray | closeObject | comma | colon => cases begun

theorem Before.beginMember (before : Before opened tokens) (members : List (Option String × Json))
    (begun : beginMember (.object members :: opened) token = some next) :
    Read next (tokens ++ begunObject members [.comma] ++ [token]) := by
  cases token with
  | string key =>
    cases begun
    rw [List.append_assoc, begunObject_append members (by simp)]
    exact .colon members key before
  | _ => cases begun

theorem Before.closeArray (before : Before opened tokens) {items : List Json}
    (closed : closeInnermost (.array items :: opened) token = some next) :
    Read next (tokens ++ begunArray items [] ++ [token]) := by
  cases token with
  | closeArray =>
    rw [List.append_assoc, tokensOf_array_reverse]
    exact before.finish _ closed
  | _ => cases closed

theorem Before.closeObject (before : Before opened tokens) {members : List (Option String × Json)}
    (closed : closeInnermost (.object members :: opened) token = some next) :
    Read next (tokens ++ begunObject members [] ++ [token]) := by
  cases token with
  | closeObject =>
    rw [List.append_assoc, tokensOf_object_reverse]
    exact before.finish _ closed
  | _ => cases closed

theorem Read.feed (read : Read parser tokens) (fed : parser.feed? token = some next) :
    Read next (tokens ++ [token]) := by
  cases read with
  | done value => cases fed
  | value before => exact before.beginValue fed
  | valueOrClose before =>
    rw [feed?] at fed
    split at fed
    · exact before.closeArray fed
    · exact (Before.array [] before).beginValue fed
  | key members before => exact before.beginMember members fed
  | keyOrClose before =>
    rw [feed?] at fed
    split at fed
    · exact before.closeObject fed
    · exact before.beginMember [] fed
  | colon members key before =>
    rw [feed?] at fed
    split at fed
    · subst token
      cases fed
      rw [List.append_assoc, begunObject_append members (by simp)]
      exact .value (.member members key before)
    · cases fed
  | @items opened tokens items some before =>
    rw [feed?] at fed
    split at fed
    · subst token
      cases fed
      rw [List.append_assoc, begunArray_append items (tokensOfItems_ne_nil some)]
      exact .value (.array items before)
    · exact before.closeArray fed
  | @members opened tokens members some before =>
    rw [feed?] at fed
    split at fed
    · subst token
      cases fed
      rw [List.append_assoc, begunObject_append members (tokensOfMembers_ne_nil some)]
      exact .key members before
    · exact before.closeObject fed

/-- A value that comes out has been read token by token. -/
theorem Read.parse (read : Read parser tokens) {rest : List Token} {value : Json}
    (parsed : parser.parse rest = some value) : tokens ++ rest = tokensOf value := by
  induction rest generalizing parser tokens with
  | nil =>
    rw [List.append_nil]
    cases read with
    | done value =>
      cases parsed
      rfl
    | _ => cases parsed
  | cons token rest ih =>
    rw [Parser.parse] at parsed
    split at parsed
    · rename_i next fed
      rw [List.append_cons]
      exact ih (read.feed fed) parsed
    · cases parsed

theorem parse_eq_some_iff (tokens : List Token) (value : Json) :
    parse (.reading [] .value) tokens = some value ↔ tokens = tokensOf value := by
  constructor
  · exact (Read.value .nil).parse
  · rintro rfl
    have parsed := parse_tokensOf value [] []
    rw [List.append_nil] at parsed
    exact parsed

end Parser

/-- A text is read as the value that it spells. -/
theorem parse?_eq_some_iff (source : String) (value : Json) :
    parse? source = some value ↔ value.SpelledBy source := by
  rw [parse?, Option.bind_eq_some_iff, ← tokens?_eq_some_iff]
  constructor
  · rintro ⟨tokens, found, parsed⟩
    rw [found, (Parser.parse_eq_some_iff tokens value).mp parsed]
  · intro found
    exact ⟨_, found, (Parser.parse_eq_some_iff _ value).mpr rfl⟩

/-- Are all numbers in the value given by numerals? -/
def Written (value : Json) : Prop :=
  ∀ numeral, .number numeral ∈ tokensOf value → IsNumeral numeral.toList

theorem written_of_spelledBy {value : Json} {source : String} (h : value.SpelledBy source) :
    Written value := by
  intro numeral mem
  obtain ⟨text, spelled⟩ := h.of_mem mem
  cases spelled with
  | number written => exact written

theorem number_mem_tokensOfItems {numeral : String} {items : List Json} :
    .number numeral ∈ tokensOfItems items ↔ ∃ item ∈ items, .number numeral ∈ tokensOf item := by
  induction items with
  | nil => simp [tokensOfItems]
  | cons item items ih => simp [tokensOfItems, ih]

theorem number_mem_tokensOfMembers {numeral : String} {members : List (Option String × Json)} :
    .number numeral ∈ tokensOfMembers members ↔
      ∃ member ∈ members, .number numeral ∈ tokensOf member.2 := by
  induction members with
  | nil => simp [tokensOfMembers]
  | cons member members ih => simp [tokensOfMembers, ih]

theorem written_array (items : List Json) :
    Written (.array items) ↔ ∀ item ∈ items, Written item := by
  have numbers (numeral : String) : .number numeral ∈ tokensOf (.array items) ↔
      ∃ item ∈ items, .number numeral ∈ tokensOf item := by
    rw [← number_mem_tokensOfItems]
    cases items <;> simp [tokensOf, tokensOfItems]
  simp only [Written, numbers]
  exact ⟨fun h item mem numeral there => h numeral ⟨item, mem, there⟩,
    fun h numeral ⟨item, mem, there⟩ => h item mem numeral there⟩

theorem written_object (members : List (Option String × Json)) :
    Written (.object members) ↔ ∀ member ∈ members, Written member.2 := by
  have numbers (numeral : String) : .number numeral ∈ tokensOf (.object members) ↔
      ∃ member ∈ members, .number numeral ∈ tokensOf member.2 := by
    rw [← number_mem_tokensOfMembers]
    cases members <;> simp [tokensOf, tokensOfMembers]
  simp only [Written, numbers]
  exact ⟨fun h member mem numeral there => h numeral ⟨member, mem, there⟩,
    fun h numeral ⟨member, mem, there⟩ => h member mem numeral there⟩

theorem hexDigit?_digitChar : ∀ n, n < 16 → hexDigit? (Nat.digitChar n) = some n := by decide

theorem piece_escapeChar (c : Char) : Piece c.toNat (escapeChar c) := by
  rw [escapeChar]
  split
  · subst c
    exact .short rfl
  split
  · subst c
    exact .short rfl
  split
  · subst c
    exact .short rfl
  split
  · subst c
    exact .short rfl
  split
  · subst c
    exact .short rfl
  split
  · rename_i code
    rw [code]
    exact .short rfl
  split
  · rename_i code
    rw [code]
    exact .short rfl
  split
  · rename_i control
    have high := hexDigit?_digitChar (c.toNat / 16) (by omega)
    have low := hexDigit?_digitChar (c.toNat % 16) (by omega)
    refine .hex rfl ?_
    have code : 16 * (16 * (16 * (16 * 0 + 0) + 0) + c.toNat / 16) + c.toNat % 16 = c.toNat := by
      omega
    have zero : hexDigit? '0' = some 0 := rfl
    simp only [hexValue?, List.foldlM_cons, List.foldlM_nil, zero, high, low, Option.map_some,
      Option.bind_eq_bind, Option.bind_some, code]
    rfl
  · rename_i quote backslash _ _ _ _ _ visible
    exact .plain c (Nat.le_of_not_lt visible) quote backslash

theorem pieces_flatMap (chars : List Char) : Pieces (chars.map Char.toNat) (chars.flatMap escapeChar) := by
  induction chars with
  | nil => exact .nil
  | cons c chars ih =>
    rw [List.map_cons, List.flatMap_cons]
    exact .cons (piece_escapeChar c) ih

theorem encodes_map_toNat (chars : List Char) : Encodes (chars.map Char.toNat) chars := by
  induction chars with
  | nil => exact .nil
  | cons c chars ih => exact .single c ih

theorem spells_renderString (text : Option String) : Token.Spells (.string text) (renderString text) := by
  cases text with
  | some text => exact .string (pieces_flatMap text.toList) (encodes_map_toNat text.toList)
  | none =>
    have half : Piece 0xD800 ['\\', 'u', 'd', '8', '0', '0'] := .hex rfl rfl
    have pieces := Pieces.cons half .nil
    exact .string pieces ((decodes_iff pieces.code_lt).mpr rfl)

def tailed (pieces : List (List Char)) : List Char := pieces.flatMap (',' :: ·)

@[simp] theorem tailed_nil : tailed [] = [] := rfl

@[simp] theorem tailed_cons (piece : List Char) (pieces : List (List Char)) :
    tailed (piece :: pieces) = ',' :: (piece ++ tailed pieces) := by
  simp [tailed]

theorem separated_cons (piece : List Char) (pieces : List (List Char)) :
    separated (piece :: pieces) = piece ++ tailed pieces := by
  induction pieces generalizing piece with
  | nil => simp [separated]
  | cons next pieces ih =>
    rw [separated, ih, tailed_cons]
    simp

theorem Spells.mark {token : Token} {c : Char} (first : token.Spells [c]) {tokens : List Token}
    {chars : List Char} (later : Spells tokens chars) : Spells (token :: tokens) (c :: chars) :=
  (Spells.single first).append later

mutual

theorem spells_render (value : Json) (written : Written value) :
    Spells (tokensOf value) (render value) := by
  match value with
  | .null => exact .single .null
  | .bool true => exact .single .truth
  | .bool false => exact .single .falsehood
  | .number numeral => exact .single (.number (written numeral (by simp [tokensOf])))
  | .string text => exact .single (spells_renderString text)
  | .array [] => exact .mark .openArray (.single .closeArray)
  | .array (item :: items) =>
    obtain ⟨first, others⟩ := List.forall_mem_cons.mp ((written_array _).mp written)
    rw [render, renderItems, separated_cons, tokensOf, tokensOfItems]
    exact .mark .openArray
      (((spells_render item first).append (spells_renderItems items others)).append (.single .closeArray))
  | .object [] => exact .mark .openObject (.single .closeObject)
  | .object ((key, item) :: members) =>
    obtain ⟨first, others⟩ := List.forall_mem_cons.mp ((written_object _).mp written)
    have member := (Spells.single (spells_renderString key)).append (.mark .colon (spells_render item first))
    rw [render, renderMembers, separated_cons, tokensOf, tokensOfMembers]
    exact .mark .openObject
      ((member.append (spells_renderMembers members others)).append (.single .closeObject))

theorem spells_renderItems (items : List Json) (written : ∀ item ∈ items, Written item) :
    Spells (tokensOfItems items) (tailed (renderItems items)) := by
  match items with
  | [] => exact .empty
  | item :: items =>
    obtain ⟨first, others⟩ := List.forall_mem_cons.mp written
    rw [renderItems, tailed_cons, tokensOfItems]
    exact .mark .comma ((spells_render item first).append (spells_renderItems items others))

theorem spells_renderMembers (members : List (Option String × Json))
    (written : ∀ member ∈ members, Written member.2) :
    Spells (tokensOfMembers members) (tailed (renderMembers members)) := by
  match members with
  | [] => exact .empty
  | (key, item) :: members =>
    obtain ⟨first, others⟩ := List.forall_mem_cons.mp written
    have member := (Spells.single (spells_renderString key)).append (.mark .colon (spells_render item first))
    rw [renderMembers, tailed_cons, tokensOfMembers]
    exact .mark .comma (member.append (spells_renderMembers members others))

end

/-- A value whose numbers are numerals is read back from its text. -/
theorem parse?_render {value : Json} (written : Written value) :
    parse? (String.ofList (render value)) = some value := by
  rw [parse?_eq_some_iff, SpelledBy, String.toList_ofList]
  exact spells_render value written

end Json
end ResumableForth
