import ResumableForth.Proofs.Effects
import ResumableForth.Proofs.Lexicon
import ResumableForth.Proofs.Numeral
import ResumableForth.Proofs.Silence
import ResumableForth.Proofs.Structured

/-! Compilation by the words of the language. The control structures are immediate words that copy
branches into the open definition and fill in their targets by way of the data stack. Here a definition
under construction is followed token by token: what is in it so far, and what lies on the stack. A
structured program is thereby compiled to its layout, and the stack is left as it was. -/
namespace ResumableForth

def controlWords : List (String × List String) :=
  [("IF", ["[", "BRANCH?", "]", "HERE", "[", "0", "]"]),
    ("ELSE", ["[", "BRANCH", "]", "HERE", "[", "0", "]", "SWAP", "HERE", "!"]),
    ("THEN", ["HERE", "!"]),
    ("BEGIN", ["HERE"]),
    ("UNTIL", ["[", "BRANCH?", "]", ","]),
    ("AGAIN", ["[", "BRANCH", "]", ","]),
    ("WHILE", ["[", "BRANCH?", "]", "HERE", "[", "0", "]"]),
    ("REPEAT", ["[", "BRANCH", "]", "SWAP", ",", "HERE", "!"])]

def buildingWords : List Primitive :=
  [.colon, .semicolon, .openBracket, .here, .store, .comma, .swap]

def Dictionary.Knows (dictionary : Dictionary Primitive) (primitive : Primitive) : Prop :=
  dictionary.find? primitive.entry.1 = some (primitive.named id).2

theorem Dictionary.Knows.define {dictionary : Dictionary Primitive} {primitive : Primitive}
    {name : String} (known : dictionary.Knows primitive) (other : primitive.entry.1 ≠ name)
    (word : Word Primitive) : (dictionary.define name word).Knows primitive :=
  (find?_define_of_ne other word).trans known

/-- These words mean what they are meant to mean. -/
structure Dictionary.Equipped (dictionary : Dictionary Primitive) : Prop where
  building : ∀ primitive ∈ buildingWords, dictionary.Knows primitive
  control : ∀ entry ∈ controlWords, dictionary.find? entry.1 = some (.compiled true entry.2)

theorem Text.isBlank_of_isDigit {c : Char} (h : Decimal.isDigit c = true) : isBlank c = false := by
  have low : 48 ≤ c.toNat := by
    simp only [Decimal.isDigit, Bool.and_eq_true, decide_eq_true_eq] at h
    exact h.1
  have high : c.toNat ≤ 57 := by
    simp only [Decimal.isDigit, Bool.and_eq_true, decide_eq_true_eq] at h
    exact h.2
  simp [isBlank, inRanges, blankRanges]
  omega

theorem Text.tokens_numeral (n : Nat) : tokens (Decimal.numeral n) = [Decimal.numeral n] := by
  apply tokens_of_isToken
  rw [isToken_iff, Decimal.toList_numeral]
  exact ⟨Nat.toDigits_ne_nil, fun c mem => isBlank_of_isDigit (Decimal.isDigit_of_mem_toDigits mem)⟩

theorem Value.canonical_ofCount {n : Nat} (small : n < 2 ^ 63) :
    (Value.ofCount n).canonical = Decimal.numeral n := by
  rw [ofCount, canonical, Int64.toInt_ofNat_of_lt small, Decimal.signedNumeral,
    if_neg (Int.not_lt.mpr (Int.natCast_nonneg n)), Int.natAbs_natCast]

namespace Machine

theorem tick_of_request {m : StandardMachine} {token : String} {asked : Request}
    (closed : m.journal.opened = false) (next : m.token? = some token)
    (request : (m.moveTo (m.cursor + 1)).request token = asked) :
    m.tick Primitive.handler = some ((m.moveTo (m.cursor + 1)).grant asked) := by
  have silent : (m.moveTo (m.cursor + 1)).journal.opened = false := closed
  have read : m.read token = m.moveTo (m.cursor + 1) := by
    rw [Machine.read, record, Journal.record_of_closed silent]
  rw [tick_of_token next, read, request]

/-- A native word runs where tokens are executed, and an immediate one where they are compiled, too. -/
theorem tick_of_knows {m : StandardMachine} (primitive : Primitive)
    (closed : m.journal.opened = false) (next : m.token? = some primitive.entry.1)
    (known : m.dictionary.Knows primitive)
    (active : m.mode = .execute ∨ (m.mode = .compile ∧ primitive.isImmediate = true)) :
    m.tick Primitive.handler = some (primitive.run (m.moveTo (m.cursor + 1))) := by
  have found : m.dictionary.find? primitive.entry.1 = some (primitive.named id).2 := known
  have asked : (m.moveTo (m.cursor + 1)).request primitive.entry.1 = .act primitive.run := by
    rcases active with mode | ⟨mode, immediate⟩
    · simp only [request, moveTo, mode, found]
      rfl
    · have runs : (primitive.named id).2.immediate = true := immediate
      simp only [request, moveTo, mode, found, runs, if_true]
      rfl
  exact tick_of_request closed next asked

theorem getElem?_of_drop {tokens rest : List String} {index : Nat} {token : String}
    (h : tokens.drop index = token :: rest) : tokens[index]? = some token := by
  rw [← Nat.add_zero index, ← List.getElem?_drop, h]
  rfl

theorem drop_succ_of_drop {tokens rest : List String} {index : Nat} {token : String}
    (h : tokens.drop index = token :: rest) : tokens.drop (index + 1) = rest := by
  rw [← List.drop_drop, h]
  rfl

/-- A definition under construction: the machine that it is open on, its name and its flag. -/
structure Draft where
  base : StandardMachine
  name : String
  immediate : Bool

namespace Draft

def dictionary (draft : Draft) (code : List String) : Dictionary Primitive :=
  draft.base.dictionary.define draft.name (.compiled draft.immediate code)

/-- The machine at the top level: what has been read of the input, what is in the definition, and what
is on the stack. -/
def top (draft : Draft) (cursor : Nat) (code : List String) (stack : List Value) : StandardMachine :=
  { draft.base with
    dictionary := draft.dictionary code
    stack := stack
    cursor := cursor
    mode := .compile
    openWord := some draft.name
    frames := []
    journal := {} }

def inside (draft : Draft) (entry : String × List String) (cursor index : Nat) (code : List String)
    (stack : List Value) : StandardMachine :=
  { draft.base with
    dictionary := draft.dictionary code
    stack := stack
    input := entry.2
    cursor := index
    mode := .execute
    openWord := some draft.name
    frames := [⟨entry.1, index, draft.base.input, cursor, .compile⟩]
    room := draft.base.room - 1
    journal := {} }

structure Ready (draft : Draft) : Prop where
  room : draft.base.room ≠ 0
  equipped : draft.base.dictionary.Equipped
  building : ∀ primitive ∈ buildingWords, primitive.entry.1 ≠ draft.name
  control : ∀ entry ∈ controlWords, entry.1 ≠ draft.name

variable {draft : Draft} {entry : String × List String} {cursor index : Nat} {code : List String}
  {stack : List Value}

@[simp] theorem body?_dictionary : (draft.dictionary code).body? draft.name = some code :=
  Dictionary.body?_define_self _ _ _

@[simp] theorem editBody?_dictionary (change : List String → List String) :
    (draft.dictionary code).editBody? draft.name change = some (draft.dictionary (change code)) :=
  Dictionary.editBody?_define_compiled _ _ _ _ _

theorem mode_top_ne : (draft.top cursor code stack).mode ≠ .halt :=
  (by decide : Mode.compile ≠ .halt)

theorem tick_inside (ready : draft.Ready) (primitive : Primitive)
    (mem : primitive ∈ buildingWords) (next : entry.2[index]? = some primitive.entry.1) :
    (draft.inside entry cursor index code stack).tick Primitive.handler =
      some (primitive.run (draft.inside entry cursor (index + 1) code stack)) :=
  tick_of_knows (m := draft.inside entry cursor index code stack) primitive rfl next
    ((ready.equipped.building primitive mem).define (ready.building primitive mem) _) (.inl rfl)

theorem here_inside :
    Action.here (draft.inside entry cursor index code stack) =
      .ok code.length (draft.inside entry cursor index code stack) := by
  simp [Action.here, inside]

theorem edit_inside (change : List String → List String) :
    Action.editDefinition change (draft.inside entry cursor index code stack) =
      .ok () (draft.inside entry cursor index (change code) stack) := by
  simp [Action.editDefinition, inside]

theorem reaches_here (ready : draft.Ready) (next : entry.2[index]? = some "HERE") :
    Reaches 0 (draft.inside entry cursor index code stack)
      (draft.inside entry cursor (index + 1) code (.ofCount code.length :: stack)) := by
  refine .single Nat.zero_lt_one ((tick_inside ready .here (by decide) next).trans ?_)
  change some (EStateM.bind Action.here _ _) = _
  rw [EStateM.bind, here_inside]
  rfl

theorem reaches_swap (ready : draft.Ready) (next : entry.2[index]? = some "SWAP") (a b : Value) :
    Reaches 0 (draft.inside entry cursor index code (b :: a :: stack))
      (draft.inside entry cursor (index + 1) code (a :: b :: stack)) :=
  .single Nat.zero_lt_one (tick_inside ready .swap (by decide) next)

theorem reaches_comma (ready : draft.Ready) (next : entry.2[index]? = some ",") (value : Value) :
    Reaches 0 (draft.inside entry cursor index code (value :: stack))
      (draft.inside entry cursor (index + 1) (code ++ Text.tokens value.canonical) stack) := by
  refine .single Nat.zero_lt_one ((tick_inside ready .comma (by decide) next).trans ?_)
  change some (EStateM.bind Action.here _ (draft.inside entry cursor (index + 1) code stack)) = _
  rw [EStateM.bind, here_inside]
  exact congrArg some (edit_inside _)

/-- A bracket inside an immediate word: the tokens up to the closing one are copied. -/
theorem reaches_block (ready : draft.Ready) (block : List String) {rest : List String}
    (next : entry.2.drop index = "[" :: (block ++ "]" :: rest)) (plain : "]" ∉ block) :
    Reaches 0 (draft.inside entry cursor index code stack)
      (draft.inside entry cursor (index + 1 + block.length + 1) (code ++ block) stack) := by
  refine .single Nat.zero_lt_one
    ((tick_inside ready .openBracket (by decide) (getElem?_of_drop next)).trans ?_)
  change some (EStateM.bind (Action.readUntil "]" .blockOpen) _ _) = _
  rw [EStateM.bind, Action.readUntil_eq (drop_succ_of_drop next) plain]
  change some (EStateM.bind (Action.editDefinition (· ++ block)) _
    (draft.inside entry cursor (index + 1 + block.length + 1) code stack)) = _
  rw [EStateM.bind, edit_inside]
  rfl

theorem reaches_store (ready : draft.Ready) (next : entry.2[index]? = some "!")
    {slot target : Nat} (low : slot < code.length) (size : code.length < 2 ^ 63)
    (small : target < 2 ^ 63) :
    Reaches 0 (draft.inside entry cursor index code (.ofCount target :: .ofCount slot :: stack))
      (draft.inside entry cursor (index + 1) (code.set slot (Decimal.numeral target)) stack) := by
  refine .single Nat.zero_lt_one ((tick_inside ready .store (by decide) next).trans ?_)
  have place : (Int64.ofNat slot).toInt = slot := Int64.toInt_ofNat_of_lt (Nat.lt_trans low size)
  have natural : ¬ Int64.ofNat slot < 0 := by
    rw [Int64.lt_iff_toInt_lt, place]
    exact Int.not_lt.mpr (Int.natCast_nonneg slot)
  change some ((if Int64.ofNat slot < 0 then Action.fail (.slotNegative (Int64.ofNat slot))
    else Action.patch (Int64.ofNat slot).toInt.toNat (Value.ofCount target).canonical)
    (draft.inside entry cursor (index + 1) code stack)) = _
  rw [if_neg natural, place, Int.toNat_natCast, Value.canonical_ofCount small]
  change some (EStateM.bind Action.here _ _) = _
  rw [EStateM.bind, here_inside]
  simp only [if_pos low]
  exact congrArg some (edit_inside _)

theorem reaches_end (ready : draft.Ready) (ended : entry.2.length ≤ index) :
    Reaches 0 (draft.inside entry cursor index code stack) (draft.top cursor code stack) := by
  have next : (draft.inside entry cursor index code stack).token? = none :=
    List.getElem?_eq_none ended
  refine .single Nat.zero_lt_one ((tick_of_end next).trans ?_)
  have room : draft.base.room - 1 + 1 = draft.base.room :=
    Nat.sub_add_cancel (Nat.pos_of_ne_zero ready.room)
  have left : (draft.inside entry cursor index code stack).exhaust =
      { draft.top cursor code stack with room := draft.base.room - 1 + 1 } := rfl
  rw [left, room]
  rfl

/-- A branch is compiled with an empty slot for its target, and the place of the slot is pushed. -/
theorem reaches_slot (ready : draft.Ready) {branch : String} {rest : List String}
    (next : entry.2.drop index = "[" :: branch :: "]" :: "HERE" :: "[" :: "0" :: "]" :: rest)
    (plain : "]" ≠ branch) :
    Reaches 0 (draft.inside entry cursor index code stack)
      (draft.inside entry cursor (index + 7) (code ++ [branch, "0"])
        (.ofCount (code.length + 1) :: stack)) := by
  have second : entry.2.drop (index + 3) = "HERE" :: "[" :: "0" :: "]" :: rest := by
    rw [← List.drop_drop, next]
    rfl
  have copied : Reaches 0 (draft.inside entry cursor index code stack)
      (draft.inside entry cursor (index + 3) (code ++ [branch]) stack) :=
    reaches_block ready [branch] next (by simpa using plain)
  have place : Reaches 0 (draft.inside entry cursor (index + 3) (code ++ [branch]) stack)
      (draft.inside entry cursor (index + 4) (code ++ [branch])
        (.ofCount (code ++ [branch]).length :: stack)) :=
    reaches_here ready (getElem?_of_drop second)
  have empty : Reaches 0 (draft.inside entry cursor (index + 4) (code ++ [branch])
        (.ofCount (code ++ [branch]).length :: stack))
      (draft.inside entry cursor (index + 7) (code ++ [branch] ++ ["0"])
        (.ofCount (code ++ [branch]).length :: stack)) :=
    reaches_block ready ["0"] (drop_succ_of_drop second) (by decide)
  have whole := (copied.trans place).trans empty
  rwa [List.length_append, List.append_assoc] at whole

/-- The slot whose place is on the stack is filled in with the place where compilation goes on. -/
theorem reaches_resolve (ready : draft.Ready) {rest : List String}
    (next : entry.2.drop index = "HERE" :: "!" :: rest) {slot : Nat} (low : slot < code.length)
    (size : code.length < 2 ^ 63) :
    Reaches 0 (draft.inside entry cursor index code (.ofCount slot :: stack))
      (draft.inside entry cursor (index + 2)
        (code.set slot (Decimal.numeral code.length)) stack) :=
  (reaches_here ready (getElem?_of_drop next)).trans
    (reaches_store ready (getElem?_of_drop (drop_succ_of_drop next)) low size size)

theorem reaches_target (ready : draft.Ready) (next : entry.2[index]? = some ",") {target : Nat}
    (small : target < 2 ^ 63) :
    Reaches 0 (draft.inside entry cursor index code (.ofCount target :: stack))
      (draft.inside entry cursor (index + 1) (code ++ [Decimal.numeral target]) stack) := by
  have copied : Reaches 0 (draft.inside entry cursor index code (.ofCount target :: stack))
      (draft.inside entry cursor (index + 1)
        (code ++ Text.tokens (Value.ofCount target).canonical) stack) :=
    reaches_comma ready next (.ofCount target)
  rwa [Value.canonical_ofCount small, Text.tokens_numeral] at copied

/-- Reading some tokens, wherever they stand in the input, turns one definition into another. -/
def Compiles (draft : Draft) (tokens : List String) (code : List String) (stack : List Value)
    (code' : List String) (stack' : List Value) : Prop :=
  ∀ cursor rest, draft.base.input.drop cursor = tokens ++ rest →
    StepsTo (draft.top cursor code stack) (draft.top (cursor + tokens.length) code' stack')

theorem Compiles.append {first second code' code'' : List String} {stack' stack'' : List Value}
    (head : draft.Compiles first code stack code' stack')
    (tail : draft.Compiles second code' stack' code'' stack'') :
    draft.Compiles (first ++ second) code stack code'' stack'' := by
  intro cursor rest next
  rw [List.append_assoc] at next
  have later : draft.base.input.drop (cursor + first.length) = second ++ rest := by
    rw [← List.drop_drop, next, List.drop_left]
  rw [List.length_append, ← Nat.add_assoc]
  exact (head cursor _ next).trans (tail _ _ later)

/-- A token that is compiled as it stands: no immediate word has its name. -/
def Copied (draft : Draft) (token : String) : Prop :=
  ∀ code word, (draft.dictionary code).find? token = some word → word.immediate = false

theorem compiles_copied {token : String} (copied : draft.Copied token) (code : List String)
    (stack : List Value) : draft.Compiles [token] code stack (code ++ [token]) stack := by
  intro cursor rest next
  have asked : (draft.top (cursor + 1) code stack).request token = .act (Action.compile [token]) := by
    cases found : (draft.dictionary code).find? token with
    | none => simp only [request, top, found]
    | some word => simp only [request, top, found, copied code word found, if_neg Bool.false_ne_true]
  have edited : Action.compile [token] (draft.top (cursor + 1) code stack) =
      .ok () (draft.top (cursor + 1) (code ++ [token]) stack) := by
    simp [Action.compile, Action.editDefinition, top]
  have ticked : (draft.top cursor code stack).tick Primitive.handler =
      some (.ok () (draft.top (cursor + 1) (code ++ [token]) stack)) :=
    (tick_of_request (m := draft.top cursor code stack) rfl (getElem?_of_drop next) asked).trans
      (congrArg some edited)
  exact .of_tick mode_top_ne ticked (Nat.le_refl 0)

/-- A control word is called, and comes to its end. -/
theorem compiles_control (ready : draft.Ready) (mem : entry ∈ controlWords) {code' : List String}
    {stack' : List Value}
    (reaches : ∀ cursor, Reaches 0 (draft.inside entry cursor 0 code stack)
      (draft.top cursor code' stack')) : draft.Compiles [entry.1] code stack code' stack' := by
  intro cursor rest next
  have found : (draft.dictionary code).find? entry.1 = some (.compiled true entry.2) :=
    (Dictionary.find?_define_of_ne (ready.control entry mem) _).trans
      (ready.equipped.control entry mem)
  have asked : (draft.top (cursor + 1) code stack).request entry.1 = .call entry.1 entry.2 := by
    simp only [request, top, found]
    rfl
  have called : (draft.top (cursor + 1) code stack).call entry.1 entry.2 =
      .ok () (draft.inside entry (cursor + 1) 0 code stack) := by
    have room : (draft.top (cursor + 1) code stack).room ≠ 0 := ready.room
    rw [call, if_neg room]
    rfl
  have ticked : (draft.top cursor code stack).tick Primitive.handler =
      some (.ok () (draft.inside entry (cursor + 1) 0 code stack)) :=
    (tick_of_request (m := draft.top cursor code stack) rfl (getElem?_of_drop next) asked).trans
      (congrArg some called)
  exact .of_reaches mode_top_ne ticked (reaches (cursor + 1)) (Nat.le_refl 0)

theorem set_slot (code after : List String) (branch empty target : String) :
    (code ++ [branch, empty] ++ after).set (code.length + 1) target =
      code ++ [branch, target] ++ after := by
  simp

theorem slot_lt (code after : List String) (branch empty : String) :
    code.length + 1 < (code ++ [branch, empty] ++ after).length := by
  simp

section Words

variable {offset place start : Nat} (ready : draft.Ready)
include ready

theorem compiles_slot (word : String)
    (mem : (word, ["[", "BRANCH?", "]", "HERE", "[", "0", "]"]) ∈ controlWords)
    (stack : List Value) (length : code.length = offset) :
    draft.Compiles [word] code stack (code ++ ["BRANCH?", "0"]) (.ofCount (offset + 1) :: stack) := by
  subst length
  refine compiles_control ready mem fun cursor => ?_
  exact (reaches_slot ready rfl (by decide)).trans (reaches_end ready (Nat.le_refl 7))

theorem compiles_then {branch : String} {after : List String} (stack : List Value)
    (slot : code.length = offset) (length : (code ++ [branch, "0"] ++ after).length = place)
    (small : place < 2 ^ 63) :
    draft.Compiles ["THEN"] (code ++ [branch, "0"] ++ after) (.ofCount (offset + 1) :: stack)
      (code ++ [branch, Decimal.numeral place] ++ after) stack := by
  have mem : ("THEN", ["HERE", "!"]) ∈ controlWords := by decide
  subst slot
  refine compiles_control ready mem fun cursor => ?_
  refine (reaches_resolve ready rfl (slot_lt code after _ _) (length ▸ small)).trans ?_
  rw [set_slot, length]
  exact reaches_end ready (Nat.le_refl 2)

/-- The branch whose slot is on the stack leads behind a new branch, whose slot is then on the stack. -/
theorem compiles_else {branch : String} {after : List String} (stack : List Value)
    (slot : code.length = offset) (length : (code ++ [branch, "0"] ++ after).length = place)
    (small : place + 2 < 2 ^ 63) :
    draft.Compiles ["ELSE"] (code ++ [branch, "0"] ++ after) (.ofCount (offset + 1) :: stack)
      (code ++ [branch, Decimal.numeral (place + 2)] ++ after ++ ["BRANCH", "0"])
      (.ofCount (place + 1) :: stack) := by
  have mem : ("ELSE", ["[", "BRANCH", "]", "HERE", "[", "0", "]", "SWAP", "HERE", "!"]) ∈
      controlWords := by decide
  have target : (code ++ [branch, "0"] ++ (after ++ ["BRANCH", "0"])).length = place + 2 := by
    rw [← List.append_assoc, List.length_append, length]
    rfl
  subst slot
  refine compiles_control ready mem fun cursor => ?_
  refine (reaches_slot ready rfl (by decide)).trans ?_
  refine (reaches_swap ready rfl _ _).trans ?_
  rw [length, List.append_assoc _ after]
  refine (reaches_resolve ready rfl (slot_lt code _ _ _) (target ▸ small)).trans ?_
  rw [set_slot, target, ← List.append_assoc _ after]
  exact reaches_end ready (Nat.le_refl 10)

theorem compiles_begin (stack : List Value) (length : code.length = offset) :
    draft.Compiles ["BEGIN"] code stack code (.ofCount offset :: stack) := by
  have mem : ("BEGIN", ["HERE"]) ∈ controlWords := by decide
  subst length
  refine compiles_control ready mem fun cursor => ?_
  exact (reaches_here ready rfl).trans (reaches_end ready (Nat.le_refl 1))

/-- A branch to the place on the stack is compiled. -/
theorem compiles_back (word branch : String)
    (mem : (word, ["[", branch, "]", ","]) ∈ controlWords) (plain : "]" ≠ branch)
    (code : List String) (stack : List Value) (small : start < 2 ^ 63) :
    draft.Compiles [word] code (.ofCount start :: stack) (code ++ [branch, Decimal.numeral start])
      stack := by
  refine compiles_control ready mem fun cursor => ?_
  refine (reaches_block ready [branch] rfl (by simpa using plain)).trans ?_
  refine (reaches_target ready rfl small).trans ?_
  rw [List.append_assoc]
  exact reaches_end ready (Nat.le_refl 4)

theorem compiles_repeat {branch : String} {after : List String} (stack : List Value)
    (early : start < 2 ^ 63) (slot : code.length = offset)
    (length : (code ++ [branch, "0"] ++ after).length = place) (small : place + 2 < 2 ^ 63) :
    draft.Compiles ["REPEAT"] (code ++ [branch, "0"] ++ after)
      (.ofCount (offset + 1) :: .ofCount start :: stack)
      (code ++ [branch, Decimal.numeral (place + 2)] ++ after ++ Program.branch start) stack := by
  have mem : ("REPEAT", ["[", "BRANCH", "]", "SWAP", ",", "HERE", "!"]) ∈ controlWords := by decide
  have target : (code ++ [branch, "0"] ++ (after ++ Program.branch start)).length = place + 2 := by
    rw [← List.append_assoc, List.length_append, length]
    rfl
  subst slot
  refine compiles_control ready mem fun cursor => ?_
  refine (reaches_block ready ["BRANCH"] rfl (by decide)).trans ?_
  refine (reaches_swap ready rfl _ _).trans ?_
  refine (reaches_target ready rfl early).trans ?_
  rw [List.append_assoc _ ["BRANCH"], List.append_assoc _ after]
  change Reaches 0
    (draft.inside _ cursor _ (code ++ [branch, "0"] ++ (after ++ Program.branch start)) _) _
  refine (reaches_resolve ready rfl (slot_lt code _ _ _) (target ▸ small)).trans ?_
  rw [set_slot, target, ← List.append_assoc _ after]
  exact reaches_end ready (Nat.le_refl 7)

end Words

/-- A program is compiled to its layout, at the place where it stands in the definition. The stack is
only used on the way. -/
def LaidOut (draft : Draft) (program : Program) : Prop :=
  ∀ (code : List String) (stack : List Value) (offset : Nat), code.length = offset →
    offset + program.size < 2 ^ 63 →
    draft.Compiles program.tokens code stack (code ++ program.layout offset) stack

namespace LaidOut

variable {rest : Program}

theorem leaf {token : String} (copied : draft.Copied token) (ih : draft.LaidOut rest) :
    draft.LaidOut (.leaf token rest) := by
  intro code stack offset length size
  rw [Program.size] at size
  have later := ih (code ++ [token]) stack (offset + 1) (by simp [length]) (by omega)
  have whole := (compiles_copied copied code stack).append later
  rw [List.append_assoc] at whole
  exact whole

theorem length_append_layout {code : List String} {offset : Nat} (length : code.length = offset)
    (first second : String) (program : Program) (start : Nat) :
    (code ++ [first, second] ++ program.layout start).length = offset + 2 + program.size := by
  rw [List.length_append, List.length_append, length, Program.length_layout]
  rfl

theorem ifThen (ready : draft.Ready) {yes : Program} (ihYes : draft.LaidOut yes)
    (ih : draft.LaidOut rest) : draft.LaidOut (.ifThen yes rest) := by
  intro code stack offset length size
  rw [Program.size] at size
  have place := length_append_layout length "BRANCH?" "0" yes (offset + 2)
  have opened := compiles_slot ready "IF" (by decide) stack length
  have body := opened.append (ihYes _ _ (offset + 2) (by simp [length]) (by omega))
  have closed := body.append (compiles_then ready stack length place (by omega))
  have whole := closed.append (ih _ _ (offset + 2 + yes.size)
    (length_append_layout length _ _ _ _) (by omega))
  simp only [Program.layout, Program.tokens, List.append_assoc] at whole ⊢
  exact whole

theorem ifElse (ready : draft.Ready) {yes no : Program} (ihYes : draft.LaidOut yes)
    (ihNo : draft.LaidOut no) (ih : draft.LaidOut rest) : draft.LaidOut (.ifElse yes no rest) := by
  intro code stack offset length size
  rw [Program.size] at size
  have place := length_append_layout length "BRANCH?" "0" yes (offset + 2)
  have front := length_append_layout length "BRANCH?"
    (Decimal.numeral (offset + 2 + yes.size + 2)) yes (offset + 2)
  have place' := length_append_layout front "BRANCH" "0" no (offset + 2 + yes.size + 2)
  have opened := compiles_slot ready "IF" (by decide) stack length
  have body := opened.append (ihYes _ _ (offset + 2) (by simp [length]) (by omega))
  have turned := body.append (compiles_else ready stack length place (by omega))
  have other := turned.append (ihNo _ _ (offset + 2 + yes.size + 2)
    (by rw [List.length_append, front]; rfl) (by omega))
  have closed := other.append (compiles_then ready stack front place' (by omega))
  have whole := closed.append (ih _ _ (offset + 2 + yes.size + 2 + no.size)
    (length_append_layout front _ _ _ _) (by omega))
  simp only [Program.layout, Program.tokens, List.append_assoc] at whole ⊢
  exact whole

theorem untilLoop (ready : draft.Ready) {body : Program} (ihBody : draft.LaidOut body)
    (ih : draft.LaidOut rest) : draft.LaidOut (.untilLoop body rest) := by
  intro code stack offset length size
  rw [Program.size] at size
  have early : offset < 2 ^ 63 := by omega
  have opened := compiles_begin ready stack length
  have inner := opened.append (ihBody _ _ offset length (by omega))
  have closed := inner.append (compiles_back ready "UNTIL" "BRANCH?" (by decide) (by decide) _ stack early)
  have whole := closed.append (ih _ _ (offset + body.size + 2)
    (by simp [length, Nat.add_assoc]) (by omega))
  simp only [Program.layout, Program.tokens, List.append_assoc] at whole ⊢
  exact whole

theorem endless (ready : draft.Ready) {body : Program} (ihBody : draft.LaidOut body)
    (ih : draft.LaidOut rest) : draft.LaidOut (.endless body rest) := by
  intro code stack offset length size
  rw [Program.size] at size
  have early : offset < 2 ^ 63 := by omega
  have opened := compiles_begin ready stack length
  have inner := opened.append (ihBody _ _ offset length (by omega))
  have closed := inner.append (compiles_back ready "AGAIN" "BRANCH" (by decide) (by decide) _ stack early)
  have whole := closed.append (ih _ _ (offset + body.size + 2)
    (by simp [length, Nat.add_assoc]) (by omega))
  simp only [Program.layout, Program.tokens, List.append_assoc] at whole ⊢
  exact whole

theorem whileLoop (ready : draft.Ready) {test body : Program} (ihTest : draft.LaidOut test)
    (ihBody : draft.LaidOut body) (ih : draft.LaidOut rest) :
    draft.LaidOut (.whileLoop test body rest) := by
  intro code stack offset length size
  rw [Program.size] at size
  have early : offset < 2 ^ 63 := by omega
  have slot : (code ++ test.layout offset).length = offset + test.size := by simp [length]
  have place := length_append_layout slot "BRANCH?" "0" body (offset + test.size + 2)
  have front := length_append_layout slot "BRANCH?"
    (Decimal.numeral (offset + test.size + 2 + body.size + 2)) body (offset + test.size + 2)
  have opened := compiles_begin ready stack length
  have tested := opened.append (ihTest _ _ offset length (by omega))
  have split := tested.append (compiles_slot ready "WHILE" (by decide) _ slot)
  have inner := split.append (ihBody _ _ (offset + test.size + 2)
    (by rw [List.length_append, slot]; rfl) (by omega))
  have closed := inner.append (compiles_repeat ready stack early slot place (by omega))
  have whole := closed.append (ih _ _ (offset + test.size + 2 + body.size + 2)
    (by rw [List.length_append, front]; rfl) (by omega))
  simp only [Program.layout, Program.tokens, List.append_assoc] at whole ⊢
  exact whole

end LaidOut

/-- Every structured program is compiled to its layout. -/
theorem laidOut (ready : draft.Ready) (program : Program)
    (copied : ∀ token ∈ program.leaves, draft.Copied token) : draft.LaidOut program := by
  induction program with
  | done =>
    intro code stack offset _ _ cursor rest _
    rw [Program.layout, List.append_nil]
    exact .refl _
  | leaf token rest ih =>
    obtain ⟨first, later⟩ := List.forall_mem_cons.mp copied
    exact .leaf first (ih later)
  | ifThen yes rest ihYes ih =>
    obtain ⟨inYes, later⟩ := List.forall_mem_append.mp copied
    exact .ifThen ready (ihYes inYes) (ih later)
  | ifElse yes no rest ihYes ihNo ih =>
    obtain ⟨inBoth, later⟩ := List.forall_mem_append.mp copied
    obtain ⟨inYes, inNo⟩ := List.forall_mem_append.mp inBoth
    exact .ifElse ready (ihYes inYes) (ihNo inNo) (ih later)
  | untilLoop body rest ihBody ih =>
    obtain ⟨inBody, later⟩ := List.forall_mem_append.mp copied
    exact .untilLoop ready (ihBody inBody) (ih later)
  | endless body rest ihBody ih =>
    obtain ⟨inBody, later⟩ := List.forall_mem_append.mp copied
    exact .endless ready (ihBody inBody) (ih later)
  | whileLoop test body rest ihTest ihBody ih =>
    obtain ⟨inBoth, later⟩ := List.forall_mem_append.mp copied
    obtain ⟨inTest, inBody⟩ := List.forall_mem_append.mp inBoth
    exact .whileLoop ready (ihTest inTest) (ihBody inBody) (ih later)

end Draft

end Machine
end ResumableForth
