import ResumableForth.Prelude
import ResumableForth.Proofs.Compilation
import ResumableForth.Proofs.OrderedMap

/-! Texts that define words. Such a text is a sequence of comments and definitions; running it puts the
words into the dictionary one after the other and changes nothing else. The bootstrap library is a text
of this form: first it defines the control structures, and then words that are written with them. -/
namespace ResumableForth

deriving instance DecidableEq for Body
deriving instance DecidableEq for Word

theorem Primitive.find?_lexicon (primitive : Primitive) :
    lexicon.find? primitive.entry.1 = some (primitive.named id).2 := by
  have distinct : (Bindings.keys lexicon.entries).Nodup := by decide +kernel
  rw [Lexicon.find?_eq_lookup]
  exact Bindings.lookup_of_mem distinct (List.mem_map_of_mem primitive.mem_all)

namespace Dictionary

instance (dictionary : Dictionary Primitive) (primitive : Primitive) :
    Decidable (dictionary.Knows primitive) :=
  inferInstanceAs (Decidable (_ = _))

theorem knows_of_not_mem {dictionary : Dictionary Primitive} {primitive : Primitive}
    (standard : dictionary.natives = Primitive.lexicon)
    (own : primitive.entry.1 ∉ dictionary.user.names) : dictionary.Knows primitive := by
  have missing : dictionary.user.position? primitive.entry.1 = none :=
    Lexicon.position_eq_none_iff.mpr own
  rw [Knows, find?, missing, standard]
  exact primitive.find?_lexicon

/-- No immediate word has this name. -/
def Copies (dictionary : Dictionary Primitive) (token : String) : Prop :=
  ((dictionary.find? token).all fun word => !word.immediate) = true

instance (dictionary : Dictionary Primitive) (token : String) : Decidable (dictionary.Copies token) :=
  inferInstanceAs (Decidable (_ = _))

theorem immediate_of_copies {dictionary : Dictionary Primitive} {token : String}
    {word : Word Primitive} (copies : dictionary.Copies token)
    (found : dictionary.find? token = some word) : word.immediate = false := by
  rw [Copies, found] at copies
  simpa using copies

instance (dictionary : Dictionary Primitive) : Decidable dictionary.Equipped :=
  decidable_of_iff
    ((∀ primitive ∈ buildingWords, dictionary.Knows primitive) ∧
      ∀ entry ∈ controlWords, dictionary.find? entry.1 = some (.compiled true entry.2))
    ⟨fun h => ⟨h.1, h.2⟩, fun h => ⟨h.building, h.control⟩⟩

end Dictionary

/-- A part of the body of an immediate word: a token, or the tokens between two brackets. -/
inductive Piece
  | token (text : String)
  | block (tokens : List String)

namespace Piece

def tokens : Piece → List String
  | .token text => [text]
  | .block tokens => "[" :: (tokens ++ ["]"])

def Fits (dictionary : Dictionary Primitive) (name : String) : Piece → Prop
  | .token text => text ≠ name ∧ dictionary.Copies text
  | .block tokens => "]" ∉ tokens

instance (dictionary : Dictionary Primitive) (name : String) :
    (piece : Piece) → Decidable (piece.Fits dictionary name)
  | .token _ => inferInstanceAs (Decidable (_ ∧ _))
  | .block _ => inferInstanceAs (Decidable (_ ∉ _))

end Piece

/-- A part of a text: a comment, the definition of an immediate word, or that of a word that is given by
a structured program. -/
inductive Passage
  | comment (words : List String)
  | immediate (name : String) (body : List Piece)
  | word (name : String) (program : Program)

namespace Passage

def tokens : Passage → List String
  | .comment words => "(" :: (words ++ [")"])
  | .immediate name body =>
    ":" :: name :: Action.immediateMark :: (body.flatMap Piece.tokens ++ [";"])
  | .word name program => ":" :: name :: (program.tokens ++ [";"])

def define (dictionary : Dictionary Primitive) : Passage → Dictionary Primitive
  | .comment _ => dictionary
  | .immediate name body => dictionary.define name (.compiled true (body.flatMap Piece.tokens))
  | .word name program => dictionary.define name (.compiled false (program.layout 0))

def Fits (dictionary : Dictionary Primitive) : Passage → Prop
  | .comment words => dictionary.Knows .openParen ∧ ")" ∉ words
  | .immediate name body =>
    dictionary.Knows .colon ∧ dictionary.Knows .semicolon ∧ dictionary.Knows .openBracket ∧
      ";" ≠ name ∧ "[" ≠ name ∧ ∀ piece ∈ body, piece.Fits dictionary name
  | .word name program =>
    dictionary.Equipped ∧ (∀ primitive ∈ buildingWords, primitive.entry.1 ≠ name) ∧
      (∀ entry ∈ controlWords, entry.1 ≠ name) ∧
      (∀ token ∈ program.leaves, token ≠ Action.immediateMark ∧ dictionary.Copies token) ∧
      program.size < 2 ^ 63

instance (dictionary : Dictionary Primitive) :
    (passage : Passage) → Decidable (passage.Fits dictionary)
  | .comment _ => inferInstanceAs (Decidable (_ ∧ _))
  | .immediate _ _ => inferInstanceAs (Decidable (_ ∧ _ ∧ _ ∧ _ ∧ _ ∧ _))
  | .word _ _ => inferInstanceAs (Decidable (_ ∧ _ ∧ _ ∧ _ ∧ _))

/-- Each passage of a text fits the dictionary that the ones before it have made. -/
def AllFit (dictionary : Dictionary Primitive) : List Passage → Prop
  | [] => True
  | passage :: passages =>
    passage.Fits dictionary ∧ AllFit (passage.define dictionary) passages

instance decidableAllFit (dictionary : Dictionary Primitive) :
    (passages : List Passage) → Decidable (AllFit dictionary passages)
  | [] => inferInstanceAs (Decidable True)
  | passage :: passages =>
    have := decidableAllFit (passage.define dictionary) passages
    inferInstanceAs (Decidable (_ ∧ _))

end Passage

/-- The bootstrap library, passage by passage. -/
def bootstrap : List Passage :=
  [.comment ["Control", "structures.", "Each", "one", "is", "an", "immediate", "word", "that", "patches",
      "branch", "targets", "into", "the"],
    .comment ["definition", "being", "compiled.", "Slots", "still", "waiting", "for", "their", "target",
      "hold", "a", "0", "and", "their", "index"],
    .comment ["is", "kept", "on", "the", "data", "stack", "until", "the", "closing", "word", "stores",
      "the", "real", "target."],
    .immediate "IF" [.block ["BRANCH?"], .token "HERE", .block ["0"]],
    .immediate "ELSE" [.block ["BRANCH"], .token "HERE", .block ["0"], .token "SWAP", .token "HERE",
      .token "!"],
    .immediate "THEN" [.token "HERE", .token "!"],
    .immediate "BEGIN" [.token "HERE"],
    .immediate "UNTIL" [.block ["BRANCH?"], .token ","],
    .immediate "AGAIN" [.block ["BRANCH"], .token ","],
    .immediate "WHILE" [.block ["BRANCH?"], .token "HERE", .block ["0"]],
    .immediate "REPEAT" [.block ["BRANCH"], .token "SWAP", .token ",", .token "HERE", .token "!"],
    .comment ["Logic."],
    .word "NOT" (.ifElse (.leaf "False" .done) (.leaf "True" .done) .done),
    .word "<>" (.leaf "=" (.leaf "NOT" .done)),
    .comment ["Integer", "helpers."],
    .word "NEGATE" (.leaf "-1" (.leaf "*" .done)),
    .word "-" (.leaf "NEGATE" (.leaf "+" .done)),
    .comment ["Stack", "helpers."],
    .word "NIP" (.leaf "SWAP" (.leaf "DROP" .done)),
    .word "TUCK" (.leaf "SWAP" (.leaf "OVER" .done)),
    .word "2DUP" (.leaf "OVER" (.leaf "OVER" .done))]

def bootstrapped : Dictionary Primitive :=
  bootstrap.foldl Passage.define (.ofNatives Primitive.lexicon)

-- The literal is taken apart into its characters by unification, so that they can be split.
set_option maxRecDepth 20000 in
theorem tokens_prelude : Text.tokens prelude = bootstrap.flatMap Passage.tokens := by
  refine (Text.tokens_ofList _).trans ?_
  decide +kernel

theorem allFit_bootstrap : Passage.AllFit (.ofNatives Primitive.lexicon) bootstrap := by
  decide +kernel

namespace Machine

def idle (m : StandardMachine) (dictionary : Dictionary Primitive) (cursor : Nat) : StandardMachine :=
  { m with
    dictionary := dictionary
    cursor := cursor
    mode := .execute
    openWord := none
    frames := []
    journal := {} }

variable {m : StandardMachine} {dictionary : Dictionary Primitive} {cursor : Nat}
  {rest : List String} {name : String}

theorem mode_idle_ne : (m.idle dictionary cursor).mode ≠ .halt :=
  (by decide : Mode.execute ≠ .halt)

theorem tick_idle {primitive : Primitive} (known : dictionary.Knows primitive)
    (next : m.input.drop cursor = primitive.entry.1 :: rest) :
    (m.idle dictionary cursor).tick Primitive.handler =
      some (primitive.run (m.idle dictionary (cursor + 1))) :=
  tick_of_knows (m := m.idle dictionary cursor) primitive rfl (getElem?_of_drop next) known
    (.inl rfl)

theorem stepsTo_comment {words : List String} (known : dictionary.Knows .openParen)
    (plain : ")" ∉ words) (next : m.input.drop cursor = "(" :: (words ++ ")" :: rest)) :
    StepsTo (m.idle dictionary cursor) (m.idle dictionary (cursor + 1 + words.length + 1)) := by
  refine .of_tick mode_idle_ne ((tick_idle known next).trans ?_) (Nat.le_refl 0)
  change some (EStateM.bind (Action.readUntil ")" .commentOpen) _ _) = _
  rw [EStateM.bind, Action.readUntil_eq (drop_succ_of_drop next) plain]
  rfl

theorem tick_colon (known : dictionary.Knows .colon)
    (next : m.input.drop cursor = ":" :: name :: rest) :
    (m.idle dictionary cursor).tick Primitive.handler =
      some ((if rest.head? = some Action.immediateMark then
          (Action.nextToken >>= fun _ => Action.beginDefinition name true)
        else Action.beginDefinition name false) (m.idle dictionary (cursor + 2))) := by
  have named : (m.idle dictionary (cursor + 1)).token? = some name :=
    getElem?_of_drop (drop_succ_of_drop next)
  have marked : (m.idle dictionary (cursor + 2)).token? = rest.head? := by
    have later : m.input.drop (cursor + 2) = rest := drop_succ_of_drop (drop_succ_of_drop next)
    rw [← later, List.head?_drop]
    rfl
  refine (tick_idle known next).trans ?_
  change some (EStateM.bind Action.nextToken _ (m.idle dictionary (cursor + 1))) = _
  rw [EStateM.bind, Action.nextToken, named]
  change some ((if (m.idle dictionary (cursor + 2)).token? = some Action.immediateMark then
      (Action.nextToken >>= fun _ => Action.beginDefinition name true)
    else Action.beginDefinition name false) (m.idle dictionary (cursor + 2))) = _
  rw [marked]

theorem stepsTo_colon (known : dictionary.Knows .colon)
    (next : m.input.drop cursor = ":" :: name :: rest)
    (plain : rest.head? ≠ some Action.immediateMark) :
    StepsTo (m.idle dictionary cursor)
      (Draft.top ⟨m.idle dictionary cursor, name, false⟩ (cursor + 2) [] m.stack) := by
  refine .of_tick mode_idle_ne ((tick_colon known next).trans ?_) (Nat.le_refl 0)
  rw [if_neg plain]
  rfl

theorem stepsTo_colon_immediate (known : dictionary.Knows .colon)
    (next : m.input.drop cursor = ":" :: name :: Action.immediateMark :: rest) :
    StepsTo (m.idle dictionary cursor)
      (Draft.top ⟨m.idle dictionary cursor, name, true⟩ (cursor + 3) [] m.stack) := by
  have mark : (m.idle dictionary (cursor + 2)).token? = some Action.immediateMark :=
    getElem?_of_drop (drop_succ_of_drop (drop_succ_of_drop next))
  have marked : (Action.immediateMark :: rest).head? = some Action.immediateMark := rfl
  refine .of_tick mode_idle_ne ((tick_colon known next).trans ?_) (Nat.le_refl 0)
  rw [if_pos marked]
  change some (EStateM.bind Action.nextToken _ (m.idle dictionary (cursor + 2))) = _
  rw [EStateM.bind, Action.nextToken, mark]
  rfl

theorem stepsTo_semicolon {start : Nat} {immediate : Bool} {code : List String} {stack : List Value}
    (known : dictionary.Knows .semicolon) (other : ";" ≠ name)
    (next : m.input.drop cursor = ";" :: rest) :
    StepsTo (Draft.top ⟨m.idle dictionary start, name, immediate⟩ cursor code stack)
      (idle { m with stack := stack } (dictionary.define name (.compiled immediate code))
        (cursor + 1)) := by
  have body : (Draft.dictionary ⟨m.idle dictionary start, name, immediate⟩ code).body? name =
      some code := Draft.body?_dictionary
  have ended : Action.endDefinition
      (Draft.top ⟨m.idle dictionary start, name, immediate⟩ (cursor + 1) code stack) =
      .ok () (idle { m with stack := stack } (dictionary.define name (.compiled immediate code))
        (cursor + 1)) := by
    simp only [Action.endDefinition, Draft.top]
    rw [body]
    rfl
  have ticked := tick_of_knows
    (m := Draft.top ⟨m.idle dictionary start, name, immediate⟩ cursor code stack)
    .semicolon rfl (getElem?_of_drop next) (known.define other _) (.inr ⟨rfl, rfl⟩)
  exact .of_tick Draft.mode_top_ne (ticked.trans (congrArg some ended)) (Nat.le_refl 0)

namespace Draft

variable {draft : Draft}

theorem copied_of_copies {token : String}
    (copies : token ≠ draft.name → draft.base.dictionary.Copies token)
    (own : token = draft.name → draft.immediate = false) : draft.Copied token := by
  intro code word found
  by_cases same : token = draft.name
  · rw [Draft.dictionary, same, Dictionary.find?_define_self] at found
    rw [← Option.some.inj found]
    exact own same
  · rw [Draft.dictionary, Dictionary.find?_define_of_ne same] at found
    exact Dictionary.immediate_of_copies (copies same) found

/-- While a definition is being compiled, a bracketed block goes into it with its brackets. -/
theorem compiles_block {tokens : List String} (known : draft.base.dictionary.Knows .openBracket)
    (other : "[" ≠ draft.name) (plain : "]" ∉ tokens) (code : List String) (stack : List Value) :
    draft.Compiles ("[" :: (tokens ++ ["]"])) code stack (code ++ "[" :: (tokens ++ ["]"])) stack := by
  intro cursor rest next
  rw [List.cons_append, List.append_assoc, List.singleton_append] at next
  have copied : Action.copyBlock (draft.top (cursor + 1) code stack) =
      .ok () (draft.top (cursor + 1 + tokens.length + 1) (code ++ "[" :: (tokens ++ ["]"])) stack) := by
    change EStateM.bind (Action.readUntil "]" .blockOpen) _ _ = _
    rw [EStateM.bind, Action.readUntil_eq (drop_succ_of_drop next) plain]
    change Action.editDefinition (· ++ "[" :: (tokens ++ ["]"]))
      (draft.top (cursor + 1 + tokens.length + 1) code stack) = _
    simp [Action.editDefinition, top]
  have ticked := tick_of_knows (m := draft.top cursor code stack) .openBracket rfl
    (getElem?_of_drop next) (known.define other _) (.inr ⟨rfl, rfl⟩)
  have length : cursor + ("[" :: (tokens ++ ["]"])).length = cursor + 1 + tokens.length + 1 := by
    simp
    omega
  rw [length]
  exact .of_tick mode_top_ne (ticked.trans (congrArg some copied)) (Nat.le_refl 0)

theorem compiles_pieces (draft : Draft) (known : draft.base.dictionary.Knows .openBracket)
    (other : "[" ≠ draft.name) {body : List Piece}
    (fits : ∀ piece ∈ body, piece.Fits draft.base.dictionary draft.name) (code : List String)
    (stack : List Value) :
    draft.Compiles (body.flatMap Piece.tokens) code stack (code ++ body.flatMap Piece.tokens)
      stack := by
  induction body generalizing code with
  | nil =>
    intro cursor rest _
    rw [List.flatMap_nil, List.append_nil]
    exact .refl _
  | cons piece body ih =>
    obtain ⟨first, later⟩ := List.forall_mem_cons.mp fits
    have head : draft.Compiles piece.tokens code stack (code ++ piece.tokens) stack := by
      cases piece with
      | token text =>
        obtain ⟨foreign, copies⟩ := first
        exact compiles_copied (copied_of_copies (fun _ => copies) fun same => absurd same foreign) code stack
      | block tokens => exact compiles_block known other first code stack
    rw [List.flatMap_cons, ← List.append_assoc]
    exact head.append (ih later _)

end Draft

theorem stepsTo_immediate {body : List Piece}
    (fits : (Passage.immediate name body).Fits dictionary)
    (next : m.input.drop cursor = (Passage.immediate name body).tokens ++ rest) :
    StepsTo (m.idle dictionary cursor)
      (m.idle ((Passage.immediate name body).define dictionary)
        (cursor + (Passage.immediate name body).tokens.length)) := by
  obtain ⟨colon, semicolon, bracket, notEnd, notBlock, pieces⟩ := fits
  simp only [Passage.tokens, List.cons_append, List.append_assoc] at next
  have inBody : m.input.drop (cursor + 3) = body.flatMap Piece.tokens ++ ";" :: rest :=
    drop_succ_of_drop (drop_succ_of_drop (drop_succ_of_drop next))
  have ended : m.input.drop (cursor + 3 + (body.flatMap Piece.tokens).length) = ";" :: rest := by
    rw [← List.drop_drop, inBody, List.drop_left]
  have compiled := Draft.compiles_pieces ⟨m.idle dictionary cursor, name, true⟩ bracket notBlock
    pieces [] m.stack (cursor + 3) _ inBody
  have length : cursor + (Passage.immediate name body).tokens.length =
      cursor + 3 + (body.flatMap Piece.tokens).length + 1 := by
    simp [Passage.tokens]
    omega
  rw [length]
  exact ((stepsTo_colon_immediate colon next).trans compiled).trans
    (stepsTo_semicolon semicolon notEnd ended)

theorem head?_tokens_ne {program : Program}
    (plain : ∀ token ∈ program.leaves, token ≠ Action.immediateMark) :
    program.tokens.head? ≠ some Action.immediateMark := by
  intro marked
  cases program with
  | done => cases marked
  | leaf token later => exact plain token (List.mem_cons_self ..) (Option.some.inj marked)
  | ifThen _ _ => exact absurd (Option.some.inj marked) (by decide)
  | ifElse _ _ _ => exact absurd (Option.some.inj marked) (by decide)
  | untilLoop _ _ => exact absurd (Option.some.inj marked) (by decide)
  | endless _ _ => exact absurd (Option.some.inj marked) (by decide)
  | whileLoop _ _ _ => exact absurd (Option.some.inj marked) (by decide)

/-- The definition of a word by a structured program. Its own name may stand in the program. -/
theorem stepsTo_definition {program : Program} (room : m.room ≠ 0) (equipped : dictionary.Equipped)
    (building : ∀ primitive ∈ buildingWords, primitive.entry.1 ≠ name)
    (control : ∀ entry ∈ controlWords, entry.1 ≠ name)
    (plain : program.tokens.head? ≠ some Action.immediateMark)
    (leaves : ∀ token ∈ program.leaves, token ≠ name → dictionary.Copies token)
    (small : program.size < 2 ^ 63)
    (next : m.input.drop cursor = (Passage.word name program).tokens ++ rest) :
    StepsTo (m.idle dictionary cursor)
      (m.idle ((Passage.word name program).define dictionary)
        (cursor + (Passage.word name program).tokens.length)) := by
  simp only [Passage.tokens, List.cons_append, List.append_assoc] at next
  have inBody : m.input.drop (cursor + 2) = program.tokens ++ ";" :: rest :=
    drop_succ_of_drop (drop_succ_of_drop next)
  have ended : m.input.drop (cursor + 2 + program.tokens.length) = ";" :: rest := by
    rw [← List.drop_drop, inBody, List.drop_left]
  have unmarked : (program.tokens ++ ";" :: rest).head? ≠ some Action.immediateMark := by
    cases tokens : program.tokens with
    | nil => exact fun marked => absurd (Option.some.inj marked) (by decide)
    | cons token later => rwa [tokens] at plain
  have opened := stepsTo_colon (equipped.building .colon (by decide)) next unmarked
  have ready : Draft.Ready ⟨m.idle dictionary cursor, name, false⟩ :=
    ⟨room, equipped, building, control⟩
  have copied : ∀ token ∈ program.leaves, Draft.Copied ⟨m.idle dictionary cursor, name, false⟩ token :=
    fun token mem => Draft.copied_of_copies (leaves token mem) fun _ => rfl
  have compiled := Draft.laidOut ready program copied [] m.stack 0 rfl (by omega) (cursor + 2) _ inBody
  have length : cursor + (Passage.word name program).tokens.length =
      cursor + 2 + program.tokens.length + 1 := by
    simp [Passage.tokens]
    omega
  rw [length]
  exact (opened.trans compiled).trans (stepsTo_semicolon (equipped.building .semicolon (by decide))
    (building .semicolon (by decide)) ended)

theorem stepsTo_word {program : Program} (room : m.room ≠ 0)
    (fits : (Passage.word name program).Fits dictionary)
    (next : m.input.drop cursor = (Passage.word name program).tokens ++ rest) :
    StepsTo (m.idle dictionary cursor)
      (m.idle ((Passage.word name program).define dictionary)
        (cursor + (Passage.word name program).tokens.length)) := by
  obtain ⟨equipped, building, control, leaves, small⟩ := fits
  exact stepsTo_definition room equipped building control
    (head?_tokens_ne fun token mem => (leaves token mem).1) (fun token mem _ => (leaves token mem).2)
    small next

theorem stepsTo_passage {passage : Passage} (room : m.room ≠ 0) (fits : passage.Fits dictionary)
    (next : m.input.drop cursor = passage.tokens ++ rest) :
    StepsTo (m.idle dictionary cursor)
      (m.idle (passage.define dictionary) (cursor + passage.tokens.length)) := by
  cases passage with
  | comment words =>
    simp only [Passage.tokens, List.cons_append, List.append_assoc] at next
    have length : cursor + (Passage.comment words).tokens.length =
        cursor + 1 + words.length + 1 := by
      simp [Passage.tokens]
      omega
    rw [length]
    exact stepsTo_comment fits.1 fits.2 next
  | immediate name body => exact stepsTo_immediate fits next
  | word name program => exact stepsTo_word room fits next

/-- A whole text of comments and definitions. -/
theorem stepsTo_passages {passages : List Passage} (room : m.room ≠ 0)
    (fits : Passage.AllFit dictionary passages)
    (next : m.input.drop cursor = passages.flatMap Passage.tokens ++ rest) :
    StepsTo (m.idle dictionary cursor)
      (m.idle (passages.foldl Passage.define dictionary)
        (cursor + (passages.flatMap Passage.tokens).length)) := by
  induction passages generalizing dictionary cursor with
  | nil => exact .refl _
  | cons passage passages ih =>
    rw [List.flatMap_cons, List.append_assoc] at next
    have later : m.input.drop (cursor + passage.tokens.length) =
        passages.flatMap Passage.tokens ++ rest := by
      rw [← List.drop_drop, next, List.drop_left]
    have first := stepsTo_passage room fits.1 next
    rw [List.flatMap_cons, List.length_append, ← Nat.add_assoc, List.foldl_cons]
    exact first.trans (ih fits.2 later)

def finished (m : StandardMachine) (dictionary : Dictionary Primitive) (tokens : List String) :
    StandardMachine :=
  { m with
    dictionary := dictionary
    input := tokens
    cursor := tokens.length
    mode := .halt }

/-- Steps to a halt of the machine with a closed journal are a run of the machine itself. -/
theorem exists_interpret {source : String} {last : StandardMachine}
    (steps : StepsTo (m.quiet.loadText source) last) (halted : last.mode = .halt) :
    ∃ fuel after, m.interpret Primitive.handler fuel source = some (.ok () after) ∧
      after.quiet = last := by
  obtain ⟨fuel, ran⟩ := steps.runToHalt halted
  have silent : (m.interpret Primitive.handler fuel source).map (Outcome.over quiet) =
      some (.ok () last) := (quiet_interpret fuel source m).symm.trans ran
  obtain ⟨outcome, interpreted, same⟩ := Option.map_eq_some_iff.mp silent
  cases outcome with
  | ok _ after =>
    cases same
    exact ⟨fuel, after, interpreted, rfl⟩
  | error fault after => cases same

theorem interpret_of_stepsTo {source : String} {stack : List Value} (calm : m.frames = [])
    (closed : m.openWord = none)
    (steps : StepsTo (idle { m with input := Text.tokens source } m.dictionary 0)
      (idle { m with input := Text.tokens source, stack := stack } dictionary
        (Text.tokens source).length)) :
    ∃ fuel after, m.interpret Primitive.handler fuel source = some (.ok () after) ∧
      after.quiet = (finished { m with stack := stack } dictionary (Text.tokens source)).quiet := by
  have loaded : m.quiet.loadText source =
      idle { m with input := Text.tokens source } m.dictionary 0 := by
    have plain : m.quiet.openWord.isSome = false := by rw [quiet_eq, closed]; rfl
    rw [loadText, load, plain, quiet_eq, idle]
    simp only [calm, closed, Bool.false_eq_true, if_false]
  rw [← loaded] at steps
  refine exists_interpret (steps.trans ?_) rfl
  have ended : (idle { m with input := Text.tokens source, stack := stack } dictionary
      (Text.tokens source).length).token? = none :=
    List.getElem?_eq_none (Nat.le_refl _)
  refine .of_tick mode_idle_ne ((tick_of_end ended).trans ?_) (Nat.le_of_eq ?_)
  · rw [quiet_eq, finished, calm, closed]
    rfl
  · rw [quiet_eq, finished, calm, closed]
    rfl

/-- A text of comments and definitions is run to its end, and leaves its words in the dictionary. -/
theorem interpret_passages {source : String} {passages : List Passage} (calm : m.frames = [])
    (closed : m.openWord = none) (room : m.room ≠ 0)
    (fits : Passage.AllFit m.dictionary passages)
    (read : Text.tokens source = passages.flatMap Passage.tokens) :
    ∃ fuel after, m.interpret Primitive.handler fuel source = some (.ok () after) ∧
      after.quiet = (m.finished (passages.foldl Passage.define m.dictionary)
        (Text.tokens source)).quiet := by
  have next : (Text.tokens source).drop 0 = passages.flatMap Passage.tokens ++ [] := by
    rw [List.drop_zero, List.append_nil, read]
  have steps := stepsTo_passages (m := { m with input := Text.tokens source }) room fits next
  rw [Nat.zero_add, ← read] at steps
  exact interpret_of_stepsTo calm closed steps

/-- The bootstrap library runs to its end, whatever the bound on the depth of calls. -/
theorem interpret_prelude {host : Host Primitive} (standard : host.natives = Primitive.lexicon) :
    ∃ fuel after, (start host).interpret Primitive.handler fuel prelude = some (.ok () after) ∧
      after.quiet = ((start host).finished bootstrapped (Text.tokens prelude)).quiet := by
  have natives : (start host).dictionary = .ofNatives Primitive.lexicon := by
    rw [start, standard]
  have room : (start host).room ≠ 0 :=
    Nat.ne_of_gt (Nat.lt_of_lt_of_le Nat.zero_lt_one (Nat.le_max_right host.depthBound 1))
  have fits : Passage.AllFit (start host).dictionary bootstrap := natives ▸ allFit_bootstrap
  obtain ⟨fuel, after, ran, same⟩ := interpret_passages rfl rfl room fits tokens_prelude
  rw [natives] at same
  exact ⟨fuel, after, ran, same⟩

end Machine
end ResumableForth
