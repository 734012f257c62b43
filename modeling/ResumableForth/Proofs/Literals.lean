import ResumableForth.Proofs.Bootstrap
import ResumableForth.Proofs.Quantization

/-! Values that are compiled. A definition can be suspended, so that a value is computed while it is open,
and then the canonical text of the value is put into it. The text is a token, and what the token stands for
is the value: the text of an integer is read as an integer again, the text of a number has a point and is
read as that number, to the last bit, and the two truth values are neither. So the new word pushes the
value that was taken from the stack when it was defined. -/
namespace ResumableForth

namespace Decimal

theorem natural?_eq_none {numeral : List Char} {c : Char} (mem : c ∈ numeral)
    (other : isDigit c = false) : natural? numeral = none := by
  have mixed : numeral.all isDigit = false := by
    rw [List.all_eq_false]
    exact ⟨c, mem, by rw [other]; exact Bool.false_ne_true⟩
  rw [natural?, mixed, Bool.and_false]
  rfl

theorem integer?_of_point {text : List Char} (point : '.' ∈ text) : integer? text = none := by
  have other : isDigit '.' = false := by decide
  have unsigned : ∀ sign : Char, '.' ≠ sign → ∀ numeral, '.' ∈ sign :: numeral →
      natural? numeral = none :=
    fun sign ne numeral mem => natural?_eq_none ((List.mem_cons.mp mem).resolve_left ne) other
  rw [integer?.eq_def]
  split
  · rw [unsigned '-' (by decide) _ point]
    rfl
  · rw [unsigned '+' (by decide) _ point]
    rfl
  · rw [natural?_eq_none point other]
    rfl

end Decimal

theorem Binary64.readInt64?_fixedNumeral (negative : Bool) (n : Nat) :
    Decimal.readInt64? (fixedNumeral negative n) = none := by
  have point : '.' ∈ (fixedNumeral negative n).toList := by
    rw [toList_fixedNumeral]
    exact List.mem_append_right _ (List.mem_append_right _ (List.mem_cons_self ..))
  rw [Decimal.readInt64?, Decimal.integer?_of_point point]
  rfl

namespace Text

theorem isToken_signedNumeral (n : Int) : isToken (Decimal.signedNumeral n) = true := by
  have digits : ∀ c ∈ Nat.toDigits 10 n.natAbs, isBlank c = false :=
    fun c mem => isBlank_of_isDigit (Decimal.isDigit_of_mem_toDigits mem)
  rw [isToken_iff, Decimal.signedNumeral]
  by_cases negative : n < 0
  · rw [if_pos negative, String.toList_append, Decimal.toList_numeral]
    exact ⟨List.cons_ne_nil _ _, List.forall_mem_cons.mpr ⟨by decide, digits⟩⟩
  · rw [if_neg negative, Decimal.toList_numeral]
    exact ⟨Nat.toDigits_ne_nil, digits⟩

theorem isToken_fixedNumeral (negative : Bool) (n : Nat) :
    isToken (Binary64.fixedNumeral negative n) = true := by
  have sign : ∀ c ∈ (if negative then ['-'] else []), isBlank c = false := by
    intro c mem
    cases negative with
    | true =>
      rw [List.mem_singleton.mp mem]
      decide
    | false => cases mem
  have whole : ∀ c ∈ Nat.toDigits 10 (n / 10000), isBlank c = false :=
    fun c mem => isBlank_of_isDigit (Decimal.isDigit_of_mem_toDigits mem)
  have decimals : ∀ c ∈ Binary64.fourDigits n, isBlank c = false :=
    fun c mem => isBlank_of_isDigit (Binary64.isDigit_of_mem_fourDigits mem)
  rw [isToken_iff, Binary64.toList_fixedNumeral]
  refine ⟨?_, ?_⟩
  · simp
  · rw [List.forall_mem_append, List.forall_mem_append, List.forall_mem_cons]
    exact ⟨sign, whole, by decide, decimals⟩

end Text

namespace Value

/-- Integers, truth values, and floating point values that are finite and quantized. -/
def HasLiteral : Value → Prop
  | .int _ | .bool _ => True
  | .float x => x.isFinite = true ∧ x.quantize = x
  | _ => False

variable {value : Value}

/-- A value is what its canonical text stands for. -/
theorem literal_canonical (h : value.HasLiteral) : literal value.canonical = value := by
  cases value with
  | int n => rw [canonical, literal, Decimal.readInt64?_signedNumeral]
  | float x =>
    obtain ⟨finite, quantized⟩ := h
    have read := Binary64.readFinite?_fixed4 finite
    obtain ⟨negative, rank, rfl⟩ := (Binary64.isFinite_iff x).mp finite
    rw [canonical, literal, read, Binary64.fixed4, Binary64.readInt64?_fixedNumeral]
    simp only [ofFloat, quantized]
  | bool b => cases b <;> decide +kernel
  | null | str _ | word _ => cases h

theorem isToken_canonical (h : value.HasLiteral) : Text.isToken value.canonical = true := by
  cases value with
  | int n => exact Text.isToken_signedNumeral n.toInt
  | float x =>
    obtain ⟨negative, rank, rfl⟩ := (Binary64.isFinite_iff x).mp h.1
    exact Text.isToken_fixedNumeral negative _
  | bool b => cases b <;> decide
  | null | str _ | word _ => cases h

end Value

theorem Dictionary.classify_canonical {ν : Type} {dictionary : Dictionary ν} {value : Value}
    (h : value.HasLiteral) (unknown : dictionary.contains value.canonical = false) :
    dictionary.classify value.canonical = value := by
  rw [classify, unknown, Value.literal_canonical h]
  rfl

def suspendingWords : List Primitive := [.colon, .semicolon, .openBracket, .closeBracket, .comma]

namespace Machine
namespace Draft

variable {draft : Draft} {cursor : Nat} {code rest : List String} {stack : List Value}

/-- The definition is open, but tokens are executed. -/
def suspended (draft : Draft) (cursor : Nat) (code : List String) (stack : List Value) :
    StandardMachine :=
  { draft.top cursor code stack with mode := .execute }

theorem mode_suspended_ne : (draft.suspended cursor code stack).mode ≠ .halt :=
  (by decide : Mode.execute ≠ .halt)

theorem stepsTo_suspend (known : draft.base.dictionary.Knows .closeBracket) (other : "]" ≠ draft.name)
    (next : draft.base.input.drop cursor = "]" :: rest) :
    StepsTo (draft.top cursor code stack) (draft.suspended (cursor + 1) code stack) := by
  have ticked := tick_of_knows (m := draft.top cursor code stack) .closeBracket rfl
    (getElem?_of_drop next) (known.define other _) (.inr ⟨rfl, rfl⟩)
  exact .of_tick mode_top_ne ticked (Nat.le_refl 0)

/-- The text of the value on top of the stack goes into the definition. -/
theorem stepsTo_comma (known : draft.base.dictionary.Knows .comma) (other : "," ≠ draft.name)
    (next : draft.base.input.drop cursor = "," :: rest) (value : Value) :
    StepsTo (draft.suspended cursor code (value :: stack))
      (draft.suspended (cursor + 1) (code ++ Text.tokens value.canonical) stack) := by
  have ticked := tick_of_knows (m := draft.suspended cursor code (value :: stack)) .comma rfl
    (getElem?_of_drop next) (known.define other _) (.inl rfl)
  have compiled : Action.compileValue (draft.suspended (cursor + 1) code (value :: stack)) =
      .ok () (draft.suspended (cursor + 1) (code ++ Text.tokens value.canonical) stack) := by
    change EStateM.bind Action.here _ (draft.suspended (cursor + 1) code stack) = _
    simp [EStateM.bind, Action.here, Action.compile, Action.editDefinition, suspended, top]
  exact .of_tick mode_suspended_ne (ticked.trans (congrArg some compiled)) (Nat.le_refl 0)

theorem stepsTo_resume {block : List String} (known : draft.base.dictionary.Knows .openBracket)
    (other : "[" ≠ draft.name) (next : draft.base.input.drop cursor = "[" :: (block ++ "]" :: rest))
    (plain : "]" ∉ block) :
    StepsTo (draft.suspended cursor code stack)
      (draft.top (cursor + 1 + block.length + 1) (code ++ block) stack) := by
  have ticked := tick_of_knows (m := draft.suspended cursor code stack) .openBracket rfl
    (getElem?_of_drop next) (known.define other _) (.inl rfl)
  have copied : Action.copyBlock (draft.suspended (cursor + 1) code stack) =
      .ok () (draft.top (cursor + 1 + block.length + 1) (code ++ block) stack) := by
    change EStateM.bind (Action.readUntil "]" .blockOpen) _ _ = _
    rw [EStateM.bind, Action.readUntil_eq (drop_succ_of_drop next) plain]
    change EStateM.bind (Action.compile block) _
      (draft.suspended (cursor + 1 + block.length + 1) code stack) = _
    simp [EStateM.bind, Action.compile, Action.editDefinition, suspended, top]
    rfl
  exact .of_tick mode_suspended_ne (ticked.trans (congrArg some copied)) (Nat.le_refl 0)

/-- Between a closing and an opening bracket, a value is compiled. -/
theorem compiles_value (known : ∀ primitive ∈ suspendingWords, draft.base.dictionary.Knows primitive)
    (other : ∀ primitive ∈ suspendingWords, primitive.entry.1 ≠ draft.name) (code : List String)
    (value : Value) (stack : List Value) :
    draft.Compiles ["]", ",", "[", "]"] code (value :: stack)
      (code ++ Text.tokens value.canonical) stack := by
  intro cursor rest next
  have comma := drop_succ_of_drop next
  have block := drop_succ_of_drop comma
  have suspended : StepsTo (draft.top cursor code (value :: stack))
      (draft.suspended (cursor + 1) code (value :: stack)) :=
    stepsTo_suspend (known .closeBracket (by decide)) (other .closeBracket (by decide)) next
  have compiled : StepsTo (draft.suspended (cursor + 1) code (value :: stack))
      (draft.suspended (cursor + 2) (code ++ Text.tokens value.canonical) stack) :=
    stepsTo_comma (known .comma (by decide)) (other .comma (by decide)) comma value
  have resumed : StepsTo (draft.suspended (cursor + 2) (code ++ Text.tokens value.canonical) stack)
      (draft.top (cursor + 4) (code ++ Text.tokens value.canonical ++ []) stack) :=
    stepsTo_resume (known .openBracket (by decide)) (other .openBracket (by decide)) block
      List.not_mem_nil
  rw [List.append_nil] at resumed
  exact (suspended.trans compiled).trans resumed

end Draft

variable {m : StandardMachine} {name text source : String} {value : Value} {stack : List Value}

theorem interpret_value (calm : m.frames = []) (closed : m.openWord = none)
    (known : ∀ primitive ∈ suspendingWords, m.dictionary.Knows primitive)
    (other : ∀ primitive ∈ suspendingWords, primitive.entry.1 ≠ name) (top : m.stack = value :: stack)
    (read : Text.tokens source = [":", name, "]", ",", "[", "]", ";"]) :
    ∃ fuel after, m.interpret Primitive.handler fuel source = some (.ok () after) ∧
      after.quiet = (finished { m with stack := stack }
        (m.dictionary.define name (.compiled false (Text.tokens value.canonical)))
        (Text.tokens source)).quiet := by
  have first : (Text.tokens source).drop 0 = ":" :: name :: ["]", ",", "[", "]", ";"] := read
  have body : (Text.tokens source).drop 2 = ["]", ",", "[", "]"] ++ [";"] := by rw [read]; rfl
  have last : (Text.tokens source).drop 6 = [";"] := by rw [read]; rfl
  have length : (Text.tokens source).length = 7 := by rw [read]; rfl
  have opened := stepsTo_colon (m := { m with input := Text.tokens source })
    (known .colon (by decide)) first (by decide)
  have compiled : StepsTo
      (Draft.top ⟨idle { m with input := Text.tokens source } m.dictionary 0, name, false⟩ 2 []
        (value :: stack))
      (Draft.top ⟨idle { m with input := Text.tokens source } m.dictionary 0, name, false⟩ 6
        (Text.tokens value.canonical) stack) :=
    Draft.compiles_value known other [] value stack 2 [";"] body
  rw [← top] at compiled
  refine interpret_of_stepsTo calm closed ?_
  rw [length]
  exact (opened.trans compiled).trans (stepsTo_semicolon (known .semicolon (by decide))
    (other .semicolon (by decide)) last)

/-- The call of a word with a literal for a body pushes what the literal stands for. -/
theorem exists_settle_literal (unknown : m.dictionary.find? text = none) (room : m.room ≠ 0)
    (name : String) :
    ∃ fuel last, settle Primitive.handler fuel m.depth (some (m.call name [text])) =
        some (.ok () last) ∧
      last = { m with stack := Value.literal text :: m.stack, journal := last.journal } := by
  have next : (m.enter name [text]).token? = some text := rfl
  have asked : ((m.enter name [text]).read text).request text =
      .act (Action.push (Value.literal text)) := by
    have mode : ((m.enter name [text]).read text).mode = .execute := rfl
    have unknown' : ((m.enter name [text]).read text).dictionary.find? text = none := unknown
    rw [request, mode, unknown']
  obtain ⟨pushed, shape⟩ : ∃ pushed, pushed =
      ((m.enter name [text]).read text).push (Value.literal text) := ⟨_, rfl⟩
  have ticked : (m.enter name [text]).tick Primitive.handler = some (.ok () pushed) := by
    rw [tick_of_token next, asked, shape]
    rfl
  have ended : pushed.drain Primitive.handler m.depth 1 = some (.ok () pushed.leave) := by
    rw [shape]
    exact drain_of_end rfl rfl
  refine ⟨2, pushed.leave, ?_, ?_⟩
  · rw [call, if_neg room]
    exact (drain_of_tick (Nat.lt_succ_self m.depth) ticked 1).trans ended
  · have full : m.room - 1 + 1 = m.room := Nat.sub_add_cancel (Nat.pos_of_ne_zero room)
    have left : pushed.leave = { m with
        stack := Value.literal text :: m.stack
        room := m.room - 1 + 1
        journal := pushed.leave.journal } := by
      rw [shape]
      rfl
    rwa [full] at left

theorem exists_step_literal {immediate : Bool} (mode : m.mode = .execute)
    (next : m.token? = some name) (found : m.dictionary.find? name = some (.compiled immediate [text]))
    (unknown : m.dictionary.find? text = none) (room : m.room ≠ 0) :
    ∃ fuel last, m.step Primitive.handler fuel = some (.ok () last) ∧
      last = { m.moveTo (m.cursor + 1) with
        stack := Value.literal text :: m.stack
        journal := last.journal } := by
  have unknown' : (m.read name).dictionary.find? text = none := unknown
  obtain ⟨fuel, last, settled, same⟩ := exists_settle_literal unknown' room name
  refine ⟨fuel, last, ?_, same⟩
  have mode' : (m.read name).mode = .execute := mode
  have found' : (m.read name).dictionary.find? name = some (.compiled immediate [text]) := found
  rw [step, tick_of_token next, request, mode', found', ← (SameCallers.read name m).depth]
  exact settled

theorem exists_invoke_literal {immediate : Bool}
    (found : m.dictionary.find? name = some (.compiled immediate [text]))
    (unknown : m.dictionary.find? text = none) (room : m.room ≠ 0) :
    ∃ fuel last, m.invoke Primitive.handler fuel name = some (.ok () last) ∧
      last = { m with stack := Value.literal text :: m.stack, journal := last.journal } := by
  obtain ⟨fuel, last, settled, same⟩ := exists_settle_literal unknown room name
  refine ⟨fuel, last, ?_, same⟩
  rw [invoke, dispatch, found]
  exact settled

theorem exists_interpret_literal {immediate : Bool} (calm : m.frames = []) (closed : m.openWord = none)
    (token : Text.isToken name = true)
    (found : m.dictionary.find? name = some (.compiled immediate [text]))
    (unknown : m.dictionary.find? text = none) (room : m.room ≠ 0) :
    ∃ fuel last, m.interpret Primitive.handler fuel name = some (.ok () last) ∧
      last = { m with
        stack := Value.literal text :: m.stack
        input := [name]
        cursor := 1
        mode := .halt
        journal := last.journal } := by
  obtain ⟨ready, loaded⟩ : ∃ ready : StandardMachine, ready =
      { m with input := [name], cursor := 0, mode := .execute } := ⟨_, rfl⟩
  have load : m.loadText name = ready := by
    rw [loaded, loadText, Machine.load, Text.tokens_of_isToken token, closed]
    rfl
  have mode : ready.mode = .execute := by rw [loaded]
  have next : ready.token? = some name := by rw [loaded]; rfl
  have words : ready.dictionary = m.dictionary := by rw [loaded]
  have room' : ready.room ≠ 0 := by rwa [loaded]
  rw [← words] at found unknown
  obtain ⟨fuel, last, stepped, same⟩ := exists_step_literal mode next found unknown room'
  have behind : last = { m with
      stack := Value.literal text :: m.stack
      input := [name]
      cursor := 1
      mode := .execute
      journal := last.journal } := by
    have still : reach 1 m.frames = m.frames := by rw [calm]; rfl
    rw [loaded] at same
    refine same.trans ?_
    change { m with
      stack := Value.literal text :: m.stack
      input := [name]
      cursor := 1
      mode := .execute
      frames := reach 1 m.frames
      journal := last.journal } = _
    rw [still]
  have ended : last.token? = none := by rw [behind]; rfl
  have halted : last.exhaust = { last with mode := .halt } := by
    rw [exhaust, behind, calm]
    rfl
  have stopped : StepsTo last { last with mode := .halt } := by
    refine .of_tick ?_ ((tick_of_end ended).trans ?_) (Nat.le_refl _)
    · rw [behind]
      exact (by decide : Mode.execute ≠ .halt)
    · rw [halted]
  have running : ready.mode ≠ .halt := by rw [mode]; decide
  obtain ⟨fuel, ran⟩ := ((StepsTo.single running stepped).trans stopped).runToHalt rfl
  refine ⟨fuel, { last with mode := .halt }, ?_, ?_⟩
  · rw [interpret, load]
    exact ran
  · exact congrArg (fun m : StandardMachine => { m with mode := .halt }) behind

theorem tokens_value (token : Text.isToken name = true) :
    Text.tokens (": " ++ name ++ " ] , [ ] ;") = [":", name, "]", ",", "[", "]", ";"] := by
  have spelled : ": " ++ name ++ " ] , [ ] ;" = ":" ++ " " ++ (name ++ " " ++ "] , [ ] ;") := by
    have front : ": " = ":" ++ " " := by decide
    have back : " ] , [ ] ;" = " " ++ "] , [ ] ;" := by decide
    rw [front, back]
    simp only [String.append_assoc]
  have closing : Text.tokens "] , [ ] ;" = ["]", ",", "[", "]", ";"] := by decide
  have gap : Text.isGap " " = true := by decide
  have filled : " " ≠ "" := by decide
  rw [spelled, Text.tokens_append_gap gap filled, Text.tokens_append_gap gap filled,
    Text.tokens_of_isToken token, closing]
  rfl

/-- A value that is compiled reads back as itself. Let the native words be the standard ones, let no
definition be open and no word run, and let the program have no word of its own for the brackets, the comma,
the colon and the semicolon. A value with a literal is taken from the stack and compiled into a new word,
when its canonical text names no word and the new word has another name. The body of the word is the one
token that is the canonical text. Whether the word is then read by itself, or among other tokens, or is
called by its name, it pushes the same value, and leaves the rest of the machine as it was but for what has
been read and noted. This is because the text stands for the value in every dictionary that does not have it
as a name. -/
theorem compiled_value_reads_back (standard : m.dictionary.natives = Primitive.lexicon)
    (calm : m.frames = []) (room : m.room ≠ 0) (closed : m.openWord = none)
    (own : ∀ primitive ∈ suspendingWords, primitive.entry.1 ∉ m.dictionary.user.names)
    (top : m.stack = value :: stack) (literal : value.HasLiteral) (token : Text.isToken name = true)
    (other : ∀ primitive ∈ suspendingWords, primitive.entry.1 ≠ name) (foreign : name ≠ value.canonical)
    (unknown : m.dictionary.contains value.canonical = false) :
    (∃ fuel after,
      m.interpret Primitive.handler fuel (": " ++ name ++ " ] , [ ] ;") = some (.ok () after) ∧
      after = { m with
        dictionary := m.dictionary.define name (.compiled false [value.canonical])
        stack := stack
        input := [":", name, "]", ",", "[", "]", ";"]
        cursor := 7
        mode := .halt
        journal := after.journal } ∧
      after.dictionary.find? name = some (.compiled false [value.canonical]) ∧
      (∃ fuel last, after.interpret Primitive.handler fuel name = some (.ok () last) ∧
        last = { after with
          stack := value :: stack
          input := [name]
          cursor := 1
          journal := last.journal }) ∧
      ∀ caller : StandardMachine, caller.dictionary = after.dictionary → caller.room ≠ 0 →
        (caller.mode = .execute → caller.token? = some name →
          ∃ fuel last, caller.step Primitive.handler fuel = some (.ok () last) ∧
            last = { caller.moveTo (caller.cursor + 1) with
              stack := value :: caller.stack
              journal := last.journal }) ∧
        ∃ fuel last, caller.invoke Primitive.handler fuel name = some (.ok () last) ∧
          last = { caller with stack := value :: caller.stack, journal := last.journal }) ∧
      ∀ (ν : Type) (dictionary : Dictionary ν), dictionary.contains value.canonical = false →
        dictionary.classify value.canonical = value := by
  refine ⟨?_, fun _ _ => Dictionary.classify_canonical literal⟩
  have known : ∀ primitive ∈ suspendingWords, m.dictionary.Knows primitive :=
    fun primitive mem => Dictionary.knows_of_not_mem standard (own primitive mem)
  obtain ⟨fuel, after, defined, same⟩ := interpret_value calm closed known other top (tokens_value token)
  rw [Text.tokens_of_isToken (Value.isToken_canonical literal), tokens_value token] at same
  have after_eq := eq_of_quiet same
  have words : after.dictionary = m.dictionary.define name (.compiled false [value.canonical]) := by
    rw [after_eq]
    rfl
  have found : after.dictionary.find? name = some (.compiled false [value.canonical]) := by
    rw [words]
    exact Dictionary.find?_define_self _ _ _
  have missing : after.dictionary.find? value.canonical = none := by
    rw [words, Dictionary.find?_define_of_ne (Ne.symm foreign)]
    rwa [Dictionary.contains, Option.isSome_eq_false_iff, Option.isNone_iff_eq_none] at unknown
  refine ⟨fuel, after, defined, after_eq, found, ?_, ?_⟩
  · obtain ⟨fuel, last, ran, back⟩ := exists_interpret_literal (by rw [after_eq]; exact calm)
      (by rw [after_eq]; exact closed) token found missing (by rw [after_eq]; exact room)
    rw [Value.literal_canonical literal] at back
    refine ⟨fuel, last, ran, back.trans ?_⟩
    rw [after_eq]
    rfl
  · intro caller shared free
    rw [← shared] at found missing
    constructor
    · intro mode next
      obtain ⟨fuel, last, stepped, back⟩ := exists_step_literal mode next found missing free
      rw [Value.literal_canonical literal] at back
      exact ⟨fuel, last, stepped, back⟩
    · obtain ⟨fuel, last, invoked, back⟩ := exists_invoke_literal found missing free
      rw [Value.literal_canonical literal] at back
      exact ⟨fuel, last, invoked, back⟩

def laden : StandardMachine :=
  { start { natives := Primitive.lexicon } with
    stack := [.ofFloat (.ofDecimal true 1 22), .int 7] }

theorem compiled_value_reads_back_laden :
    ∃ fuel after, laden.interpret Primitive.handler fuel ": BIG ] , [ ] ;" = some (.ok () after) ∧
      after.dictionary.find? "BIG" = some (.compiled false ["-10000000000000000000000.0000"]) ∧
      after.stack = [.int 7] ∧
      ∃ fuel last, after.interpret Primitive.handler fuel "BIG" = some (.ok () last) ∧
        last.stack = laden.stack ∧ last.output = "" := by
  have finite : (Binary64.ofDecimal true 1 22).isFinite = true := by decide +kernel
  have literal : (Value.ofFloat (.ofDecimal true 1 22)).HasLiteral :=
    ⟨Binary64.isFinite_quantize finite, Binary64.quantize_quantize finite⟩
  have text : (Value.ofFloat (.ofDecimal true 1 22)).canonical = "-10000000000000000000000.0000" := by
    rw [Value.ofFloat, Value.canonical, Binary64.fixed4_quantize finite]
    decide +kernel
  have unknown : laden.dictionary.contains "-10000000000000000000000.0000" = false := by decide +kernel
  have standard : laden.dictionary.natives = Primitive.lexicon := rfl
  have token : Text.isToken "BIG" = true := by decide
  obtain ⟨⟨fuel, after, defined, same, found, ⟨fuel', last, ran, back⟩, -⟩, -⟩ :=
    compiled_value_reads_back standard rfl (by decide) rfl (fun _ _ => List.not_mem_nil) rfl literal token
      (by decide) (by rw [text]; decide) (by rw [text]; exact unknown)
  rw [text] at found
  refine ⟨fuel, after, defined, found, ?_, fuel', last, ran, ?_, ?_⟩
  · rw [same]
  · rw [back]
    rfl
  · rw [back, same]
    rfl

end Machine
end ResumableForth
