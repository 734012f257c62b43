import ResumableForth.Proofs.Effects
import ResumableForth.Proofs.Resumption
import ResumableForth.Proofs.Silence

/-! Where the names of words come from. A name is read from the input, and what stands there is a token
of a text or comes out of the body of a word; into a body go tokens, and texts that a store puts there
as they are. With its journal open a machine notes what it stores and which definitions it begins, so
the journal accounts for every name: each is a token, or a text that was stored. A name with a blank in
it can come about in this way and in no other, and an empty one not at all. -/
namespace ResumableForth

namespace Value

def Filled (value : Value) : Prop := value.canonical ≠ ""

theorem filled_int (n : Int64) : (int n).Filled := by
  intro empty
  have read := Decimal.readInt64?_signedNumeral n
  rw [show Decimal.signedNumeral n.toInt = "" from empty] at read
  cases read

theorem filled_float {x : Binary64} (finite : x.isFinite = true) : (ofFloat x).Filled := by
  intro empty
  have read := Binary64.readFinite?_fixed4 (Binary64.isFinite_quantize finite)
  rw [show x.quantize.fixed4 = "" from empty] at read
  cases read

theorem filled_bool (b : Bool) : (bool b).Filled := by
  cases b <;> simp [Filled, canonical, boolName]

/-- No native word makes an empty text out of others. -/
theorem stable_filled : Stable Filled where
  int := filled_int
  bool := filled_bool
  float _ finite := filled_float finite
  joined a b first _ := by simpa [Filled, canonical] using fun empty => absurd empty first
  unscored value filled := by simpa [Filled, canonical, Action.unscored] using filled

theorem filled_literal {token : String} (h : token ≠ "") : (literal token).Filled := by
  rw [literal]
  split
  · exact filled_int _
  · split
    · rename_i x read
      exact filled_float (Option.filter_eq_some_iff.mp read).2
    · split
      · exact filled_bool _
      · exact h

end Value

def Event.begun? : Event → Option String
  | .definitionBegun word _ => some word
  | _ => none

def Event.stored? : Event → Option String
  | .slotPatched _ token => some token
  | _ => none

namespace Journal

def begun (journal : Journal) : List String := journal.events.filterMap Event.begun?

def stored (journal : Journal) : List String := journal.events.filterMap Event.stored?

@[simp] theorem opened_record (journal : Journal) (event : Unit → Event) :
    (journal.record event).opened = journal.opened := by
  rw [record]
  split <;> simp_all

theorem begun_record {journal : Journal} (h : journal.opened = true) (event : Unit → Event) :
    (journal.record event).begun = (event ()).begun?.toList ++ journal.begun := by
  rw [record, if_pos h, begun, List.filterMap_cons]
  cases (event ()).begun? <;> rfl

theorem stored_record {journal : Journal} (h : journal.opened = true) (event : Unit → Event) :
    (journal.record event).stored = (event ()).stored?.toList ++ journal.stored := by
  rw [record, if_pos h, stored, List.filterMap_cons]
  cases (event ()).stored? <;> rfl

/-- The text is not empty, and it is a token or was stored. -/
def Accounts (journal : Journal) (text : String) : Prop :=
  text ≠ "" ∧ (Text.isToken text = true ∨ text ∈ journal.stored)

theorem accounts_of_isToken (journal : Journal) {text : String} (h : Text.isToken text = true) :
    journal.Accounts text := by
  refine ⟨?_, .inl h⟩
  rintro rfl
  cases h

theorem Accounts.record {journal : Journal} {text : String} (h : journal.Accounts text)
    (opened : journal.opened = true) (event : Unit → Event) : (journal.record event).Accounts text := by
  refine ⟨h.1, h.2.imp_right fun stored => ?_⟩
  rw [stored_record opened]
  exact List.mem_append_right _ stored

end Journal

theorem Lexicon.mem_entries_of_find? {ν : Type} {lexicon : Lexicon ν} {name : String} {word : Word ν}
    (found : lexicon.find? name = some word) : (name, word) ∈ lexicon.entries := by
  obtain ⟨i, place, here⟩ := Option.bind_eq_some_iff.mp found
  obtain ⟨entry, inside, rfl⟩ := Option.map_eq_some_iff.mp here
  have named := map_fst_getElem?_position place
  rw [inside] at named
  obtain rfl : entry.1 = name := Option.some.inj named
  exact List.mem_of_getElem? inside

namespace Dictionary

variable {ν : Type} {dictionary next : Dictionary ν} {name : String} {change : List String → List String}
  {good : String → Prop}

theorem names_editBody? (edited : dictionary.editBody? name change = some next) :
    next.user.names = dictionary.user.names := by
  obtain ⟨word, tokens, found, -, rfl⟩ := editBody?_eq_some edited
  have known : name ∈ dictionary.user.names :=
    List.mem_map_of_mem (Lexicon.mem_entries_of_find? found)
  rw [user_define, Lexicon.names_insert, if_pos known]

theorem natives_editBody? (edited : dictionary.editBody? name change = some next) :
    next.natives = dictionary.natives := by
  obtain ⟨word, tokens, -, -, rfl⟩ := editBody?_eq_some edited
  rfl

/-- The names and the bodies of the program's words are made of texts of a class. -/
def Consists (good : String → Prop) (dictionary : Dictionary ν) : Prop :=
  ∀ entry ∈ dictionary.user.entries,
    good entry.1 ∧ ∀ tokens, entry.2.tokens? = some tokens → ∀ token ∈ tokens, good token

namespace Consists

theorem mono {wider : String → Prop} (h : dictionary.Consists good)
    (sub : ∀ text, good text → wider text) : dictionary.Consists wider := by
  intro entry mem
  obtain ⟨named, written⟩ := h entry mem
  exact ⟨sub _ named, fun tokens body token inside => sub _ (written tokens body token inside)⟩

theorem named (h : dictionary.Consists good) (known : name ∈ dictionary.user.names) : good name := by
  obtain ⟨entry, mem, rfl⟩ := List.mem_map.mp known
  exact (h entry mem).1

theorem define (h : dictionary.Consists good) {word : Word ν} (named : good name)
    (written : ∀ tokens, word.tokens? = some tokens → ∀ token ∈ tokens, good token) :
    (dictionary.define name word).Consists good := by
  intro entry mem
  rcases Lexicon.mem_entries_insert mem with rfl | old
  · exact ⟨named, written⟩
  · exact h entry old

theorem edit (h : dictionary.Consists good)
    (edited : dictionary.editBody? name change = some next)
    (writes : ∀ tokens, (∀ token ∈ tokens, good token) → ∀ token ∈ change tokens, good token) :
    next.Consists good := by
  obtain ⟨word, tokens, found, body, rfl⟩ := editBody?_eq_some edited
  obtain ⟨named, written⟩ := h _ (Lexicon.mem_entries_of_find? found)
  apply h.define named
  intro after same
  obtain rfl : change tokens = after := Option.some.inj same
  exact writes tokens (written tokens body)

end Consists
end Dictionary

theorem Primitive.body_ne_compiled {name : String} {word : Word Primitive} {tokens : List String}
    (found : Primitive.lexicon.find? name = some word) : word.body ≠ .compiled tokens := by
  obtain ⟨primitive, -, named⟩ := List.mem_map.mp (Lexicon.mem_entries_of_find? found)
  obtain ⟨-, rfl⟩ := Prod.mk.inj named
  rintro ⟨⟩

/-- The journal of a piece of code is open and accounts for the texts in it: the names are those of the
definitions that were begun. -/
structure Code.Accounted (code : Code Primitive) : Prop where
  noting : code.journal.opened = true
  natives : code.dictionary.natives = Primitive.lexicon
  begun : ∀ name, name ∈ code.dictionary.user.names ↔ name ∈ code.journal.begun
  words : code.dictionary.Consists code.journal.Accounts

namespace Code.Accounted

variable {dictionary next : Dictionary Primitive} {openWord openWord' : Option String} {mode mode' : Mode}
  {journal : Journal}

theorem record (h : Code.Accounted ⟨dictionary, openWord, mode, journal⟩) (event : Unit → Event)
    (other : (event ()).begun? = none) :
    Code.Accounted ⟨dictionary, openWord', mode', journal.record event⟩ where
  noting := (Journal.opened_record journal event).trans h.noting
  natives := h.natives
  begun name := by
    rw [Journal.begun_record h.noting, other]
    exact h.begun name
  words := h.words.mono fun _ accounts => accounts.record h.noting event

theorem edit (h : Code.Accounted ⟨dictionary, openWord, mode, journal⟩) {name : String}
    {change : List String → List String} (edited : dictionary.editBody? name change = some next)
    (writes : ∀ tokens, (∀ token ∈ tokens, journal.Accounts token) →
      ∀ token ∈ change tokens, journal.Accounts token) :
    Code.Accounted ⟨next, openWord', mode', journal⟩ where
  noting := h.noting
  natives := (Dictionary.natives_editBody? edited).trans h.natives
  begun other := by
    rw [Dictionary.names_editBody? edited]
    exact h.begun other
  words := h.words.edit edited writes

theorem begin (h : Code.Accounted ⟨dictionary, openWord, mode, journal⟩) {name : String}
    (accounts : journal.Accounts name) (immediate : Bool) :
    Code.Accounted ⟨dictionary.define name (.compiled immediate []), openWord', mode',
      journal.record fun _ => .definitionBegun name immediate⟩ where
  noting := (Journal.opened_record journal _).trans h.noting
  natives := h.natives
  begun other := by
    rw [Journal.begun_record h.noting, Dictionary.user_define, Lexicon.mem_names_insert, h.begun other]
    exact List.mem_cons.symm
  words := by
    have later := h.words.mono fun _ accounts =>
      accounts.record h.noting fun _ => .definitionBegun name immediate
    apply later.define (accounts.record h.noting _)
    rintro tokens ⟨⟩
    simp

end Code.Accounted

namespace Machine

/-- The journal accounts for all texts that the machine reads and keeps in words. A value on the stack
may have any text but the empty one. -/
structure Accounted (m : StandardMachine) : Prop where
  code : m.code.Accounted
  inputs : ∀ input ∈ m.inputs, ∀ token ∈ input, m.journal.Accounts token
  values : ∀ value ∈ m.stack, value.Filled

namespace Accounted

variable {m : StandardMachine}

theorem input (h : m.Accounted) {token : String} (read : token ∈ m.input) : m.journal.Accounts token :=
  h.inputs m.input List.mem_cons_self token read

theorem deed (h : m.Accounted) {code : Code Primitive} (deed : Deed m code) :
    code.Accounted ∧ ∀ text, m.journal.Accounts text → code.journal.Accounts text := by
  have noting : m.journal.opened = true := h.code.noting
  cases deed with
  | kept => exact ⟨h.code, fun _ => id⟩
  | opened name immediate idle read =>
    exact ⟨h.code.begin (h.input read) immediate, fun _ accounts => accounts.record noting _⟩
  | closed name was journal noted =>
    rcases noted with rfl | ⟨body, rfl⟩
    · exact ⟨{ h.code with }, fun _ => id⟩
    · exact ⟨h.code.record _ rfl, fun _ accounts => accounts.record noting _⟩
  | extended name was tokens given dictionary edited mode compiling =>
    refine ⟨h.code.edit edited ?_, fun _ => id⟩
    intro body written token mem
    rcases List.mem_append.mp mem with old | new
    · exact written token old
    · rcases given token new with isToken | read
      · exact m.journal.accounts_of_isToken isToken
      · exact h.input read
  | patched name was index value held dictionary edited =>
    have stored : (m.journal.record fun _ => .slotPatched index value.canonical).Accounts
        value.canonical := by
      refine ⟨h.values value held, .inr ?_⟩
      rw [Journal.stored_record noting]
      exact List.mem_cons_self
    have noted : Code.Accounted ⟨m.dictionary, m.openWord, m.mode,
        m.journal.record fun _ => .slotPatched index value.canonical⟩ := h.code.record _ rfl
    refine ⟨noted.edit edited ?_, fun _ accounts => accounts.record noting _⟩
    intro body written token mem
    rcases List.mem_or_eq_of_mem_set mem with old | rfl
    · exact written token old
    · exact stored
  | suspended => exact ⟨{ h.code with }, fun _ => id⟩

/-- An action that is put together from operations, and that does to the code what a native word can do, is
accounted for. -/
theorem act (h : m.Accounted) {action : Action Primitive Unit}
    (plain : Action.Plain .any Value.Filled action)
    (done : Deed m (Outcome.machine (action m)).code) : (Outcome.machine (action m)).Accounted := by
  obtain ⟨inputs, values⟩ := inputs_of_composed plain h.values
  obtain ⟨code, grows⟩ := h.deed done
  refine ⟨code, ?_, values⟩
  rw [inputs]
  exact fun input mem token read => grows token (h.inputs input mem token read)

theorem record (h : m.Accounted) (event : StandardMachine → Event)
    (other : (event m).begun? = none) : (m.record event).Accounted where
  code := h.code.record (fun _ => event m) other
  inputs input mem token read := (h.inputs input mem token read).record h.code.noting _
  values := h.values

theorem moveTo (h : m.Accounted) (index : Nat) : (m.moveTo index).Accounted where
  code := h.code
  inputs := by
    rw [inputs_moveTo]
    exact h.inputs
  values := h.values

theorem read (h : m.Accounted) (token : String) : (m.read token).Accounted :=
  (h.moveTo (m.cursor + 1)).record _ rfl

theorem load (h : m.Accounted) (source : String) : (m.loadText source).Accounted where
  code := { h.code with }
  inputs := by
    have saved := (List.forall_mem_cons.mp h.inputs).2
    refine List.forall_mem_cons.mpr ⟨fun token mem => ?_, saved⟩
    exact m.journal.accounts_of_isToken (Text.isToken_of_mem_tokens mem)
  values := h.values

theorem recover (h : m.Accounted) : m.recover.Accounted where
  code := { h.code with }
  inputs := by simp [Machine.inputs, Machine.recover]
  values := h.values

theorem leave (h : m.Accounted) : m.leave.Accounted := by
  cases frames : m.frames with
  | nil =>
    rw [leave_of_idle frames]
    exact h
  | cons frame callers =>
    have noted := h.record (fun _ => .wordLeft frame.word callers.length) rfl
    have saved := (List.forall_mem_cons.mp noted.inputs).2
    rw [show (m.record _).frames = frame :: callers from frames] at saved
    simp only [Machine.leave, frames]
    exact ⟨{ noted.code with }, saved, h.values⟩

theorem exhaust (h : m.Accounted) : m.exhaust.Accounted := by
  rw [Machine.exhaust]
  split
  · exact ⟨{ h.code with }, h.inputs, h.values⟩
  · exact h.leave

theorem call (h : m.Accounted) {name : String} {tokens : List String} {word : Word Primitive}
    (found : m.dictionary.find? name = some word) (body : word.body = .compiled tokens) :
    (m.call name tokens).machine.Accounted := by
  have written : ∀ token ∈ tokens, m.journal.Accounts token := by
    rw [Dictionary.find?_eq, Option.or_eq_some_iff] at found
    rcases found with user | ⟨-, native⟩
    · have entry := h.code.words (name, word) (Lexicon.mem_entries_of_find? user)
      exact entry.2 tokens (by rw [Word.tokens?, body])
    · rw [show m.dictionary.natives = Primitive.lexicon from h.code.natives] at native
      exact absurd body (Primitive.body_ne_compiled native)
  rw [Machine.call]
  split
  · exact h.record (fun m => .depthReached name m.depthBound) rfl
  · have noted := h.record (fun m => .wordEntered name (m.depth + 1)) rfl
    refine ⟨{ noted.code with }, List.forall_mem_cons.mpr ⟨?_, noted.inputs⟩, h.values⟩
    exact fun token mem => (written token mem).record h.code.noting _

theorem steady : Steady Primitive.handler Accounted fun _ => True where
  tick := by
    intro m outcome h ticked
    apply Outcome.Within.of_machine
    obtain rfl | ⟨token, action, next, asked, rfl⟩ | ⟨token, word, tokens, next, found, body, rfl⟩ :=
      tick_cases ticked
    · exact h.exhaust
    · have read : token ∈ (m.read token).input := List.mem_of_getElem? next
      have filled := Value.filled_literal ((h.read token).input read).1
      exact (h.read token).act (plain_of_request_stable Value.stable_filled filled asked)
        (Deed.of_request read asked)
    · exact (h.read token).call found body
  dispatch := by
    intro name m outcome h dispatched
    apply Outcome.Within.of_machine
    obtain rfl | ⟨primitive, rfl⟩ | ⟨word, tokens, found, body, rfl⟩ := dispatch_cases dispatched
    · exact h
    · exact h.act (.primitive Value.stable_filled primitive) (Deed.of_primitive primitive m)
    · exact h.call found body
  leave := leave

end Accounted

def noting (host : Host Primitive) : Host Primitive := { host with journal := { opened := true } }

theorem accounted_start {host : Host Primitive} (standard : host.natives = Primitive.lexicon) :
    (start (noting host)).Accounted where
  code := ⟨rfl, standard, fun name => Iff.rfl, fun entry mem => absurd mem List.not_mem_nil⟩
  inputs := by simp [inputs, start]
  values := by simp [start]

theorem Reachable.accounted {host : Host Primitive} (standard : host.natives = Primitive.lexicon)
    {m : StandardMachine} (h : Reachable (noting host) m) : m.Accounted := by
  induction h with
  | start => exact accounted_start standard
  | load source fits before ih => exact ih.load source
  | interpreted source fits before ran ih => exact (Accounted.steady.runToHalt (ih.load source) ran).machine
  | stepped before ran ih => exact (Accounted.steady.step ih ran).machine
  | recovered before ih => exact ih.recover

/-- Of two evaluations that do the same but for the journal, one ends when the other does. -/
theorem exists_of_quiet {first second : Option (Outcome Primitive Unit)} {outcome : Outcome Primitive Unit}
    (same : first.map (Outcome.over quiet) = second.map (Outcome.over quiet))
    (ended : second = some outcome) :
    ∃ noted, first = some noted ∧ noted.machine.quiet = outcome.machine.quiet := by
  rw [ended] at same
  obtain ⟨noted, first, equal⟩ := Option.map_eq_some_iff.mp same
  have machines := congrArg Outcome.machine equal
  rw [Outcome.machine_over, Outcome.machine_over] at machines
  exact ⟨noted, first, machines⟩

/-- What a program brings about, it brings about with the journal open as well. -/
theorem Reachable.exists_noting {host : Host Primitive} {m : StandardMachine} (h : Reachable host m) :
    ∃ noted, Reachable (noting host) noted ∧ noted.quiet = m.quiet := by
  induction h with
  | start => exact ⟨_, .start, rfl⟩
  | load source fits before ih =>
    obtain ⟨noted, reachable, same⟩ := ih
    exact ⟨_, reachable.load source fits, congrArg (loadText source) same⟩
  | @interpreted m fuel outcome source fits before ran ih =>
    obtain ⟨noted, reachable, same⟩ := ih
    have quiet := quiet_interpret fuel source noted
    rw [same, quiet_interpret] at quiet
    obtain ⟨after, ran, same⟩ := exists_of_quiet quiet.symm ran
    exact ⟨_, reachable.interpreted source fits ran, same⟩
  | @stepped m fuel outcome before ran ih =>
    obtain ⟨noted, reachable, same⟩ := ih
    have quiet := quiet_step fuel noted
    rw [same, quiet_step] at quiet
    obtain ⟨after, ran, same⟩ := exists_of_quiet quiet.symm ran
    exact ⟨_, reachable.stepped ran, same⟩
  | recovered before ih =>
    obtain ⟨noted, reachable, same⟩ := ih
    exact ⟨_, reachable.recovered, congrArg Machine.recover same⟩

/-- The names of a program's words are never empty, and each is a token or a text that a store has put
into a body as it is. So all names are tokens exactly when no other text was stored and then read as the
name of a definition. This is said of machines that note what they do, and every machine does what such a
machine does. A state with another name has a persisted form that is refused. -/
theorem isToken_names_iff {host : Host Primitive} (standard : host.natives = Primitive.lexicon) :
    (∀ m, Reachable host m → ∃ noted, Reachable (noting host) noted ∧ noted.quiet = m.quiet) ∧
      ∀ m, Reachable (noting host) m →
        (∀ name ∈ m.dictionary.user.names,
          name ≠ "" ∧ (Text.isToken name = true ∨ name ∈ m.journal.stored)) ∧
        ((∀ name ∈ m.dictionary.user.names, Text.isToken name = true) ↔
          ∀ text ∈ m.journal.stored, text ∈ m.journal.begun → Text.isToken text = true) ∧
        ∃ form, m.serialize = .ok form ∧
          ((∃ name, deserialize host form = .error { cause := .invalidName name }) ↔
            ∃ name ∈ m.dictionary.user.names, Text.isToken name = false) := by
  refine ⟨fun m => Reachable.exists_noting, fun m reachable => ?_⟩
  have accounted := reachable.accounted standard
  have begun : ∀ name, name ∈ m.dictionary.user.names ↔ name ∈ m.journal.begun := accounted.code.begun
  have names : ∀ name ∈ m.dictionary.user.names, m.journal.Accounts name :=
    fun name => accounted.code.words.named
  obtain ⟨sound, idle⟩ := reachable.sound
  have persistable := sound.persistable idle
  refine ⟨names, ?_, _, serialize_eq persistable, deserialize_unnamed_iff host persistable sound.present⟩
  constructor
  · intro tokens text _ read
    exact tokens text ((begun text).mpr read)
  · intro tokens name known
    rcases (names name known).2 with token | stored
    · exact token
    · exact tokens name stored ((begun name).mp known)

/-- A machine that has stored a name with a blank in it, and has begun and ended a definition of that
name. -/
def misnamed : StandardMachine :=
  { start standardHost with
    dictionary := ⟨Primitive.lexicon,
      ⟨[("D", .compiled false [":", "a b"]), ("a b", .compiled false [])]⟩⟩
    input := [":", "D", ":", "X", "]", "1", "a_b", "\"", "!", "[", "]", ";", "D", ";"]
    cursor := 14
    mode := .halt }

theorem reachable_misnamed : Reachable standardHost misnamed := by
  have ran : (start standardHost).interpret Primitive.handler 14
      ": D : X ] 1 a_b \" ! [ ] ; D ;" = some (.ok () misnamed) := by rfl
  exact Reachable.start.interpreted _ (by decide +kernel) ran

/-- The name has a blank in it, and the persisted form is refused. -/
theorem not_isToken_misnamed :
    Reachable standardHost misnamed ∧ "a b" ∈ misnamed.dictionary.user.names ∧
      Text.isToken "a b" = false ∧
      ∃ form fault, misnamed.serialize = .ok form ∧
        deserialize standardHost form = .error fault ∧
        fault.message = "Invalid word name \"a b\"." := by
  obtain ⟨sound, idle⟩ := reachable_misnamed.sound
  have persistable := sound.persistable idle
  have bad : misnamed.dictionary.user.names.find? (fun name => !Text.isToken name) = some "a b" := by
    decide +kernel
  have refused := restore_snapshot_unnamed standardHost persistable sound.present bad
  rw [← deserialize_encode _ persistable] at refused
  exact ⟨reachable_misnamed, by decide, by decide, _, _, serialize_eq persistable, refused,
    by decide +kernel⟩

/-- The journal tells where the name comes from. -/
theorem isToken_names_iff_misnamed :
    ∃ noted, Reachable (noting standardHost) noted ∧
      noted.quiet = misnamed.quiet ∧ "a b" ∈ noted.journal.stored ∧
      ¬ ∀ text ∈ noted.journal.stored, text ∈ noted.journal.begun → Text.isToken text = true := by
  have standard : standardHost.natives = Primitive.lexicon := rfl
  obtain ⟨covered, accounts⟩ := isToken_names_iff standard
  obtain ⟨noted, reachable, same⟩ := covered misnamed reachable_misnamed
  obtain ⟨names, tokens, -⟩ := accounts noted reachable
  have known : "a b" ∈ noted.dictionary.user.names := by
    show "a b" ∈ noted.quiet.dictionary.user.names
    rw [same]
    decide
  have blank : Text.isToken "a b" = false := by decide
  refine ⟨noted, reachable, same, ?_, fun all => ?_⟩
  · simpa [blank] using (names "a b" known).2
  · simpa [blank] using tokens.mpr all "a b" known

end Machine
end ResumableForth
