import ResumableForth.Proofs.Composition
import ResumableForth.Proofs.Indexed
import ResumableForth.Trace

/-! A machine with its books apart: saved callers in one list and call items in another, words in an array
with an index of their places, and the bound on running words as it was given. Nothing in the data keeps
the two lists in step; the operations do. Put together, the books are a machine, and every operation does
to the books what it does to that machine. -/
namespace ResumableForth

structure Caller where
  input : List String
  cursor : Nat
  mode : Mode

structure Ledger (ν : Type) where
  dictionary : IndexedDictionary ν
  stack : List Value := []
  input : List String := []
  cursor : Nat := 0
  mode : Mode := .execute
  openWord : Option String := none
  output : String := ""
  callers : List Caller := []
  calls : List CallItem := []
  limit : Nat
  generator : Generator
  journal : Journal

namespace Ledger

variable {ν α : Type}

def start (host : Host ν) : Ledger ν :=
  { dictionary := .ofNatives host.natives
    limit := max host.depthBound 1
    generator := host.generator
    journal := host.journal }

/-- The words of a snapshot, defined one behind the other. -/
def defined (dictionary : IndexedDictionary ν) (words : List WordEntry) : IndexedDictionary ν :=
  words.foldl (fun dictionary word => dictionary.define word.name (.compiled word.immediate word.tokens))
    dictionary

def resumed (host : Host ν) (snapshot : Snapshot) (stack : List Value) : Ledger ν :=
  { start host with
    dictionary := defined (.ofNatives host.natives) snapshot.words
    stack := stack
    input := snapshot.input
    cursor := snapshot.cursor
    mode := snapshot.mode
    openWord := snapshot.openWord
    output := snapshot.output }

def record (event : Event) (l : Ledger ν) : Ledger ν :=
  { l with journal := l.journal.record fun _ => event }

def sync (index : Nat) : List CallItem → List CallItem
  | [] => []
  | item :: calls => { item with index := index } :: calls

def moveTo (index : Nat) (l : Ledger ν) : Ledger ν :=
  { l with cursor := index, calls := sync index l.calls }

def load (tokens : List String) (l : Ledger ν) : Ledger ν :=
  { l with
    input := tokens
    cursor := 0
    mode := if l.openWord.isSome then .compile else .execute }

def recover (l : Ledger ν) : Ledger ν :=
  { l with input := [], cursor := 0, mode := .halt, calls := [], callers := [] }

def enter (name : String) (tokens : List String) (l : Ledger ν) : Ledger ν :=
  { l.record (.wordEntered name (l.calls.length + 1)) with
    input := tokens
    cursor := 0
    mode := .execute
    callers := ⟨l.input, l.cursor, l.mode⟩ :: l.callers
    calls := ⟨name, 0⟩ :: l.calls }

/-- Drops the innermost call item, if there is one. -/
def dropCall (l : Ledger ν) : Ledger ν :=
  match l.calls with
  | [] => l
  | item :: calls => { l.record (.wordLeft item.word calls.length) with calls := calls }

def leave (l : Ledger ν) : Ledger ν :=
  match l.callers with
  | [] => l
  | caller :: callers =>
    { l.dropCall with
      input := caller.input
      cursor := caller.cursor
      mode := caller.mode
      callers := callers }

def fail (cause : Cause) (l : Ledger ν) : EStateM.Result Fault (Ledger ν) α := .error ⟨cause, l.calls⟩ l

def beginDefinition (name : String) (immediate : Bool) (l : Ledger ν) :
    EStateM.Result Fault (Ledger ν) Unit :=
  match l.openWord with
  | some current => l.fail (.definitionOpen name current)
  | none =>
    .ok () { l.record (.definitionBegun name immediate) with
      dictionary := l.dictionary.define name (.compiled immediate [])
      openWord := some name
      mode := .compile }

def endDefinition (l : Ledger ν) : EStateM.Result Fault (Ledger ν) Unit :=
  match l.openWord with
  | none => l.fail .noDefinition
  | some name =>
    let noted := match l.dictionary.body? name with
      | some body => l.record (.definitionEnded name body)
      | none => l
    .ok () { noted with openWord := none, mode := .execute }

def here (l : Ledger ν) : EStateM.Result Fault (Ledger ν) Nat :=
  match l.openWord with
  | none => l.fail .noDefinition
  | some name =>
    match l.dictionary.body? name with
    | some body => .ok body.length l
    | none => l.fail (.definitionLost name)

def edit (change : List String → List String) (l : Ledger ν) : EStateM.Result Fault (Ledger ν) Unit :=
  match l.openWord with
  | none => l.fail .noDefinition
  | some name =>
    match l.dictionary.editBody? name change with
    | some dictionary => .ok () { l with dictionary := dictionary }
    | none => l.fail (.definitionLost name)

def exec (l : Ledger ν) : {α : Type} → Op α → EStateM.Result Fault (Ledger ν) α
  | _, .push value => .ok () { l with stack := value :: l.stack }
  | _, .pop =>
    match l.stack with
    | [] => l.fail .emptyStack
    | value :: stack => .ok value { l with stack := stack }
  | _, .pick index =>
    match l.stack[index]? with
    | some value => .ok value l
    | none => l.fail (.pickBeyond index l.stack.length)
  | _, .write text => .ok () { l with output := l.output ++ text }
  | _, .values => .ok l.stack l
  | _, .look => .ok ⟨l.input, l.cursor, l.mode, l.openWord, l.callers.isEmpty⟩ l
  | _, .nextToken =>
    match l.input[l.cursor]? with
    | some token => .ok (some token) (l.moveTo (l.cursor + 1))
    | none => .ok none l
  | _, .jump index =>
    if index ≤ l.input.length then .ok () (l.moveTo index)
    else l.fail (.cursorOutside index l.input.length)
  | _, .setMode mode _ => .ok () { l with mode := mode }
  | _, .beginDefinition name immediate => l.beginDefinition name immediate
  | _, .endDefinition => l.endDefinition
  | _, .here => l.here
  | _, .edit change => l.edit change
  | _, .notePatch index token => .ok () (l.record (.slotPatched index token))
  | _, .draw span => .ok (l.generator.draw span).1 { l with generator := (l.generator.draw span).2 }

def after (l : Ledger ν) (operation : Op α) : Ledger ν :=
  match l.exec operation with
  | .ok _ next => next
  | .error _ next => next

def frames (callers : List Caller) (calls : List CallItem) : List Frame :=
  List.zipWith (fun caller item => ⟨item.word, item.index, caller.input, caller.cursor, caller.mode⟩)
    callers calls

/-- The machine that the books are put together to. -/
def joined (l : Ledger ν) : Machine ν where
  dictionary := l.dictionary.plain
  stack := l.stack
  input := l.input
  cursor := l.cursor
  mode := l.mode
  openWord := l.openWord
  output := l.output
  frames := frames l.callers l.calls
  room := l.limit - l.calls.length
  generator := l.generator
  journal := l.journal

def outcome : EStateM.Result Fault (Ledger ν) α → Outcome ν α
  | .ok x l => .ok x l.joined
  | .error fault l => .error fault l.joined

/-- Each running word has a caller and a call item, and there are no more of them than may be. -/
structure Paired (l : Ledger ν) : Prop where
  even : l.callers.length = l.calls.length
  few : l.calls.length ≤ l.limit

theorem length_frames {callers : List Caller} {calls : List CallItem}
    (even : callers.length = calls.length) : (frames callers calls).length = calls.length := by
  rw [frames, List.length_zipWith, even, Nat.min_self]

theorem map_frames {callers : List Caller} {calls : List CallItem} (even : callers.length = calls.length) :
    (frames callers calls).map (fun frame => CallItem.mk frame.word frame.reached) = calls := by
  induction callers generalizing calls with
  | nil => simpa [frames] using even.symm
  | cons caller callers ih =>
    cases calls with
    | nil => simp at even
    | cons item calls =>
      have rest := ih (Nat.succ.inj even)
      simpa [frames] using rest

theorem exists_frame_of_mem {callers : List Caller} {calls : List CallItem}
    (even : callers.length = calls.length) {caller : Caller} (mem : caller ∈ callers) :
    ∃ frame ∈ frames callers calls, frame.input = caller.input ∧ frame.cursor = caller.cursor := by
  induction callers generalizing calls with
  | nil => cases mem
  | cons first callers ih =>
    cases calls with
    | nil => simp at even
    | cons item calls =>
      rcases List.mem_cons.mp mem with rfl | there
      · exact ⟨_, List.mem_cons_self, rfl, rfl⟩
      · obtain ⟨frame, found, same⟩ := ih (Nat.succ.inj even) there
        exact ⟨frame, List.mem_cons_of_mem _ found, same⟩

theorem isEmpty_frames {callers : List Caller} {calls : List CallItem}
    (even : callers.length = calls.length) : (frames callers calls).isEmpty = callers.isEmpty := by
  cases callers with
  | nil => rfl
  | cons caller callers =>
    cases calls with
    | nil => simp at even
    | cons item calls => rfl

theorem frames_sync (index : Nat) (callers : List Caller) (calls : List CallItem) :
    frames callers (sync index calls) = Machine.reach index (frames callers calls) := by
  cases callers with
  | nil => rfl
  | cons caller callers => cases calls <;> rfl

@[simp] theorem length_sync (index : Nat) (calls : List CallItem) :
    (sync index calls).length = calls.length := by
  cases calls <;> rfl

theorem stack_joined (l : Ledger ν) : l.joined.stack = l.stack := rfl

theorem openWord_joined (l : Ledger ν) : l.joined.openWord = l.openWord := rfl

theorem token?_joined (l : Ledger ν) : l.joined.token? = l.input[l.cursor]? := rfl

theorem body?_joined (l : Ledger ν) (name : String) :
    l.joined.dictionary.body? name = l.dictionary.body? name := l.dictionary.body?_plain name

theorem editBody?_joined (l : Ledger ν) (name : String) (change : List String → List String) :
    l.joined.dictionary.editBody? name change =
      (l.dictionary.editBody? name change).map IndexedDictionary.plain :=
  (l.dictionary.plain_editBody? name change).symm

section

variable {l : Ledger ν}

theorem calls_joined (paired : l.Paired) : l.joined.calls = l.calls := map_frames paired.even

theorem depth_joined (paired : l.Paired) : l.joined.depth = l.calls.length := length_frames paired.even

theorem depthBound_joined (paired : l.Paired) : l.joined.depthBound = l.limit := by
  rw [Machine.depthBound, depth_joined paired]
  exact Nat.add_sub_cancel' paired.few

theorem room_joined (paired : l.Paired) : l.joined.room ≠ 0 ↔ l.calls.length < l.limit := by
  have few := paired.few
  show l.limit - l.calls.length ≠ 0 ↔ _
  omega

theorem fail_joined (paired : l.Paired) (cause : Cause) :
    (Action.fail cause l.joined : Outcome ν α) = outcome (l.fail cause) := by
  rw [Action.fail, calls_joined paired]
  rfl

theorem joined_moveTo (index : Nat) (l : Ledger ν) : (l.moveTo index).joined = l.joined.moveTo index := by
  simp only [joined, moveTo, Machine.moveTo, frames_sync, length_sync]

theorem joined_enter (paired : l.Paired) (name : String) (tokens : List String) :
    (l.enter name tokens).joined = l.joined.enter name tokens := by
  have depth := depth_joined paired
  simp only [Machine.enter, Machine.record, depth]
  rfl

theorem joined_leave (paired : l.Paired) : l.leave.joined = l.joined.leave := by
  have even := paired.even
  have few := paired.few
  cases callers : l.callers with
  | nil =>
    have idle : l.joined.frames = [] := by
      show frames l.callers l.calls = []
      rw [callers]
      rfl
    simp only [leave, callers, Machine.leave, idle]
  | cons caller rest =>
    cases calls : l.calls with
    | nil => simp [callers, calls] at even
    | cons item items =>
      rw [callers, calls] at even
      have length := length_frames (Nat.succ.inj even)
      have running : l.joined.frames =
          ⟨item.word, item.index, caller.input, caller.cursor, caller.mode⟩ :: frames rest items := by
        show frames l.callers l.calls = _
        rw [callers, calls]
        rfl
      have room : l.limit - items.length = l.limit - l.calls.length + 1 := by
        rw [calls] at few ⊢
        simp only [List.length_cons] at few ⊢
        omega
      simp only [leave, callers, dropCall, calls, Machine.leave, running, length]
      simp only [joined, record, Machine.record, room]

theorem joined_recover (paired : l.Paired) : l.recover.joined = l.joined.recover := by
  rw [Machine.recover, depthBound_joined paired]
  rfl

theorem beginDefinition_joined (paired : l.Paired) (name : String) (immediate : Bool) :
    Action.beginDefinition name immediate l.joined = outcome (l.beginDefinition name immediate) := by
  cases opened : l.openWord with
  | some current =>
    simp only [Action.beginDefinition, beginDefinition, openWord_joined, opened]
    exact fail_joined paired _
  | none =>
    simp only [Action.beginDefinition, beginDefinition, openWord_joined, opened]
    simp only [outcome, joined, IndexedDictionary.plain_define]
    rfl

theorem endDefinition_joined (paired : l.Paired) :
    Action.endDefinition l.joined = outcome l.endDefinition := by
  cases opened : l.openWord with
  | none =>
    simp only [Action.endDefinition, endDefinition, openWord_joined, opened]
    exact fail_joined paired _
  | some name =>
    simp only [Action.endDefinition, endDefinition, openWord_joined, opened, body?_joined]
    cases l.dictionary.body? name <;> rfl

theorem here_joined (paired : l.Paired) : Action.here l.joined = outcome l.here := by
  cases opened : l.openWord with
  | none =>
    simp only [Action.here, here, openWord_joined, opened]
    exact fail_joined paired _
  | some name =>
    simp only [Action.here, here, openWord_joined, opened, body?_joined]
    cases l.dictionary.body? name with
    | none => exact fail_joined paired _
    | some tokens => rfl

theorem edit_joined (paired : l.Paired) (change : List String → List String) :
    Action.editDefinition change l.joined = outcome (l.edit change) := by
  cases opened : l.openWord with
  | none =>
    simp only [Action.editDefinition, edit, openWord_joined, opened]
    exact fail_joined paired _
  | some name =>
    simp only [Action.editDefinition, edit, openWord_joined, opened, editBody?_joined]
    cases l.dictionary.editBody? name change with
    | none => exact fail_joined paired _
    | some dictionary => rfl

/-- An operation does to the books what it does to the machine. -/
theorem exec_joined (paired : l.Paired) (operation : Op α) :
    operation.exec l.joined = outcome (l.exec operation) := by
  cases operation with
  | pop =>
    simp only [Op.exec, Action.pop, exec, stack_joined]
    cases l.stack with
    | nil => exact fail_joined paired _
    | cons value stack => rfl
  | pick index =>
    simp only [Op.exec, Action.pick, exec, stack_joined]
    cases l.stack[index]? with
    | none => exact fail_joined paired _
    | some value => rfl
  | look =>
    simp only [Op.exec, exec, ← isEmpty_frames paired.even]
    rfl
  | nextToken =>
    simp only [Op.exec, Action.nextToken, exec, token?_joined]
    cases l.input[l.cursor]? with
    | none => rfl
    | some token => exact congrArg (EStateM.Result.ok (some token)) (joined_moveTo _ l).symm
  | jump index =>
    by_cases inside : index ≤ l.input.length
    · have moved : Action.jump index l.joined = .ok () (l.joined.moveTo index) := if_pos inside
      rw [Op.exec, moved, exec, if_pos inside, ← joined_moveTo]
      rfl
    · have refused : Action.jump index l.joined =
          Action.fail (.cursorOutside index l.input.length) l.joined := if_neg inside
      rw [Op.exec, refused, exec, if_neg inside]
      exact fail_joined paired _
  | beginDefinition name immediate => exact beginDefinition_joined paired name immediate
  | endDefinition => exact endDefinition_joined paired
  | here => exact here_joined paired
  | edit change => exact edit_joined paired change
  | push | write | values | setMode | notePatch | draw => rfl

theorem machine_exec_joined (paired : l.Paired) (operation : Op α) :
    Outcome.machine (operation.exec l.joined) = (l.after operation).joined := by
  rw [exec_joined paired, after]
  cases l.exec operation <;> rfl

theorem after_callers (l : Ledger ν) (operation : Op α) :
    (l.after operation).callers = l.callers ∧ (l.after operation).calls.length = l.calls.length ∧
      (l.after operation).limit = l.limit := by
  cases operation with
  | pop =>
    simp only [after, exec]
    cases l.stack <;> exact ⟨rfl, rfl, rfl⟩
  | pick index =>
    simp only [after, exec]
    cases l.stack[index]? <;> exact ⟨rfl, rfl, rfl⟩
  | nextToken =>
    simp only [after, exec]
    cases l.input[l.cursor]? with
    | none => exact ⟨rfl, rfl, rfl⟩
    | some token => exact ⟨rfl, length_sync _ _, rfl⟩
  | jump index =>
    simp only [after, exec]
    by_cases inside : index ≤ l.input.length
    · simp only [if_pos inside]
      exact ⟨rfl, length_sync _ _, rfl⟩
    · simp only [if_neg inside]
      exact ⟨rfl, rfl, rfl⟩
  | beginDefinition name immediate =>
    simp only [after, exec, beginDefinition]
    cases l.openWord <;> exact ⟨rfl, rfl, rfl⟩
  | endDefinition =>
    simp only [after, exec, endDefinition]
    cases l.openWord with
    | none => exact ⟨rfl, rfl, rfl⟩
    | some name =>
      dsimp only
      cases l.dictionary.body? name <;> exact ⟨rfl, rfl, rfl⟩
  | here =>
    simp only [after, exec, here]
    cases l.openWord with
    | none => exact ⟨rfl, rfl, rfl⟩
    | some name =>
      dsimp only
      cases l.dictionary.body? name <;> exact ⟨rfl, rfl, rfl⟩
  | edit change =>
    simp only [after, exec, edit]
    cases l.openWord with
    | none => exact ⟨rfl, rfl, rfl⟩
    | some name =>
      dsimp only
      cases l.dictionary.editBody? name change <;> exact ⟨rfl, rfl, rfl⟩
  | push | write | values | look | setMode | notePatch | draw => exact ⟨rfl, rfl, rfl⟩

namespace Paired

theorem after (h : l.Paired) (operation : Op α) : (l.after operation).Paired := by
  obtain ⟨callers, calls, limit⟩ := l.after_callers operation
  refine ⟨?_, ?_⟩
  · rw [callers, calls]
    exact h.even
  · rw [calls, limit]
    exact h.few

theorem enter (h : l.Paired) (name : String) (tokens : List String) (room : l.calls.length < l.limit) :
    (l.enter name tokens).Paired := ⟨congrArg (· + 1) h.even, room⟩

theorem leave (h : l.Paired) : l.leave.Paired := by
  obtain ⟨even, few⟩ := h
  cases callers : l.callers with
  | nil =>
    simp only [Ledger.leave, callers]
    exact ⟨even, few⟩
  | cons caller rest =>
    rw [callers] at even
    cases calls : l.calls with
    | nil => simp [calls] at even
    | cons item items =>
      rw [calls] at even few
      simp only [Ledger.leave, callers, dropCall, calls]
      exact ⟨Nat.succ.inj even, Nat.le_of_succ_le few⟩

end Paired

/-- The books that there can be on a host: fresh ones or those of a snapshot that has passed the checks, and
what comes of them by operations and by entering and leaving words, in any order. -/
inductive Reached (host : Host ν) : Ledger ν → Prop
  | start : Reached host (start host)
  | resumed {snapshot : Snapshot} (stack : List Value) (inside : snapshot.cursor ≤ snapshot.input.length)
    (opened : ∀ name, snapshot.openWord = some name →
      (defined (.ofNatives host.natives) snapshot.words).user.contains name = true) :
    Reached host (resumed host snapshot stack)
  | operated {l : Ledger ν} {α : Type} (operation : Op α) (before : Reached host l) :
    Reached host (l.after operation)
  | noted {l : Ledger ν} (event : Event) (before : Reached host l) : Reached host (l.record event)
  | entered {l : Ledger ν} (name : String) (tokens : List String) (room : l.calls.length < l.limit)
    (before : Reached host l) : Reached host (l.enter name tokens)
  | left {l : Ledger ν} (before : Reached host l) : Reached host l.leave
  | switched {l : Ledger ν} (mode : Mode) (before : Reached host l) : Reached host { l with mode := mode }
  | loaded {l : Ledger ν} (tokens : List String) (before : Reached host l) : Reached host (l.load tokens)
  | recovered {l : Ledger ν} (before : Reached host l) : Reached host l.recover
  | emptied {l : Ledger ν} (before : Reached host l) : Reached host { l with output := "" }

/-- At all times the two lists are in step. -/
theorem Reached.paired {host : Host ν} (h : Reached host l) : l.Paired := by
  induction h with
  | start => exact ⟨rfl, Nat.zero_le _⟩
  | resumed stack inside opened => exact ⟨rfl, Nat.zero_le _⟩
  | operated operation before ih => exact ih.after operation
  | noted event before ih => exact ⟨ih.even, ih.few⟩
  | entered name tokens room before ih => exact ih.enter name tokens room
  | left before ih => exact ih.leave
  | switched mode before ih => exact ⟨ih.even, ih.few⟩
  | loaded tokens before ih => exact ⟨ih.even, ih.few⟩
  | recovered before ih => exact ⟨rfl, Nat.zero_le _⟩
  | emptied before ih => exact ⟨ih.even, ih.few⟩

theorem natives_defined (dictionary : IndexedDictionary ν) (words : List WordEntry) :
    (defined dictionary words).natives = dictionary.natives := by
  induction words generalizing dictionary with
  | nil => rfl
  | cons word words ih => exact ih _

/-- Words that a snapshot may have are defined as they are read. -/
theorem plain_defined {words : List WordEntry} {dictionary : IndexedDictionary ν} {user : Lexicon ν}
    (read : Snapshot.readWords dictionary.plain.user words = .ok user) :
    (defined dictionary words).plain = ⟨dictionary.natives, user⟩ := by
  induction words generalizing dictionary with
  | nil =>
    cases read
    rfl
  | cons word words ih =>
    rw [Snapshot.readWords] at read
    split at read
    · cases read
    · split at read
      · cases read
      · rw [defined, List.foldl_cons]
        apply ih
        rw [IndexedDictionary.plain_define]
        exact read

end
end Ledger
end ResumableForth
