import ResumableForth.Proofs.Callers
import ResumableForth.Proofs.Coherence
import ResumableForth.Proofs.Forward
import ResumableForth.Proofs.Lockstep
import ResumableForth.Proofs.Naming

/-! Termination. Where no name stands for a native branch, every token takes the cursor further through
what is being read. A text then comes to its end when the words that it calls do, and these have less room
for calls of their own than their caller had. So every step ends, and every run, however the words call
each other. -/
namespace ResumableForth

/-- No name stands for a native branch. -/
def Dictionary.Branchless (dictionary : Dictionary Primitive) : Prop :=
  ∀ name word primitive, dictionary.find? name = some word → word.body = .native primitive →
    primitive ≠ .branch ∧ primitive ≠ .branchUnless

namespace Dictionary.Branchless

variable {dictionary : Dictionary Primitive}

theorem define (h : dictionary.Branchless) (name : String) {word : Word Primitive}
    {tokens : List String} (compiled : word.body = .compiled tokens) :
    (dictionary.define name word).Branchless := by
  intro other found primitive look native
  by_cases same : other = name
  · rw [same, find?_define_self] at look
    cases look
    rw [compiled] at native
    cases native
  · rw [find?_define_of_ne same] at look
    exact h other found primitive look native

theorem of_hidden (regular : dictionary.Regular)
    (part : ∀ entry ∈ dictionary.natives.entries, entry ∈ Primitive.lexicon.entries)
    (branch : ∀ word, dictionary.find? "BRANCH" = some word → word.body ≠ .native .branch)
    (branchUnless : ∀ word, dictionary.find? "BRANCH?" = some word →
      word.body ≠ .native .branchUnless) : dictionary.Branchless := by
  intro name word primitive found native
  have standard : (name, word) ∈ Primitive.lexicon.entries := by
    rw [find?_eq] at found
    cases user : dictionary.user.find? name with
    | none =>
      rw [user] at found
      exact part _ (Lexicon.mem_entries_of_find? found)
    | some own =>
      obtain ⟨immediate, tokens, rfl⟩ := regular.word user
      rw [user] at found
      cases found
      cases native
  obtain ⟨named, -, same⟩ := List.mem_map.mp standard
  obtain ⟨rfl, rfl⟩ := Prod.mk.inj same
  obtain rfl : named = primitive := Body.native.inj native
  constructor
  · rintro rfl
    exact branch _ found rfl
  · rintro rfl
    exact branchUnless _ found rfl

end Dictionary.Branchless

namespace Machine

variable {m m' : StandardMachine}

theorem branchless_of_change (h : m.dictionary.Branchless) (change : Change m m') :
    m'.dictionary.Branchless := by
  cases change with
  | nothing same | moved _ _ same | switched _ _ same | ended _ _ same =>
    rw [same.dictionary]
    exact h
  | begun name immediate idle same =>
    rw [same.dictionary]
    exact h.define name rfl
  | edited name opened change dictionary edited same =>
    obtain ⟨word, tokens, -, -, rfl⟩ := Dictionary.editBody?_eq_some edited
    rw [same.dictionary]
    exact h.define name rfl

theorem invariant_branchless : Invariant (fun _ => True) fun m => m.dictionary.Branchless where
  closed := Value.closed_true
  operation operation _ m h :=
    operation.meets_of_machine (branchless_of_change h (.of_exec operation m))
  record _ _ h := h
  enter _ _ _ _ _ _ _ h := h
  leave m h := by
    rw [leave]
    split <;> exact h
  halt _ _ h := h

def left (m : StandardMachine) : Nat := m.input.length - m.cursor

theorem forward_of_request {token : String} {action : Action Primitive Unit}
    (branchless : m.dictionary.Branchless) (asked : m.request token = .act action) :
    action.Forward := by
  obtain ⟨word, primitive, found, body, -, rfl⟩ | rfl | rfl | ⟨-, rfl⟩ := act_of_request asked
  · exact .primitive (branchless token word primitive found body)
  · exact .push _
  · exact .compile _
  · exact .fail _

theorem left_read {token : String} (next : m.token? = some token) : (m.read token).left < m.left := by
  have inside : m.cursor < m.input.length := (List.getElem?_eq_some_iff.mp next).1
  show m.input.length - (m.cursor + 1) < m.input.length - m.cursor
  omega

/-- A step that reads a token leaves less to read, and the words around it as they are. -/
theorem left_of_step {token : String} {fuel : Nat} {back : StandardMachine}
    (branchless : m.dictionary.Branchless) (next : m.token? = some token)
    (stepped : m.step Primitive.handler fuel = some (.ok () back)) :
    SameCallers m back ∧ back.left < m.left := by
  have reading := SameCallers.read token m
  have fewer := left_read next
  cases asked : (m.read token).request token with
  | act action =>
    rw [step_of_act next asked] at stepped
    have acted := Option.some.inj stepped
    have callers := sameCallers_of_act asked
    have input := input_of_composed (plain_of_request Value.closed_true asked) (m.read token)
    have forward := forward_of_request (m := m.read token) branchless asked (m.read token)
    rw [acted] at callers input forward
    refine ⟨reading.trans callers, Nat.lt_of_le_of_lt ?_ fewer⟩
    change back.input.length - back.cursor ≤ (m.read token).input.length - (m.read token).cursor
    rw [show back.input = (m.read token).input from input]
    exact Nat.sub_le_sub_left forward _
  | call name tokens =>
    obtain ⟨rfl, word, found, body, runs⟩ := call_of_request asked
    have undisturbed : Undisturbed (m.read name) back :=
      undisturbed_of_step next found body runs stepped
    refine ⟨reading.trans undisturbed.sameCallers, ?_⟩
    rw [left, undisturbed.input, undisturbed.cursor]
    exact fewer

/-- The call of a word comes to an end. -/
def CallEnds (caller : StandardMachine) (name : String) (tokens : List String) : Prop :=
  ∃ fuel outcome, settle Primitive.handler fuel caller.depth (some (caller.call name tokens)) =
    some outcome

theorem exists_step {token : String} (next : m.token? = some token)
    (calls : ∀ name tokens, CallEnds (m.read token) name tokens) :
    ∃ fuel outcome, m.step Primitive.handler fuel = some outcome := by
  cases asked : (m.read token).request token with
  | act action => exact ⟨0, _, step_of_act next asked 0⟩
  | call name tokens =>
    obtain ⟨fuel, outcome, settled⟩ := calls name tokens
    rw [(SameCallers.read token m).depth] at settled
    refine ⟨fuel, outcome, ?_⟩
    rw [step, tick_of_token next, asked]
    exact settled

/-- A running word comes to its end when the words that it calls do. The induction is on the tokens that
are left of it. -/
theorem exists_drain {base room : Nat}
    (calls : ∀ caller : StandardMachine, caller.room = room → caller.dictionary.Branchless →
      ∀ name tokens, CallEnds caller name tokens)
    (branchless : m.dictionary.Branchless) (inside : m.depth = base + 1) (same : m.room = room) :
    ∃ fuel outcome, m.drain Primitive.handler base fuel = some outcome := by
  induction count : m.left using Nat.strongRecOn generalizing m with
  | _ count ih =>
    have above : base < m.depth := inside ▸ Nat.lt_succ_self base
    cases next : m.token? with
    | none => exact ⟨1, _, drain_of_end inside next⟩
    | some token =>
      have callers := SameCallers.read token m
      obtain ⟨fuel, outcome, stepped⟩ :=
        exists_step next (calls (m.read token) (callers.room.trans same) branchless)
      cases outcome with
      | error fault failed =>
        obtain ⟨fuel, drained⟩ := exists_drain_of_step_error above stepped
        exact ⟨fuel, _, drained⟩
      | ok _ back =>
        obtain ⟨kept, fewer⟩ := left_of_step branchless next stepped
        obtain ⟨fuel', ending, drained⟩ :=
          ih back.left (count ▸ fewer) (invariant_branchless.step branchless stepped)
            (kept.depth.trans inside) (kept.room.trans same) rfl
        obtain ⟨fuel, drained⟩ := exists_drain_of_step above stepped ⟨fuel', drained⟩
        exact ⟨fuel, ending, drained⟩

/-- Every call comes to an end. The induction is on the room that there is for further calls. -/
theorem callEnds (caller : StandardMachine) (branchless : caller.dictionary.Branchless) (name : String)
    (tokens : List String) : CallEnds caller name tokens := by
  induction free : caller.room generalizing caller name tokens with
  | zero => exact ⟨0, _, by rw [call, if_pos free]; rfl⟩
  | succ room ih =>
    have less : (caller.enter name tokens).room = room := by
      show caller.room - 1 = room
      rw [free, Nat.add_sub_cancel]
    have calls : ∀ inner : StandardMachine, inner.room = room → inner.dictionary.Branchless →
        ∀ name tokens, CallEnds inner name tokens :=
      fun inner same branchless name tokens => ih inner branchless name tokens same
    obtain ⟨fuel, outcome, drained⟩ :=
      exists_drain (m := caller.enter name tokens) calls branchless rfl less
    refine ⟨fuel, outcome, ?_⟩
    rw [call, if_neg (free ▸ Nat.succ_ne_zero room)]
    exact drained

theorem exists_runToHalt (branchless : m.dictionary.Branchless) (idle : m.frames = []) :
    ∃ fuel outcome, m.runToHalt Primitive.handler fuel = some outcome := by
  induction count : m.left using Nat.strongRecOn generalizing m with
  | _ count ih =>
    by_cases halted : m.mode = .halt
    · exact ⟨0, _, runToHalt_of_halted halted 0⟩
    · cases next : m.token? with
      | none =>
        have stepped := step_of_end idle next 0
        exact ⟨1, _, (runToHalt_of_step halted stepped).trans (runToHalt_of_halted rfl 0)⟩
      | some token =>
        obtain ⟨fuel, outcome, stepped⟩ := exists_step next (callEnds (m.read token) branchless)
        cases outcome with
        | error fault failed => exact ⟨fuel + 1, _, runToHalt_of_fault halted stepped⟩
        | ok _ back =>
          obtain ⟨kept, fewer⟩ := left_of_step branchless next stepped
          obtain ⟨fuel, outcome, ran⟩ := ih back.left (count ▸ fewer)
            (invariant_branchless.step branchless stepped) (kept.idle_iff.mpr idle) rfl
          obtain ⟨fuel, ran⟩ := (StepsTo.single halted stepped).exists_runToHalt_iff.mpr ⟨fuel, ran⟩
          exact ⟨fuel, outcome, ran⟩

/-- Only branches can make a step run forever. Where neither name of a branch stands for the native word,
because the host leaves it out or a word of the program hides it, every step and every run comes to an end,
with success or with a fault. It does not matter what else the program defines and reads, and how many
words may run at once. -/
theorem ends_without_branches {host : Host Primitive} {m : StandardMachine} (attained : Attained host m)
    (idle : m.frames = [])
    (part : ∀ entry ∈ host.natives.entries, entry ∈ Primitive.lexicon.entries)
    (branch : ∀ word, m.dictionary.find? "BRANCH" = some word → word.body ≠ .native .branch)
    (branchUnless : ∀ word, m.dictionary.find? "BRANCH?" = some word →
      word.body ≠ .native .branchUnless) :
    (∃ fuel outcome, m.step Primitive.handler fuel = some outcome) ∧
      ∃ fuel outcome, m.runToHalt Primitive.handler fuel = some outcome := by
  have coherent := attained.coherent
  have branchless : m.dictionary.Branchless :=
    .of_hidden coherent.dictionary (coherent.natives.symm ▸ part) branch branchUnless
  refine ⟨?_, exists_runToHalt branchless idle⟩
  cases next : m.token? with
  | none => exact ⟨0, _, step_of_end idle next 0⟩
  | some token => exact exists_step next (callEnds (m.read token) branchless)

def unbranching : Host Primitive :=
  { natives := ⟨Primitive.lexicon.entries.filter fun entry => entry.1 != "BRANCH"⟩, depthBound := 2 }

/-- A program that hides the other branch, and whose next token is one of two words that call each other. -/
def pinging : StandardMachine :=
  { start unbranching with
    dictionary := ⟨unbranching.natives, ⟨[("BRANCH?", .compiled false ["DROP"]),
      ("PING", .compiled false ["1", "BRANCH?", "PONG", "0"]),
      ("PONG", .compiled false ["PING", "BRANCH"])]⟩⟩
    input := ["PING"] }

theorem ends_without_branches_pinging :
    Attained unbranching pinging ∧ pinging.dictionary.find? "BRANCH" = none ∧
      (∃ fuel outcome, pinging.step Primitive.handler fuel = some outcome) ∧
      (∃ fuel outcome, pinging.runToHalt Primitive.handler fuel = some outcome) ∧
      ∃ fault last, pinging.step Primitive.handler 6 = some (.error fault last) ∧
        fault.kind = .callDepthExceeded := by
  have fresh : Attained unbranching (start unbranching) := .start
  have loaded := fresh.commanded (.load [":", "BRANCH?", "DROP", ";", ":", "PING", "1", "BRANCH?",
    "PONG", "0", ";", ":", "PONG", "PING", "BRANCH", ";"]) 0 rfl
  have defined := loaded.commanded .runToHalt 20 rfl
  have attained : Attained unbranching pinging := defined.commanded (.load ["PING"]) 0 rfl
  have part : ∀ entry ∈ unbranching.natives.entries, entry ∈ Primitive.lexicon.entries :=
    fun entry mem => (List.mem_filter.mp mem).1
  have missing : pinging.dictionary.find? "BRANCH" = none := rfl
  have branch : ∀ word, pinging.dictionary.find? "BRANCH" = some word → word.body ≠ .native .branch := by
    simp [missing]
  have branchUnless : ∀ word, pinging.dictionary.find? "BRANCH?" = some word →
      word.body ≠ .native .branchUnless := by
    have own : pinging.dictionary.find? "BRANCH?" = some (.compiled false ["DROP"]) := rfl
    simp [own, Word.compiled]
  obtain ⟨steps, runs⟩ := ends_without_branches attained rfl part branch branchUnless
  exact ⟨attained, missing, steps, runs, _, _, rfl, rfl⟩

end Machine
end ResumableForth
