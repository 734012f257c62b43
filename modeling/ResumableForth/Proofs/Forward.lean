import ResumableForth.Proofs.Effects

/-! Where native words leave the cursor. Most of them do not read the input. Of those that do, only the
branches can go back: a new definition reads its name, and a comment and a block are read to their end. At
the end of the input there is no target for a branch either, so that from there no native word goes back
at all. -/
namespace ResumableForth

namespace Machine

variable {ν α : Type} {m : Machine ν}

theorem cursor_withGenerator (m : Machine ν) (generator : Generator) :
    { m with generator := generator }.cursor = m.cursor := rfl

theorem cursor_of_deaf (operation : Op α) (deaf : Op.Class.deaf α operation) (m : Machine ν) :
    (Outcome.machine (operation.exec m)).cursor = m.cursor := by
  cases operation with
  | look | nextToken | jump => exact deaf.elim
  | pop =>
    simp only [Op.exec, Action.pop]
    split <;> rfl
  | pick index =>
    simp only [Op.exec, Action.pick]
    split <;> rfl
  | beginDefinition name immediate =>
    simp only [Op.exec, Action.beginDefinition]
    split <;> rfl
  | endDefinition =>
    simp only [Op.exec, Action.endDefinition]
    split
    · rfl
    · split <;> rfl
  | here =>
    simp only [Op.exec, Action.here]
    split
    · rfl
    · split <;> rfl
  | edit change =>
    simp only [Op.exec, Action.editDefinition]
    split
    · rfl
    · split <;> rfl
  | draw span => exact cursor_withGenerator m (m.generator.draw span).2
  | _ => rfl

theorem token?_of_deaf {result : α → Prop} {action : Action ν α}
    (composed : Action.Composed .deaf (fun _ => True) result action) (m : Machine ν) :
    (Outcome.machine (action m)).cursor = m.cursor ∧
      (Outcome.machine (action m)).token? = m.token? := by
  have met : Outcome.Meets result (fun m' => m'.cursor = m.cursor ∧ m'.token? = m.token?)
      (action m) := by
    refine composed.keeps (fun operation deaf _ m' kept => operation.meets_of_machine ?_) m ⟨rfl, rfl⟩
    have cursor := (cursor_of_deaf operation deaf m').trans kept.1
    refine ⟨cursor, ?_⟩
    rw [token?, (Change.of_exec operation m').input, cursor, ← kept.1]
    exact kept.2
  exact met.machine

end Machine

namespace Action

variable {ν α β : Type} {m : Machine ν}

/-- The action does not move the cursor back, also when it fails. -/
def Forward (action : Action ν α) : Prop := ∀ m, m.cursor ≤ (Outcome.machine (action m)).cursor

namespace Forward

theorem pure (x : α) : Forward (Pure.pure x : Action ν α) := fun _ => Nat.le_refl _

theorem get : Forward (MonadState.get : Action ν (Machine ν)) := fun _ => Nat.le_refl _

theorem fail (cause : Cause) : Forward (Action.fail cause : Action ν α) := fun _ => Nat.le_refl _

theorem bind {first : Action ν α} {next : α → Action ν β} (head : Forward first)
    (tail : ∀ x, Forward (next x)) : Forward (first >>= next) := by
  intro m
  have forward := head m
  cases acted : first m with
  | ok x between =>
    rw [acted] at forward
    rw [bind_of_ok acted]
    exact Nat.le_trans forward (tail x between)
  | error fault between =>
    rw [acted] at forward
    rw [bind_of_error acted]
    exact forward

theorem ite {condition : Prop} [Decidable condition] {first second : Action ν α}
    (yes : Forward first) (no : Forward second) : Forward (if condition then first else second) := by
  split
  · exact yes
  · exact no

theorem of_deaf {result : α → Prop} {action : Action ν α}
    (composed : Composed .deaf (fun _ => True) result action) : Forward action :=
  fun m => Nat.le_of_eq (Machine.token?_of_deaf composed m).1.symm

theorem push (value : Value) : Forward (Action.push value : Action ν Unit) := fun _ => Nat.le_refl _

theorem nextToken : Forward (Action.nextToken : Action ν (Option String)) := by
  intro m
  cases next : m.token? with
  | none =>
    rw [nextToken_of_none next]
    exact Nat.le_refl _
  | some token =>
    rw [nextToken_of_some next]
    exact Nat.le_succ _

theorem readUntil (closer : String) (missing : Cause) :
    Forward (Action.readUntil closer missing : Action ν (List String)) := by
  intro m
  rcases readUntil_cases closer missing m with ⟨block, rest, -, -, read⟩ | ⟨-, absent⟩
  · rw [read]
    show m.cursor ≤ m.cursor + block.length + 1
    omega
  · rw [absent]
    exact Nat.le_refl _

theorem op (operation : Op α) (deaf : Op.Class.deaf α operation) :
    Forward (operation.exec : Action ν α) :=
  fun m => Nat.le_of_eq (Machine.cursor_of_deaf operation deaf m).symm

theorem beginDefinition (name : String) (immediate : Bool) :
    Forward (Action.beginDefinition name immediate : Action ν Unit) :=
  op (.beginDefinition name immediate) trivial

theorem beginWord : Forward (Action.beginWord : Action ν Unit) := by
  refine bind nextToken fun name => ?_
  cases name with
  | none => exact fail _
  | some name =>
    exact bind get fun _ =>
      ite (bind nextToken fun _ => beginDefinition name true) (beginDefinition name false)

theorem setMode (mode : Mode) : Forward (Action.setMode mode : Action ν Unit) :=
  fun _ => Nat.le_refl _

theorem compile (tokens : List String) : Forward (Action.compile tokens : Action ν Unit) :=
  op (.edit (· ++ tokens)) trivial

theorem copyBlock : Forward (Action.copyBlock : Action ν Unit) :=
  bind (readUntil _ _) fun _ => bind get fun _ =>
    ite (compile _) (ite (fail _) (bind (compile _) fun _ => ite (setMode _) (pure _)))

theorem suspend : Forward (Action.suspend : Action ν Unit) :=
  bind get fun _ => ite (setMode _) (pure _)

theorem comment : Forward (Action.comment : Action ν Unit) :=
  bind (readUntil _ _) fun _ => pure _

/-- No native word but a branch moves the cursor back. -/
theorem primitive {word : Primitive} (straight : word ≠ .branch ∧ word ≠ .branchUnless) :
    Forward (word.run : Action ν Unit) := by
  have stable : Value.Stable fun _ => True := Value.closed_true.stable
  cases here : word.isLocal with
  | true => exact of_deaf ((Composed.ofLocal stable here).mono Op.Class.deaf_of_onStore)
  | false =>
    match word, here with
    | .rand, _ => exact of_deaf ((Composed.random stable).mono fun h => h.2.2)
    | .semicolon, _ => exact op .endDefinition trivial
    | .here, _ => exact of_deaf ((Composed.pushHere stable).mono fun h => h.2.2)
    | .store, _ => exact of_deaf (Composed.storeValue.mono And.right)
    | .comma, _ => exact of_deaf (Composed.compileValue.mono And.right)
    | .colon, _ => exact beginWord
    | .openBracket, _ => exact copyBlock
    | .closeBracket, _ => exact suspend
    | .openParen, _ => exact comment
    | .branch, _ => exact absurd rfl straight.1
    | .branchUnless, _ => exact absurd rfl straight.2

end Forward

theorem readTarget_of_end (ended : m.token? = none) (word : String) :
    readTarget word m = fail (.targetMissing word) m := by
  rw [readTarget, bind_of_ok (nextToken_of_none ended)]

/-- Behind the last token no native word moves the cursor back, for a branch finds no target there. -/
theorem cursor_le_of_end (word : Primitive) (ended : m.token? = none) :
    m.cursor ≤ (Outcome.machine (word.run m)).cursor := by
  by_cases straight : word ≠ .branch ∧ word ≠ .branchUnless
  · exact Forward.primitive straight m
  · have branches : word = .branch ∨ word = .branchUnless := by
      by_cases plain : word = .branch <;> simp_all
    rcases branches with rfl | rfl
    · have failed : branch m = fail (.targetMissing "BRANCH") m := by
        rw [branch, bind_of_error (readTarget_of_end ended _)]
        rfl
      show m.cursor ≤ (Outcome.machine (branch m)).cursor
      rw [failed]
      exact Nat.le_refl _
    · have condition := Machine.token?_of_deaf
        (Composed.popBool.mono fun h => Op.Class.deaf_of_onStore (Op.Class.onStore_of_onValues h)) m
      show m.cursor ≤ (Outcome.machine (branchUnless m)).cursor
      rw [branchUnless]
      cases popped : popBool m with
      | error fault next =>
        rw [popped] at condition
        rw [bind_of_error popped]
        exact Nat.le_of_eq condition.1.symm
      | ok b next =>
        rw [popped] at condition
        have ended' : next.token? = none := condition.2.trans ended
        rw [bind_of_ok popped, bind_of_error (readTarget_of_end ended' _)]
        exact Nat.le_of_eq condition.1.symm

end Action
end ResumableForth
