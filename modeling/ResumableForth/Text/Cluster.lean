import ResumableForth.Text.Joining

/-! The characters of a text as a reader sees them. A cluster is a maximal run of characters without
a boundary inside, by the rules for extended grapheme clusters. Whether there is a boundary depends on
the character behind it and on a bounded memory of the text before it, so the text is taken one
character at a time. -/
namespace ResumableForth
namespace Text

/-- How far a conjunct has been read: not begun, behind its first consonant, or behind a linker. -/
inductive Conjunct
  | absent | begun | linked
  deriving DecidableEq

structure Memory where
  last : Joining
  /-- Does the text end in an odd number of regional letters? -/
  unpaired : Bool := false
  /-- Does the text end in a pictograph with its combining marks and at most a joiner behind them? -/
  pictured : Bool := false
  conjunct : Conjunct := .absent

namespace Conjunct

/-- A character that is neither a consonant nor a mark ends a conjunct, and so does the mark that
keeps characters apart. -/
def after (conjunct : Conjunct) (c : Char) : Conjunct :=
  if isLinker c then if conjunct = .absent then .absent else .linked
  else
    match joining c with
    | .consonant => .begun
    | .joiner => conjunct
    | .combining => if c.toNat = 0x200C then .absent else conjunct
    | _ => .absent

end Conjunct

namespace Memory

def start : Memory := { last := .separator }

def after (memory : Memory) (c : Char) : Memory :=
  let part := joining c
  { last := part
    unpaired := decide (part = .regional) && !memory.unpaired
    pictured := match part with
      | .pictograph => true
      | .combining | .joiner => memory.pictured && decide (memory.last ≠ .joiner)
      | _ => false
    conjunct := memory.conjunct.after c }

def joins (memory : Memory) (c : Char) : Bool :=
  let part := joining c
  if memory.last = .carriageReturn ∧ part = .lineFeed then true
  else if memory.last.isSeparator || part.isSeparator then false
  else
    part.isAttached
      || decide (memory.last = .prepended)
      || Joining.formBlock memory.last part
      || (decide (part = .consonant) && decide (memory.conjunct = .linked))
      || (decide (part = .pictograph) && memory.pictured && decide (memory.last = .joiner))
      || (decide (part = .regional) && memory.unpaired)

end Memory

/-- The clusters of a text of which `cluster` has just been read, latest character first. -/
def clustersFrom (memory : Memory) (cluster : List Char) : List Char → List (List Char)
  | [] => [cluster.reverse]
  | c :: rest =>
    if memory.joins c then clustersFrom (memory.after c) (c :: cluster) rest
    else cluster.reverse :: clustersFrom (memory.after c) [c] rest

def clusters : List Char → List (List Char)
  | [] => []
  | c :: rest => clustersFrom (Memory.start.after c) [c] rest

theorem flatten_clustersFrom (memory : Memory) (cluster text : List Char) :
    (clustersFrom memory cluster text).flatten = cluster.reverse ++ text := by
  induction text generalizing memory cluster with
  | nil => simp [clustersFrom]
  | cons c rest ih =>
    rw [clustersFrom]
    split <;> simp [ih]

/-- Nothing of a text is lost or moved in its clusters. -/
@[simp] theorem flatten_clusters (text : List Char) : (clusters text).flatten = text := by
  cases text with
  | nil => rfl
  | cons c rest => simp [clusters, flatten_clustersFrom]

end Text
end ResumableForth
