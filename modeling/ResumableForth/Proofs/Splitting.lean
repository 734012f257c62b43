import ResumableForth.Text.Blank

/-! Texts as tokens with gaps around them. A text can be taken apart into tokens and gaps, where only the
gaps at either end may be empty, and this can be done in one way only: the tokens are the maximal runs of
characters that are not blank. So the tokens of a text can be read off any spelling of it, and a gap inside
a text divides the work. -/
namespace ResumableForth
namespace Text

def isGap (text : String) : Bool := text.toList.all isBlank

/-- Tokens in a row, each with the gap behind it, and a gap in front of them all. Where two tokens meet
the gap is not empty. -/
structure Spelling where
  lead : String
  pieces : List (String × String)
  isGap_lead : isGap lead = true
  isToken_fst : ∀ piece ∈ pieces, isToken piece.1 = true
  isGap_snd : ∀ piece ∈ pieces, isGap piece.2 = true
  apart : ∀ piece ∈ pieces.dropLast, piece.2 ≠ ""

namespace Spelling

def text (spelling : Spelling) : String :=
  spelling.lead ++ String.join (spelling.pieces.map fun piece => piece.1 ++ piece.2)

def tokens (spelling : Spelling) : List String := spelling.pieces.map Prod.fst

end Spelling

def joined : List (String × String) → String
  | [] => ""
  | [piece] => piece.1
  | piece :: pieces => piece.1 ++ piece.2 ++ joined pieces

theorem isGap_iff (text : String) : isGap text = true ↔ ∀ c ∈ text.toList, isBlank c = true :=
  List.all_eq_true

theorem isToken_iff (text : String) :
    isToken text = true ↔ text.toList ≠ [] ∧ ∀ c ∈ text.toList, isBlank c = false := by
  simp [isToken]

theorem runs_append {c : Char} (blank : isBlank c = true) (run chars rest : List Char) :
    runs run (chars ++ c :: rest) = runs run chars ++ runs [] rest := by
  induction chars generalizing run with
  | nil => rw [List.nil_append, runs_cons, if_pos blank, runs_nil]
  | cons d chars ih =>
    rw [List.cons_append, runs_cons, runs_cons, ih, ih]
    split
    · rw [List.append_assoc]
    · rfl

theorem runs_of_not_blank {chars : List Char} (h : ∀ c ∈ chars, isBlank c = false)
    (run : List Char) : runs run chars = closeRun (chars.reverse ++ run) := by
  induction chars generalizing run with
  | nil => simp
  | cons c chars ih =>
    obtain ⟨first, later⟩ := List.forall_mem_cons.mp h
    rw [runs_cons, if_neg (Bool.eq_false_iff.mp first), ih later]
    simp

theorem closeRun_of_ne_nil {run : List Char} (begun : run ≠ []) :
    closeRun run = [String.ofList run.reverse] := by
  cases run with
  | nil => exact absurd rfl begun
  | cons c run => rfl

theorem isToken_of_run {run : List Char} (begun : run ≠ []) (plain : ∀ c ∈ run, isBlank c = false) :
    isToken (String.ofList run.reverse) = true := by
  rw [isToken_iff]
  simpa using And.intro begun plain

theorem runs_gap {gap : List Char} (blank : ∀ c ∈ gap, isBlank c = true) (rest : List Char) :
    runs [] (gap ++ rest) = runs [] rest := by
  induction gap with
  | nil => rfl
  | cons c gap ih =>
    obtain ⟨first, later⟩ := List.forall_mem_cons.mp blank
    rw [List.cons_append, runs_cons, if_pos first, closeRun_nil, List.nil_append, ih later]

theorem tokens_append_gap {gap : String} (blank : isGap gap = true) (filled : gap ≠ "")
    (front back : String) : tokens (front ++ gap ++ back) = tokens front ++ tokens back := by
  rw [isGap_iff] at blank
  cases chars : gap.toList with
  | nil => exact absurd (String.toList_eq_nil_iff.mp chars) filled
  | cons c gap' =>
    rw [chars] at blank
    obtain ⟨first, later⟩ := List.forall_mem_cons.mp blank
    have whole : (front ++ gap ++ back).toList = front.toList ++ c :: (gap' ++ back.toList) := by
      simp [chars]
    rw [tokens, whole, runs_append first, runs_gap later]
    rfl

theorem tokens_gap_append {gap : String} (blank : isGap gap = true) (back : String) :
    tokens (gap ++ back) = tokens back := by
  rw [tokens, String.toList_append, runs_gap ((isGap_iff gap).mp blank)]
  rfl

theorem tokens_of_isToken {token : String} (h : isToken token = true) : tokens token = [token] := by
  obtain ⟨filled, plain⟩ := (isToken_iff token).mp h
  have begun : token.toList.reverse ≠ [] := by simpa using filled
  rw [tokens, runs_of_not_blank plain, List.append_nil, closeRun_of_ne_nil begun, List.reverse_reverse,
    String.ofList_toList]

theorem tokens_joined {pieces : List (String × String)}
    (valid : ∀ piece ∈ pieces, isToken piece.1 = true ∧ isGap piece.2 = true ∧ piece.2 ≠ "") :
    tokens (joined pieces) = pieces.map Prod.fst := by
  induction pieces with
  | nil => rfl
  | cons piece pieces ih =>
    obtain ⟨⟨token, gap, filled⟩, later⟩ := List.forall_mem_cons.mp valid
    cases pieces with
    | nil => exact tokens_of_isToken token
    | cons next pieces =>
      rw [joined, tokens_append_gap gap filled, tokens_of_isToken token, ih later]
      · rfl
      · simp

namespace Spelling

/-- The tokens of a text that is spelled out. The induction is on the pieces: behind each of them there is
a gap that divides the text, or nothing is left. -/
theorem tokens_pieces {pieces : List (String × String)}
    (isToken_fst : ∀ piece ∈ pieces, isToken piece.1 = true)
    (isGap_snd : ∀ piece ∈ pieces, isGap piece.2 = true)
    (apart : ∀ piece ∈ pieces.dropLast, piece.2 ≠ "") :
    Text.tokens (String.join (pieces.map fun piece => piece.1 ++ piece.2)) =
      pieces.map Prod.fst := by
  induction pieces with
  | nil => rfl
  | cons piece pieces ih =>
    obtain ⟨token, laterTokens⟩ := List.forall_mem_cons.mp isToken_fst
    obtain ⟨gap, laterGaps⟩ := List.forall_mem_cons.mp isGap_snd
    have laterApart : ∀ piece ∈ pieces.dropLast, piece.2 ≠ "" := by
      intro other mem
      cases pieces with
      | nil => simp at mem
      | cons next pieces => exact apart other (List.mem_cons_of_mem _ mem)
    rw [List.map_cons, String.join_cons, List.map_cons]
    by_cases filled : piece.2 = ""
    · obtain rfl : pieces = [] := by
        cases pieces with
        | nil => rfl
        | cons next pieces => exact absurd filled (apart piece (List.mem_cons_self ..))
      simpa [filled] using tokens_of_isToken token
    · rw [tokens_append_gap gap filled, tokens_of_isToken token,
        ih laterTokens laterGaps laterApart]
      rfl

theorem tokens_text (spelling : Spelling) : Text.tokens spelling.text = spelling.tokens := by
  rw [text, tokens_gap_append spelling.isGap_lead]
  exact tokens_pieces spelling.isToken_fst spelling.isGap_snd spelling.apart

theorem exists_blank {c : Char} (blank : isBlank c = true) (spelling : Spelling) :
    ∃ other : Spelling, other.text.toList = c :: spelling.text.toList ∧
      other.tokens = spelling.tokens ∧ other.lead ≠ "" := by
  have isGap_lead : isGap (String.ofList [c] ++ spelling.lead) = true := by
    have gap := (isGap_iff spelling.lead).mp spelling.isGap_lead
    rw [isGap_iff, String.toList_append, String.toList_ofList]
    exact List.forall_mem_cons.mpr ⟨blank, gap⟩
  refine ⟨{ spelling with lead := String.ofList [c] ++ spelling.lead, isGap_lead }, ?_, rfl, ?_⟩
  · simp [text]
  · intro empty
    simpa using congrArg String.toList empty

theorem exists_token {token : String} (h : isToken token = true) (spelling : Spelling)
    (apart : spelling.lead ≠ "" ∨ spelling.pieces = []) :
    ∃ other : Spelling, other.text = token ++ spelling.text ∧
      other.tokens = token :: spelling.tokens ∧ other.lead = "" := by
  have isToken_fst : ∀ piece ∈ (token, spelling.lead) :: spelling.pieces, isToken piece.1 = true :=
    List.forall_mem_cons.mpr ⟨h, spelling.isToken_fst⟩
  have isGap_snd : ∀ piece ∈ (token, spelling.lead) :: spelling.pieces, isGap piece.2 = true :=
    List.forall_mem_cons.mpr ⟨spelling.isGap_lead, spelling.isGap_snd⟩
  have apart' : ∀ piece ∈ ((token, spelling.lead) :: spelling.pieces).dropLast, piece.2 ≠ "" := by
    cases pieces : spelling.pieces with
    | nil => simp
    | cons next later =>
      have filled : spelling.lead ≠ "" := by simpa [pieces] using apart
      rw [List.dropLast_cons_of_ne_nil (List.cons_ne_nil next later), ← pieces]
      exact List.forall_mem_cons.mpr ⟨filled, spelling.apart⟩
  refine ⟨⟨"", (token, spelling.lead) :: spelling.pieces, rfl, isToken_fst, isGap_snd, apart'⟩, ?_, rfl,
    rfl⟩
  simp [text, String.append_assoc]

theorem exists_empty :
    ∃ spelling : Spelling, spelling.text = "" ∧ spelling.tokens = [] ∧ spelling.lead = "" ∧
      spelling.pieces = [] :=
  ⟨⟨"", [], rfl, List.forall_mem_nil _, List.forall_mem_nil _, List.forall_mem_nil _⟩, rfl, rfl, rfl, rfl⟩

/-- Every text can be spelled by its tokens. The induction is on what is left to read. A run that has been
begun belongs to the first token, so that no gap is in front of it. -/
theorem exists_runs (run chars : List Char) (plain : ∀ c ∈ run, isBlank c = false) :
    ∃ spelling : Spelling, spelling.text.toList = run.reverse ++ chars ∧
      spelling.tokens = runs run chars ∧ (run ≠ [] → spelling.lead = "") := by
  induction chars generalizing run with
  | nil =>
    obtain ⟨empty, spelled, split, lead, pieces⟩ := exists_empty
    by_cases begun : run = []
    · subst begun
      refine ⟨empty, ?_, split, fun _ => lead⟩
      rw [spelled]
      rfl
    · obtain ⟨spelling, spelled', split', lead'⟩ :=
        exists_token (isToken_of_run begun plain) empty (.inr pieces)
      refine ⟨spelling, ?_, ?_, fun _ => lead'⟩
      · simp [spelled', spelled]
      · rw [split', split, runs_nil, closeRun_of_ne_nil begun]
  | cons c chars ih =>
    rw [runs_cons]
    by_cases blank : isBlank c = true
    · obtain ⟨rest, spelled, split, -⟩ := ih [] (List.forall_mem_nil _)
      obtain ⟨widened, spelled', split', lead⟩ := exists_blank blank rest
      rw [if_pos blank]
      by_cases begun : run = []
      · subst begun
        refine ⟨widened, ?_, ?_, fun begun => absurd rfl begun⟩
        · rw [spelled', spelled]
          rfl
        · rw [split', split]
          rfl
      · obtain ⟨spelling, spelled'', split'', lead'⟩ :=
          exists_token (isToken_of_run begun plain) widened (.inl lead)
        refine ⟨spelling, ?_, ?_, fun _ => lead'⟩
        · simp [spelled'', spelled', spelled]
        · rw [split'', split', split, closeRun_of_ne_nil begun]
          rfl
    · have extended : ∀ d ∈ c :: run, isBlank d = false :=
        List.forall_mem_cons.mpr ⟨Bool.not_eq_true _ ▸ blank, plain⟩
      obtain ⟨spelling, spelled, split, lead⟩ := ih (c :: run) extended
      rw [if_neg blank]
      refine ⟨spelling, ?_, split, fun _ => lead (List.cons_ne_nil c run)⟩
      simpa using spelled

theorem exists_of_text (source : String) :
    ∃ spelling : Spelling, spelling.text = source ∧ spelling.tokens = Text.tokens source := by
  obtain ⟨spelling, spelled, split, -⟩ := exists_runs [] source.toList (by simp)
  exact ⟨spelling, String.toList_inj.mp spelled, split⟩

end Spelling

theorem isToken_of_mem_tokens {source token : String} (mem : token ∈ tokens source) :
    isToken token = true := by
  obtain ⟨spelling, -, split⟩ := Spelling.exists_of_text source
  rw [← split, Spelling.tokens, List.mem_map] at mem
  obtain ⟨piece, there, rfl⟩ := mem
  exact spelling.isToken_fst piece there

/-- The tokens of a text are its maximal runs of characters that are not blank. They are the only tokens
that spell the text, with gaps around them of which those between two tokens are not empty. So tokens that
are joined by such gaps are found again, and a text may be cut at any gap. -/
theorem tokens_eq_iff_spelling :
    (∀ (source : String) (list : List String), tokens source = list ↔
      ∃ spelling : Spelling, spelling.text = source ∧ spelling.tokens = list) ∧
    (∀ pieces : List (String × String),
      (∀ piece ∈ pieces, isToken piece.1 = true ∧ isGap piece.2 = true ∧ piece.2 ≠ "") →
        tokens (joined pieces) = pieces.map Prod.fst) ∧
    ∀ front gap back : String, isGap gap = true → gap ≠ "" →
      tokens (front ++ gap ++ back) = tokens front ++ tokens back := by
  refine ⟨?_, fun _ => tokens_joined, fun front gap back blank filled =>
    tokens_append_gap blank filled front back⟩
  intro source list
  constructor
  · rintro rfl
    exact Spelling.exists_of_text source
  · rintro ⟨spelling, rfl, rfl⟩
    exact spelling.tokens_text

theorem tokens_eq_iff_spelling_mixed :
    isGap "\u2028\t" = true ∧
      tokens (joined [(":", " "), ("é_1", "\u2028\t"), (";", "\u3000")]) = [":", "é_1", ";"] ∧
      tokens ("1 2" ++ "\u2028\t" ++ " 3") = tokens "1 2" ++ tokens " 3" ∧
      ∃ spelling : Spelling, spelling.text = " a\u00a0\nb" ∧ spelling.tokens = ["a", "b"] := by
  have gap : isGap "\u2028\t" = true := by decide
  have filled : "\u2028\t" ≠ "" := by decide
  obtain ⟨split, join, cut⟩ := tokens_eq_iff_spelling
  exact ⟨gap, join _ (by decide), cut _ _ _ gap filled, (split _ _).mp (by decide)⟩

end Text
end ResumableForth
